import Mathlib.Logic.Basic

/-!
# `Core.States` — the pipeline state machine

The 22 states of a ticket, the table `TRANSITIONS` of legal moves, the guard `canTransition` that
adds the two resume edges (`blocked → blocked_from`, `awaiting_user_reply → paused_from`), and the stage
that works on each active state.
-/

namespace RobotsixMill
namespace Core

/-- Marker prefix agents put on clarifying questions. -/
def ASK_USER_MARKER : String := "[ASK_USER]"

/-- Ticket states in the pipeline lifecycle. -/
inductive State
  | classifying | draft | humanIssueApproval | ready | documenting | codeReview | deliverable
  | humanMrApproval | implementComplete | waitingAutoMerge | rebasing | fixingCi
  | addressingReview | done | closed | errored | blocked | asked | answered
  | awaitingUserReply | epicOpen | epicClosed
deriving DecidableEq, Repr

namespace State

/-- The stored string of a state. -/
def value : State → String
  | classifying => "classifying"
  | draft => "draft"
  | humanIssueApproval => "human_issue_approval"
  | ready => "ready"
  | documenting => "documenting"
  | codeReview => "code_review"
  | deliverable => "deliverable"
  | humanMrApproval => "human_mr_approval"
  | implementComplete => "implement_complete"
  | waitingAutoMerge => "waiting_auto_merge"
  | rebasing => "rebasing"
  | fixingCi => "fixing_ci"
  | addressingReview => "addressing_review"
  | done => "done"
  | closed => "closed"
  | errored => "errored"
  | blocked => "blocked"
  | asked => "asked"
  | answered => "answered"
  | awaitingUserReply => "awaiting_user_reply"
  | epicOpen => "epic_open"
  | epicClosed => "epic_closed"

end State

open State

/-- State → the states it may move to. -/
def TRANSITIONS : State → List State
  | classifying => [draft, epicOpen, closed, done, errored, blocked, awaitingUserReply]
  | draft => [ready, humanIssueApproval, errored, blocked, closed, done, awaitingUserReply, epicOpen]
  | humanIssueApproval => [ready, draft, errored, blocked]
  | ready => [codeReview, documenting, deliverable, rebasing, errored, blocked, awaitingUserReply,
      done, epicOpen]
  | codeReview => [documenting, ready, errored, blocked, awaitingUserReply]
  | documenting => [deliverable, errored, blocked, awaitingUserReply]
  | deliverable => [implementComplete, errored, blocked, awaitingUserReply, done]
  | implementComplete => [humanMrApproval, fixingCi, rebasing, waitingAutoMerge, addressingReview,
      done, blocked, errored, awaitingUserReply]
  | humanMrApproval => [done, waitingAutoMerge, implementComplete, rebasing, addressingReview, ready,
      errored, blocked, awaitingUserReply]
  | waitingAutoMerge => [done, implementComplete, humanMrApproval, rebasing, addressingReview,
      errored, blocked, awaitingUserReply]
  | rebasing => [implementComplete, ready, waitingAutoMerge, humanMrApproval, errored, blocked,
      awaitingUserReply]
  | fixingCi => [implementComplete, rebasing, blocked, errored, awaitingUserReply]
  | addressingReview => [humanMrApproval, blocked, errored, awaitingUserReply]
  | done => [closed, errored, blocked, awaitingUserReply, humanIssueApproval]
  | closed => []
  | asked => [answered, errored, blocked, awaitingUserReply]
  | answered => []
  | awaitingUserReply => [ready, errored, blocked]
  | epicOpen => [epicClosed, blocked]
  | epicClosed => []
  | errored => [ready, draft, classifying]
  | blocked => [ready, draft, classifying, closed]

/-- Is `src → dst` legal, given the recorded `blocked_from` and `paused_from`? -/
def canTransition (src dst : State) (blockedFrom pausedFrom : Option State) : Bool :=
  if dst ∈ TRANSITIONS src then true
  else if src = blocked ∧ blockedFrom = some dst then true
  else decide (src = awaitingUserReply ∧ pausedFrom = some dst)

/-- Active state → name of the stage that consumes it. -/
def STAGE_FOR_STATE : State → Option String
  | classifying => some "classify"
  | draft => some "refine"
  | ready => some "implement"
  | implementComplete => some "merge"
  | documenting => some "document"
  | codeReview => some "review"
  | deliverable => some "deliver"
  | humanMrApproval => some "merge"
  | waitingAutoMerge => some "merge"
  | rebasing => some "merge"
  | fixingCi => some "ci_fix"
  | addressingReview => some "merge"
  | done => some "retrospect"
  | asked => some "answer"
  | _ => none

/-! ## What the tables say -/

/-- A ticket can be blocked from a state only if that state lists `blocked`. -/
theorem not_canTransition_blocked_self (bf pf : Option State) (hbf : bf ≠ some blocked) :
    canTransition blocked blocked bf pf = false := by
  simp [canTransition, TRANSITIONS, hbf]

/-- The resume edge of a blocked ticket is always open. -/
theorem canTransition_blocked_resume (s : State) (pf : Option State) :
    canTransition blocked s (some s) pf = true := by
  simp [canTransition]

/-- A ticket enters `awaiting_user_reply` from itself only along a recorded pause. -/
theorem canTransition_awaiting_self {bf pf : Option State}
    (h : canTransition awaitingUserReply awaitingUserReply bf pf = true) :
    pf = some awaitingUserReply := by
  simpa [canTransition, TRANSITIONS] using h

end Core
end RobotsixMill
