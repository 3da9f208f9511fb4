import RobotsixMill.Stages.MergePoll

/-!
# `Stages.ReviewRevision` — changes a reviewer requests

`_review_changes_requested_outcome`, which every poll of an open pull request goes through, stores the
review and sends the ticket to `addressing_review`; `_run_review_revision` is what happens there: an agent
revises the branch, and the ticket goes back to wait for a human. Attempts are counted in
`review_revision_attempts.txt`. The dismissal of a stale review is left out.

- `reviewChangesRequestedOutcome_spec` — when changes count as requested;
- `runReviewRevision_moves` — where a revision sends the ticket.
-/

namespace RobotsixMill
namespace Stages
open RobotsixMill.Core Lib

/-- What `_reconcile_with_remote_pr` blocks a ticket with. -/
def divergedNote : String :=
  "PR branch diverged from the workspace clone (a human likely pushed to " ++
    "it) — manual reconciliation required. The mill refuses to " ++
    "force-push here: push_with_lease cannot protect this case " ++
    "because reconcile's own fetch already advanced the tracking " ++
    "ref to the foreign commit, so a lease push would pass its " ++
    "compare-and-swap and SILENTLY OVERWRITE that commit."

/-! ## Requested changes -/

section Requested

variable (s : Settings) (review : Answer ReviewStatus) (prHeadSha : String) (a : Artifacts)

/-- The review was given for another head. -/
def isStale (rs : ReviewStatus) : Bool :=
  decide (prHeadSha ≠ "") && decide (rs.commitId ≠ "") && decide (prHeadSha ≠ rs.commitId)

/-- `_review_changes_requested_outcome`. -/
def reviewChangesRequestedOutcome : Artifacts × Option StageOutcome :=
  match review with
  | .raised | .nothing => (a, none)
  | .found rs =>
    -- without the flag a stale review is still dismissed, and no other counts
    if s.reviewFeedbackEnabled = false ∨ rs.state ≠ "CHANGES_REQUESTED" ∨ isStale prHeadSha rs then (a, none)
    else
      let body := strip (rs.body.getD "")
      if rs.comments = [] ∧ body = "" then (a, none)
      else
        let comments := if rs.comments = [] then
            [{ body := body, reviewState := "CHANGES_REQUESTED" : ReviewComment }]
          else rs.comments
        ({ a with reviewFeedbackJson := .ok { rs with comments := comments } },
          some { nextState := .addressingReview
                 note := some s!"Reviewer requested changes with {comments.length} comment(s)" })

/-- The flag is on, and a review for this head requests changes and says which. -/
def RequestsChanges : Prop :=
  ∃ rs, review = .found rs ∧ s.reviewFeedbackEnabled = true ∧ rs.state = "CHANGES_REQUESTED" ∧
    isStale prHeadSha rs = false ∧ ¬ (rs.comments = [] ∧ strip (rs.body.getD "") = "")

/-- Requested changes send the ticket to be revised; without any, nothing happens. -/
theorem reviewChangesRequestedOutcome_spec :
    (RequestsChanges s review prHeadSha ∧
        ∃ feedback note, reviewChangesRequestedOutcome s review prHeadSha a =
          ({ a with reviewFeedbackJson := feedback },
            some { nextState := .addressingReview, note := note })) ∨
      (¬ RequestsChanges s review prHeadSha ∧
        reviewChangesRequestedOutcome s review prHeadSha a = (a, none)) := by
  unfold reviewChangesRequestedOutcome
  cases review with
  | raised => exact .inr ⟨fun ⟨rs, heq, _⟩ => (by cases heq), rfl⟩
  | nothing => exact .inr ⟨fun ⟨rs, heq, _⟩ => (by cases heq), rfl⟩
  | found rs =>
    dsimp only
    by_cases hquiet : s.reviewFeedbackEnabled = false ∨ rs.state ≠ "CHANGES_REQUESTED" ∨ isStale prHeadSha rs
    · rw [if_pos hquiet]
      refine .inr ⟨?_, rfl⟩
      rintro ⟨rs', heq, hflag, hstate, hstale, -⟩
      obtain rfl : rs = rs' := Answer.found.inj heq
      rcases hquiet with h | h | h
      · rw [hflag] at h
        cases h
      · exact h hstate
      · rw [hstale] at h
        cases h
    · rw [if_neg hquiet]
      obtain ⟨hflag, hstate, hstale⟩ : s.reviewFeedbackEnabled = true ∧ rs.state = "CHANGES_REQUESTED" ∧
          isStale prHeadSha rs = false := by
        simpa [not_or] using hquiet
      by_cases hempty : rs.comments = [] ∧ strip (rs.body.getD "") = ""
      · rw [if_pos hempty]
        refine .inr ⟨?_, rfl⟩
        rintro ⟨rs', heq, -, -, -, hsays⟩
        obtain rfl : rs = rs' := Answer.found.inj heq
        exact hsays hempty
      · rw [if_neg hempty]
        exact .inl ⟨⟨rs, rfl, hflag, hstate, hstale, hempty⟩, _, _, rfl⟩

end Requested

/-! ## The revision -/

/-- What one revision finds around it. -/
structure RevisionContext where
  hasClone : Bool := true
  /-- `reconcile_with_remote_pr` reports `DIVERGED`. -/
  diverged : Bool := false
  /-- The agent reports `DONE`. -/
  ok : Bool := true
  /-- The local head is the one on the remote. -/
  nothingToPush : Bool := false
  /-- The error of `push_with_lease`. -/
  pushError : Option String := none

section Revision

variable (s : Settings) (ctx : RevisionContext) (a : Artifacts)

/-- `_run_review_revision`. -/
def runReviewRevision : Artifacts × StageOutcome :=
  if ctx.hasClone = false then
    (a, .block ("Review feedback received but workspace clone is missing; " ++
      "cannot implement changes. Re-run implement to recreate the clone."))
  else
    match a.reviewFeedbackJson with
    | .absent =>
      (a, { nextState := .humanMrApproval
            note := some "review_feedback.json artifact missing — re-polling from human_mr_approval" })
    | .corrupt =>
      (a, { nextState := .humanMrApproval
            note := some "review_feedback.json corrupted — re-polling from human_mr_approval" })
    | .ok feedback =>
      if feedback.comments = [] then (a, { nextState := .humanMrApproval })
      else
        let attempt := readCounter a.reviewRevisionAttemptsTxt + 1
        let counted := { a with reviewRevisionAttemptsTxt := some (toString attempt) }
        let reset := { a with reviewRevisionAttemptsTxt := some "0" }
        if ctx.diverged then (a, .block divergedNote)
        else if ctx.ok then
          if ctx.nothingToPush then
            if attempt < s.reviewRevisionMaxAttempts then (counted, { nextState := .addressingReview })
            else
              (reset, .block ("review-revision agent succeeded but made no changes " ++
                s!"after {s.reviewRevisionMaxAttempts} attempt(s)"))
          else
            match ctx.pushError with
            | some e => (counted, .block s!"review revision succeeded but force-push failed: {e}")
            | none => (reset, { nextState := .humanMrApproval })
        else if attempt < s.reviewRevisionMaxAttempts then (counted, { nextState := .addressingReview })
        else
          (reset, .block (s!"review revision failed after {s.reviewRevisionMaxAttempts} attempt(s) — " ++
            "manual intervention required. " ++
            "Resume-blocked to retry from human_mr_approval."))

/-- A revision goes on, gives the ticket back to the human, or blocks it. -/
theorem runReviewRevision_moves : (runReviewRevision s ctx a).2.nextState ∈
    [State.addressingReview, .humanMrApproval, .blocked] := by
  unfold runReviewRevision
  split
  · exact .tail _ (.tail _ (.head _))
  · split
    · exact .tail _ (.head _)
    · exact .tail _ (.head _)
    · split
      · exact .tail _ (.head _)
      · dsimp only
        split
        · exact .tail _ (.tail _ (.head _))
        · split
          · -- the agent is done
            split
            · split
              · exact .head _
              · exact .tail _ (.tail _ (.head _))
            · split
              · exact .tail _ (.tail _ (.head _))
              · exact .tail _ (.head _)
          · split
            · exact .head _
            · exact .tail _ (.tail _ (.head _))

end Revision

end Stages
end RobotsixMill
