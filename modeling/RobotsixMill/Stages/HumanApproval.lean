import Mathlib.Data.Rat.Defs
import RobotsixMill.Stages.ReviewRevision

/-!
# `Stages.HumanApproval` — the polls of a ticket that is past the checks

`_handle_human_mr_approval` polls a ticket that waits for a human, `_poll_waiting_auto_merge` one that is to
merge as soon as its checks are green. Both merge through `_try_auto_merge`, ask the forge to update a branch
that is behind or conflicts, and fall back to the rebase agent or to the poll of `implement_complete`. A call
to the forge that raises where the source does not catch it ends the poll without an outcome, and is left
out; so are comments and log lines.

- `handleHumanMrApproval`, `pollWaitingAutoMerge` — the polls;
- `handleHumanMrApproval_moves`, `pollWaitingAutoMerge_moves` — where they send the ticket.
-/

namespace RobotsixMill
namespace Stages
open RobotsixMill.Core Lib Service

/-- `update_branch`. -/
inductive UpdateResult
  | updated
  | refused (reason : String)
deriving DecidableEq, Repr

/-- What one poll past the checks finds around it. -/
structure ApprovalContext extends PollContext where
  /-- `time.time()`. -/
  now : ℚ := 0
  /-- `pr_review_status`, asked for requested changes. -/
  review : Answer ReviewStatus := .nothing
  updateBranch : UpdateResult := .updated
  /-- `_auto_merge_eligible` without the gate on sensitive paths. -/
  ineligibleOtherwise : Option String := none
  /-- `_compute_pr_diff_hash`. -/
  diffHash : Option String := none
  /-- `pr_review_status`, asked for an approval. -/
  approval : Answer ReviewStatus := .nothing

/-- `_STEADY_FULL_POLL_SECONDS`. -/
def STEADY_FULL_POLL_SECONDS : ℚ := 900

/-- `_pr_fingerprint`. -/
def prFingerprint (pr : PrStatus) : String :=
  let mergeable := match pr.mergeable with
    | none => "None"
    | some b => boolStr b
  pr.sha ++ "|" ++ mergeable ++ "|" ++ pr.mergeableState.getD "None"

section Approval

variable (s : Settings) (tid : TicketId) (t : Ticket) (ctx : ApprovalContext)

/-! ## Helpers -/

/-- `_steady_state_fresh`. -/
def steadyStateFresh (a : Artifacts) (pr : PrStatus) : Bool :=
  match a.humanMrSteadyJson with
  | .ok steady =>
    decide (steady.fingerprint = prFingerprint pr) &&
      decide (0 ≤ ctx.now - steady.at_ ∧ ctx.now - steady.at_ < STEADY_FULL_POLL_SECONDS)
  | _ => false

/-- `_check_pr_baseline` with `verify_merge`: a merge that git does not confirm is looked into. -/
def checkPrBaselineVerifying (branch : String) (sameState : State) (a : Artifacts) :
    Artifacts × Except StageOutcome PrStatus :=
  match ctx.prStatus with
  | .found pr =>
    if pr.merged ∧ ctx.mergeConfirmed = false then
      ({ a with prMissingPollsTxt := some "0" },
        .error { nextState := .implementComplete
                 note := some ("PR reported merged but merge not confirmed on " ++
                  s!"origin/{ctx.targetBranch}: {pr.url}") })
    else checkPrBaseline s t ctx.toPollContext branch sameState a
  | _ => checkPrBaseline s t ctx.toPollContext branch sameState a

/-- `_try_auto_merge`. -/
def tryAutoMerge (pr : PrStatus) (mergeFailSameState verifyFailState : State) (a : Artifacts) :
    Artifacts × StageOutcome :=
  match ctx.mergePr with
  | .merged =>
    if ctx.mergeConfirmed then
      ({ a with mergeMd := some s!"auto-merged: {pr.url}\n" },
        { nextState := .done, note := some s!"auto-merged: {pr.url}" })
    else
      (a, { nextState := verifyFailState
            note := some ("auto-merge reported success but merge not confirmed on " ++
              s!"origin/{ctx.targetBranch}") })
  | .rejected reason retryable => mergeRejectionOutcome reason retryable mergeFailSameState a

/-- `_handle_behind_target`. -/
def handleBehindTarget : StageOutcome :=
  match ctx.updateBranch with
  | .updated => { nextState := .waitingAutoMerge }
  | .refused reason =>
    if ctx.withinRebaseCooldown then { nextState := .humanMrApproval }
    else
      { nextState := .implementComplete
        note := some s!"branch behind target; update-branch failed: {reason}" }

/-- `_try_update_branch_for_conflict`. -/
def tryUpdateBranchForConflict : Bool := decide (ctx.updateBranch = .updated)

/-- `_try_skip_sensitive_path_for_approved_diff`. -/
def trySkipSensitivePathForApprovedDiff (a : Artifacts) : Artifacts × Bool :=
  if ctx.ineligibleOtherwise ≠ none then (a, false)
  else
    match ctx.diffHash with
    | none => (a, false)
    | some currentHash =>
      if a.approvedDiffHashTxt.map strip = some currentHash then (a, true)
      else
        match ctx.approval with
        | .raised | .nothing => (a, false)
        | .found rs =>
          if rs.state ≠ "APPROVED" then (a, false)
          else ({ a with approvedDiffHashTxt := some currentHash }, true)

/-- What the skip of the gate on paths does: nothing, or it waives the gate, on the stored hash or on an approval. -/
inductive SkipCase (a : Artifacts) : Prop
  | held (result : trySkipSensitivePathForApprovedDiff ctx a = (a, false))
  | stored (hash : String) (onlyPaths : ctx.ineligibleOtherwise = none) (current : ctx.diffHash = some hash)
      (same : a.approvedDiffHashTxt.map strip = some hash)
      (result : trySkipSensitivePathForApprovedDiff ctx a = (a, true))
  | approved (hash : String) (rs : ReviewStatus) (onlyPaths : ctx.ineligibleOtherwise = none)
      (current : ctx.diffHash = some hash) (other : a.approvedDiffHashTxt.map strip ≠ some hash)
      (review : ctx.approval = .found rs) (state : rs.state = "APPROVED")
      (result : trySkipSensitivePathForApprovedDiff ctx a = ({ a with approvedDiffHashTxt := some hash }, true))

theorem skipCase (a : Artifacts) : SkipCase ctx a := by
  by_cases hother : ctx.ineligibleOtherwise ≠ none
  · exact .held (by rw [trySkipSensitivePathForApprovedDiff, if_pos hother])
  · cases hhash : ctx.diffHash with
    | none => exact .held (by rw [trySkipSensitivePathForApprovedDiff, if_neg hother, hhash])
    | some hash =>
      by_cases hsame : a.approvedDiffHashTxt.map strip = some hash
      · refine .stored hash (not_not.1 hother) hhash hsame ?_
        rw [trySkipSensitivePathForApprovedDiff, if_neg hother, hhash]
        dsimp only
        rw [if_pos hsame]
      · cases hreview : ctx.approval with
        | raised =>
          apply SkipCase.held
          rw [trySkipSensitivePathForApprovedDiff, if_neg hother, hhash, hreview]
          dsimp only
          rw [if_neg hsame]
        | nothing =>
          apply SkipCase.held
          rw [trySkipSensitivePathForApprovedDiff, if_neg hother, hhash, hreview]
          dsimp only
          rw [if_neg hsame]
        | found rs =>
          by_cases hstate : rs.state = "APPROVED"
          · refine .approved hash rs (not_not.1 hother) hhash hsame hreview hstate ?_
            rw [trySkipSensitivePathForApprovedDiff, if_neg hother, hhash, hreview]
            dsimp only
            rw [if_neg hsame, if_neg (fun h => h hstate)]
          · apply SkipCase.held
            rw [trySkipSensitivePathForApprovedDiff, if_neg hother, hhash, hreview]
            dsimp only
            rw [if_neg hsame, if_pos hstate]

/-! ## Waiting for a human -/

/-- `_handle_human_mr_approval` on a pull request that conflicts. -/
def handleParkedConflict (a : Artifacts) : Artifacts × StageOutcome :=
  if tryUpdateBranchForConflict ctx then (a, { nextState := .humanMrApproval })
  else if s.autonomousRebaseEnabled = false then
    if ctx.withinRebaseCooldown then (a, { nextState := .humanMrApproval })
    else
      (a, { nextState := .implementComplete
            note := some "PR is now conflicting; gates no longer pass" })
  else if ctx.withinRebaseCooldown then (a, { nextState := .humanMrApproval })
  else
    ({ a with rebaseFromStateTxt := some State.humanMrApproval.value },
      { nextState := .rebasing
        note := some "PR is now conflicting; rebasing automatically" })

/-- `_handle_human_mr_approval` once the checks are green. -/
def handleGreenApproval (pr : PrStatus) (a : Artifacts) : Artifacts × StageOutcome :=
  match ctx.ineligible with
  | none => tryAutoMerge ctx pr .implementComplete .humanMrApproval a
  | some _ =>
    match trySkipSensitivePathForApprovedDiff ctx a with
    | (a, true) => tryAutoMerge ctx pr .implementComplete .humanMrApproval a
    | (a, false) =>
      ({ a with humanMrSteadyJson := .ok ⟨prFingerprint pr, ctx.now⟩ }, { nextState := .humanMrApproval })

/-- `_handle_human_mr_approval` from the checks on. -/
def handleApprovalChecks (pr : PrStatus) (a : Artifacts) : Artifacts × StageOutcome :=
  if ctx.skipCi then (a, { nextState := .humanMrApproval })
  else
    match ctx.checkStatus with
    | .raised | .nothing => (a, { nextState := .humanMrApproval })
    | .found status =>
      if status.conclusion = some "failure" then
        (a, { nextState := .implementComplete, note := some "CI is failing; gates no longer pass" })
      else if ciTrulyGreen status.conclusion pr then handleGreenApproval ctx pr a
      else if status.conclusion = some "success" ∧ pr.mergeableState = some "behind" then
        (a, handleBehindTarget ctx)
      else if ctx.ineligible = none then (a, { nextState := .waitingAutoMerge })
      else (a, { nextState := .humanMrApproval })

/-- `_handle_human_mr_approval`. -/
def handleHumanMrApproval (a : Artifacts) : Artifacts × StageOutcome :=
  match checkPrBaseline s t ctx.toPollContext (branchOf s tid t) .humanMrApproval a with
  | (a, .error outcome) => (a, outcome)
  | (a, .ok pr) =>
    if steadyStateFresh ctx a pr then (a, { nextState := .humanMrApproval })
    else
      match reviewChangesRequestedOutcome s ctx.review pr.sha a with
      | (a, some outcome) => (a, outcome)
      | (a, none) =>
        if pr.mergeable = some false then handleParkedConflict s ctx a
        else handleApprovalChecks ctx pr { a with rebaseAttemptsTxt := some "0" }

/-! ## Waiting for the checks -/

/-- `_poll_waiting_auto_merge` on a pull request that conflicts. -/
def handleWaitingConflict (a : Artifacts) : Artifacts × StageOutcome :=
  if tryUpdateBranchForConflict ctx then (a, { nextState := .waitingAutoMerge })
  else if s.autonomousRebaseEnabled = false then
    (a, { nextState := .implementComplete
          note := some "PR is now conflicting; gates no longer pass" })
  else
    ({ a with rebaseFromStateTxt := some State.waitingAutoMerge.value },
      { nextState := .rebasing
        note := some "PR is now conflicting; rebasing automatically" })

/-- `_poll_waiting_auto_merge` from the checks on. -/
def handleWaitingChecks (pr : PrStatus) (a : Artifacts) : Artifacts × StageOutcome :=
  match ctx.checkStatus with
  | .raised | .nothing => (a, { nextState := .waitingAutoMerge })
  | .found status =>
    if status.conclusion = some "failure" then
      (a, { nextState := .implementComplete, note := some "CI failed; gates no longer pass" })
    else if ciTrulyGreen status.conclusion pr then
      tryAutoMerge ctx pr .waitingAutoMerge .implementComplete a
    else if status.conclusion = some "success" ∧ pr.mergeableState = some "behind" then
      match ctx.updateBranch with
      | .updated => (a, { nextState := .waitingAutoMerge })
      | .refused reason =>
        (a, { nextState := .implementComplete
              note := some s!"branch behind target; update-branch failed: {reason}" })
    else (a, { nextState := .waitingAutoMerge })

/-- `_poll_waiting_auto_merge`. -/
def pollWaitingAutoMerge (a : Artifacts) : Artifacts × StageOutcome :=
  match checkPrBaselineVerifying s t ctx (branchOf s tid t) .waitingAutoMerge a with
  | (a, .error outcome) => (a, outcome)
  | (a, .ok pr) =>
    match ctx.ineligible with
    | some reason => (a, { nextState := .humanMrApproval, note := some reason })
    | none =>
      if pr.mergeable = some false then handleWaitingConflict s ctx a
      else
        match reviewChangesRequestedOutcome s ctx.review pr.sha a with
        | (a, some outcome) => (a, outcome)
        | (a, none) => handleWaitingChecks ctx pr a

/-! ## Where the polls lead -/

/-- The preamble keeps the ticket where it is, blocks it, or finishes it. -/
theorem checkPrBaseline_moves (poll : PollContext) (branch : String) (sameState : State) (a : Artifacts)
    (outcome : StageOutcome) (h : (checkPrBaseline s t poll branch sameState a).2 = .error outcome) :
    outcome.nextState ∈ [sameState, State.blocked, .done] := by
  revert h
  unfold checkPrBaseline
  cases poll.prStatus with
  | raised =>
    intro h
    cases h
    exact .head _
  | nothing =>
    dsimp only
    intro h
    split at h
    · split at h
      · cases h
        exact .tail _ (.head _)
      · split at h
        · cases h
          exact .tail _ (.head _)
        · cases h
          exact .head _
    · split at h
      · cases h
        exact .head _
      · split at h
        · cases h
          exact .tail _ (.head _)
        · cases h
          exact .head _
  | found pr =>
    dsimp only
    intro h
    split at h
    · cases h
      exact .tail _ (.tail _ (.head _))
    · split at h
      · split at h
        · cases h
          exact .tail _ (.tail _ (.head _))
        · cases h
          exact .tail _ (.head _)
      · cases h

theorem mergeRejectionOutcome_moves (reason : String) (retryable : Bool) (sameState : State) (a : Artifacts) :
    (mergeRejectionOutcome reason retryable sameState a).2.nextState ∈ [sameState, State.blocked] := by
  unfold mergeRejectionOutcome
  split
  · exact .tail _ (.head _)
  · dsimp only
    split
    · exact .tail _ (.head _)
    · exact .head _

theorem tryAutoMerge_moves (pr : PrStatus) (mergeFailSameState verifyFailState : State) (a : Artifacts) :
    (tryAutoMerge ctx pr mergeFailSameState verifyFailState a).2.nextState ∈
      [mergeFailSameState, verifyFailState, State.blocked, .done] := by
  unfold tryAutoMerge
  split
  · split
    · exact .tail _ (.tail _ (.tail _ (.head _)))
    · exact .tail _ (.head _)
  · rename_i reason retryable _
    have hmoves := mergeRejectionOutcome_moves reason retryable mergeFailSameState a
    rcases List.mem_cons.1 hmoves with h | h
    · rw [h]
      exact .head _
    · rw [List.mem_singleton.1 h]
      exact .tail _ (.tail _ (.head _))

theorem handleParkedConflict_moves (a : Artifacts) :
    (handleParkedConflict s ctx a).2.nextState ∈ allowedFrom .humanMrApproval := by
  unfold handleParkedConflict
  split
  · simp [allowedFrom, TRANSITIONS]
  · split
    · split <;> simp [allowedFrom, TRANSITIONS]
    · split <;> simp [allowedFrom, TRANSITIONS]

theorem handleGreenApproval_moves (pr : PrStatus) (a : Artifacts) :
    (handleGreenApproval ctx pr a).2.nextState ∈ allowedFrom .humanMrApproval := by
  have hmerge (b : Artifacts) : (tryAutoMerge ctx pr .implementComplete .humanMrApproval b).2.nextState ∈
      allowedFrom .humanMrApproval := by
    have hsub : ∀ st ∈ [State.implementComplete, .humanMrApproval, .blocked, .done],
        st ∈ allowedFrom .humanMrApproval := by decide
    exact hsub _ (tryAutoMerge_moves ctx pr .implementComplete .humanMrApproval b)
  unfold handleGreenApproval
  split
  · exact hmerge a
  · split
    · exact hmerge _
    · show State.humanMrApproval ∈ allowedFrom .humanMrApproval
      simp [allowedFrom, TRANSITIONS]

theorem handleApprovalChecks_moves (pr : PrStatus) (a : Artifacts) :
    (handleApprovalChecks ctx pr a).2.nextState ∈ allowedFrom .humanMrApproval := by
  unfold handleApprovalChecks
  split
  · simp [allowedFrom, TRANSITIONS]
  · split
    · simp [allowedFrom, TRANSITIONS]
    · simp [allowedFrom, TRANSITIONS]
    · split
      · simp [allowedFrom, TRANSITIONS]
      · split
        · exact handleGreenApproval_moves ctx pr a
        · split
          · -- behind the target
            unfold handleBehindTarget
            dsimp only
            split
            · simp [allowedFrom, TRANSITIONS]
            · split <;> simp [allowedFrom, TRANSITIONS]
          · split <;> simp [allowedFrom, TRANSITIONS]

/-- The review sends a ticket to be revised only. -/
theorem reviewChangesRequestedOutcome_moves {review : Answer ReviewStatus} {prHeadSha : String}
    {a b : Artifacts} {outcome : StageOutcome}
    (h : reviewChangesRequestedOutcome s review prHeadSha a = (b, some outcome)) :
    outcome.nextState = .addressingReview := by
  obtain ⟨-, feedback, note, heq⟩ | ⟨-, heq⟩ := reviewChangesRequestedOutcome_spec s review prHeadSha a
  · rw [heq] at h
    cases h
    rfl
  · rw [heq] at h
    cases h

/-- **A poll of a ticket that waits for a human makes legal moves only.** -/
theorem handleHumanMrApproval_moves (a : Artifacts) :
    (handleHumanMrApproval s tid t ctx a).2.nextState ∈ allowedFrom .humanMrApproval := by
  unfold handleHumanMrApproval
  split
  · rename_i b outcome hbase
    have hmoves := checkPrBaseline_moves s t ctx.toPollContext _ .humanMrApproval a outcome (by rw [hbase])
    have hsub : ∀ st ∈ [State.humanMrApproval, .blocked, .done], st ∈ allowedFrom .humanMrApproval := by decide
    exact hsub _ hmoves
  · split
    · simp [allowedFrom, TRANSITIONS]
    · split
      · rename_i hreview
        show _ ∈ _
        rw [reviewChangesRequestedOutcome_moves s hreview]
        simp [allowedFrom, TRANSITIONS]
      · split
        · exact handleParkedConflict_moves s ctx _
        · exact handleApprovalChecks_moves ctx _ _

theorem checkPrBaselineVerifying_moves (branch : String) (a : Artifacts) (outcome : StageOutcome)
    (h : (checkPrBaselineVerifying s t ctx branch .waitingAutoMerge a).2 = .error outcome) :
    outcome.nextState ∈ allowedFrom .waitingAutoMerge := by
  have hsub : ∀ st ∈ [State.waitingAutoMerge, .blocked, .done], st ∈ allowedFrom .waitingAutoMerge := by decide
  unfold checkPrBaselineVerifying at h
  split at h
  · split at h
    · cases h
      show State.implementComplete ∈ allowedFrom .waitingAutoMerge
      simp [allowedFrom, TRANSITIONS]
    · exact hsub _ (checkPrBaseline_moves s t _ _ _ a outcome h)
  · exact hsub _ (checkPrBaseline_moves s t _ _ _ a outcome h)

theorem handleWaitingConflict_moves (a : Artifacts) :
    (handleWaitingConflict s ctx a).2.nextState ∈ allowedFrom .waitingAutoMerge := by
  unfold handleWaitingConflict
  split
  · simp [allowedFrom, TRANSITIONS]
  · split <;> simp [allowedFrom, TRANSITIONS]

theorem handleWaitingChecks_moves (pr : PrStatus) (a : Artifacts) :
    (handleWaitingChecks ctx pr a).2.nextState ∈ allowedFrom .waitingAutoMerge := by
  unfold handleWaitingChecks
  split
  · simp [allowedFrom, TRANSITIONS]
  · simp [allowedFrom, TRANSITIONS]
  · split
    · simp [allowedFrom, TRANSITIONS]
    · split
      · have hsub : ∀ st ∈ [State.waitingAutoMerge, .implementComplete, .blocked, .done],
            st ∈ allowedFrom .waitingAutoMerge := by decide
        exact hsub _ (tryAutoMerge_moves ctx pr .waitingAutoMerge .implementComplete a)
      · split
        · split <;> simp [allowedFrom, TRANSITIONS]
        · simp [allowedFrom, TRANSITIONS]

/-- **A poll of a ticket that waits for its checks makes legal moves only.** -/
theorem pollWaitingAutoMerge_moves (a : Artifacts) :
    (pollWaitingAutoMerge s tid t ctx a).2.nextState ∈ allowedFrom .waitingAutoMerge := by
  unfold pollWaitingAutoMerge
  split
  · rename_i b outcome hbase
    exact checkPrBaselineVerifying_moves s t ctx _ a outcome (by rw [hbase])
  · split
    · show State.humanMrApproval ∈ allowedFrom .waitingAutoMerge
      simp [allowedFrom, TRANSITIONS]
    · split
      · exact handleWaitingConflict_moves s ctx _
      · split
        · rename_i hreview
          show _ ∈ _
          rw [reviewChangesRequestedOutcome_moves s hreview]
          simp [allowedFrom, TRANSITIONS]
        · exact handleWaitingChecks_moves ctx _ _

end Approval

end Stages
end RobotsixMill
