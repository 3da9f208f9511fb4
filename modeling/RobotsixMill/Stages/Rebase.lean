import RobotsixMill.Stages.MergePoll

/-!
# `Stages.Rebase` — a rebase of the merge stage

`_run_rebase`: what the merge stage does with a ticket in `rebasing`. A pull request that is clean by now
is left alone; otherwise the branch is rebased and pushed, mechanically or by the rebase agent, and the
result is checked. What git, the forge and the agent answer is in `RebaseContext`. Attempts are counted in
`rebase_attempts.txt`; only a failed rebase, and one after which the pull request still conflicts, counts.

- `runRebase` — the rebase, with its outcome and the artifacts it leaves;
- `runRebase_sameLoopFiles` — it touches none of the files the merge poll counts its dispatches in.
-/

namespace RobotsixMill
namespace Stages
open RobotsixMill.Core Lib

/-- `PostPushResult`. -/
inductive PostPushResult
  | pass | notLanded | foreignDivergence | unavailable
deriving DecidableEq, Repr

/-- `check_rebase_diff_integrity`: not asked, passed, or failed on these files, which the rebase dropped or
    a sibling superseded. -/
inductive DiffIntegrity
  | skipped
  | passed
  | failed (dropped siblingLikely : List String)
deriving DecidableEq, Repr

/-- What one rebase finds around it. -/
structure RebaseContext where
  /-- `pr_status` before the rebase; an error counts as no answer. -/
  prBefore : Option PrStatus := none
  hasClone : Bool := true
  /-- `reconcile_with_remote_pr` reports `DIVERGED`. -/
  diverged : Bool := false
  /-- The rebase went through, mechanically or by the agent. -/
  ok : Bool := true
  /-- The summary of the agent. -/
  detail : String := ""
  conflictedFiles : List String := []
  targetBranch : String := "main"
  postPush : PostPushResult := .pass
  integrity : DiffIntegrity := .skipped
  /-- `pr_status` after the push; an error counts as no answer. -/
  prAfter : Option PrStatus := none
  /-- `_auto_merge_eligible`: the reason when the ticket is not. -/
  ineligible : Option String := none

/-- Mergeable, and every required check passed. -/
def isClean (pr : PrStatus) : Bool :=
  decide (pr.mergeable = some true) && decide (pr.mergeableState = some "clean")

/-- The first ten files, and how many more there are. -/
def shownFiles (files : List String) : String :=
  let shown := ", ".intercalate ((files.take 10).map fun p => "`" ++ p ++ "`")
  let more := files.length - 10
  if 10 < files.length then s!"{shown} (+{more} more)" else shown

/-- `_write_dropped_files`. -/
def droppedFilesText (files : List String) : String := "\n".intercalate files ++ "\n"

section Rebase

variable (s : Settings) (ctx : RebaseContext)

def droppedNote (dropped : List String) : String :=
  s!"rebase succeeded but {dropped.length} implement-stage " ++
    "file(s) are absent from the post-rebase diff: " ++
    s!"{shownFiles dropped}. Either the rebase agent discarded " ++
    "the change, or the target already carries it in a " ++
    "form this check cannot recognise (it compares bytes, " ++
    "not meaning).\n" ++
    "Do NOT resume to retry — a retry re-runs the same " ++
    "rebase against the same target and reproduces the " ++
    "same result; tickets blocked this way have " ++
    "accumulated 5-7 identical blocks.\n" ++
    "Decide it instead, per file:\n" ++
    s!"  git show origin/{ctx.targetBranch}:<path>\n" ++
    "  - target already has the change (or an equivalent): " ++
    "the delta is superseded — close the ticket.\n" ++
    "  - target lacks it: the drop is real — restore the " ++
    "file on the branch and push."

def supersededNote (siblingLikely : List String) : String :=
  s!"rebase succeeded but {siblingLikely.length} file(s) may " ++
    s!"have been superseded by a sibling PR: {shownFiles siblingLikely}. " ++
    "The target branch changed these files during the " ++
    "rebase, so the agent took the sibling's version. " ++
    "A retry cannot change that — decide whether the " ++
    "sibling's version already covers this PR's intent: " ++
    "if it does, close the ticket as superseded; if it " ++
    "does not, re-apply the missing delta on the branch " ++
    "and push."

/-- `_handle_rebase_success` once the push is verified and no file was dropped. -/
def afterVerifiedPush (attempt : Int) (a : Artifacts) : Artifacts × StageOutcome :=
  let fromState := strip (a.rebaseFromStateTxt.getD "")
  let a := { a with rebaseFromStateTxt := none }
  let reset := { a with rebaseAttemptsTxt := some "0" }
  match ctx.prAfter with
  | none => (reset, { nextState := .ready })
  | some pr =>
    if isClean pr then
      if fromState = State.humanMrApproval.value ∨ fromState = State.waitingAutoMerge.value then
        match ctx.ineligible with
        | none =>
          (reset, { nextState := .waitingAutoMerge
                    note := some "rebase succeeded; resuming autonomous merge monitoring" })
        | some reason =>
          (reset, { nextState := .humanMrApproval, note := some s!"rebase succeeded but {reason}" })
      else (reset, .repoll)
    else if pr.mergeable = none then (a, .repoll)
    else if attempt < s.rebaseMaxAttempts then
      ({ a with rebaseAttemptsTxt := some (toString attempt) }, .repoll)
    else
      (reset, .block (s!"rebased and pushed {s.rebaseMaxAttempts}x but GitHub " ++
        "still reports the PR conflicting — the local clone's " ++
        "base is likely stale or the conflict is unresolvable " ++
        "automatically. Resume-blocked to retry from human_mr_approval."))

/-- `_handle_rebase_success`. -/
def handleRebaseSuccess (attempt : Int) (a : Artifacts) : Artifacts × StageOutcome :=
  let counted := { a with rebaseAttemptsTxt := some (toString attempt) }
  match ctx.postPush with
  | .pass =>
    match ctx.integrity with
    | .failed dropped siblingLikely =>
      let note := if dropped ≠ [] then droppedNote ctx dropped else supersededNote siblingLikely
      ({ a with
          rebaseAttemptsTxt := some "0"
          rebaseDroppedFilesTxt := some (droppedFilesText (dropped ++ siblingLikely)) },
        .block note)
    | .passed => afterVerifiedPush s ctx attempt { a with rebaseDroppedFilesTxt := none }
    | .skipped => afterVerifiedPush s ctx attempt a
  | .notLanded =>
    (counted, .block ("rebase agent reported DONE but the push did not land " ++
      "(remote HEAD != local HEAD). The agent may have hit a " ++
      "lease rejection it could not recover from. " ++
      "Resume-blocked to retry from human_mr_approval."))
  | .foreignDivergence =>
    (counted, .block ("rebase agent reported DONE but the remote branch carries " ++
      "foreign-authored commits — a human likely pushed to the PR " ++
      "branch. Manual reconciliation required. " ++
      "Resume-blocked to retry from human_mr_approval."))
  | .unavailable => (a, .repoll)

/-- `_handle_rebase_failure`. -/
def handleRebaseFailure (attempt : Int) (a : Artifacts) : Artifacts × StageOutcome :=
  if attempt < s.rebaseMaxAttempts then
    ({ a with rebaseAttemptsTxt := some (toString attempt) }, { nextState := .rebasing })
  else
    let conflicts := if ctx.conflictedFiles = [] then []
      else [s!"Conflicting file(s): {shownFiles ctx.conflictedFiles}."]
    let agent := if ctx.detail = "" then [] else [s!"Rebase agent: {strip ctx.detail}"]
    ({ a with rebaseAttemptsTxt := some "0" },
      .block (" ".intercalate ([s!"rebase failed after {s.rebaseMaxAttempts} attempt(s)."] ++ conflicts ++
        agent ++ ["Manual conflict resolution required. " ++
          "Resume-blocked to retry from human_mr_approval."])))

/-- `_handle_conflict`. -/
def handleConflict (a : Artifacts) : Artifacts × StageOutcome :=
  if ctx.hasClone = false then
    (a, .block ("PR is conflicting but workspace clone is missing; " ++
      "cannot rebase. Re-run implement to recreate the clone."))
  else
    let attempt := readCounter a.rebaseAttemptsTxt + 1
    if ctx.diverged then
      (a, .block ("PR branch diverged from the workspace clone (a human likely pushed to " ++
        "it) — manual reconciliation required. The mill refuses to " ++
        "force-push here: push_with_lease cannot protect this case " ++
        "because reconcile's own fetch already advanced the tracking " ++
        "ref to the foreign commit, so a lease push would pass its " ++
        "compare-and-swap and SILENTLY OVERWRITE that commit."))
    else if ctx.ok then handleRebaseSuccess s ctx attempt a
    else handleRebaseFailure s ctx attempt a

/-- What put the ticket here is gone. -/
def alreadyClean : Bool :=
  match ctx.prBefore with
  | some pr => decide (pr.state = "open") && isClean pr
  | none => false

/-- `_run_rebase`. -/
def runRebase (a : Artifacts) : Artifacts × StageOutcome :=
  if alreadyClean ctx then ({ a with rebaseAttemptsTxt := some "0" }, .repoll)
  else handleConflict s ctx a

/-! ## What a rebase leaves -/

theorem afterVerifiedPush_sameLoopFiles (attempt : Int) (a : Artifacts) :
    SameLoopFiles a (afterVerifiedPush s ctx attempt a).1 := by
  unfold afterVerifiedPush
  dsimp only
  split
  · exact ⟨rfl, rfl, rfl⟩
  · split
    · split
      · split
        · exact ⟨rfl, rfl, rfl⟩
        · exact ⟨rfl, rfl, rfl⟩
      · exact ⟨rfl, rfl, rfl⟩
    · split
      · exact ⟨rfl, rfl, rfl⟩
      · split
        · exact ⟨rfl, rfl, rfl⟩
        · exact ⟨rfl, rfl, rfl⟩

theorem handleRebaseSuccess_sameLoopFiles (attempt : Int) (a : Artifacts) :
    SameLoopFiles a (handleRebaseSuccess s ctx attempt a).1 := by
  unfold handleRebaseSuccess
  dsimp only
  split
  · split
    · exact ⟨rfl, rfl, rfl⟩
    · apply SameLoopFiles.trans (b := { a with rebaseDroppedFilesTxt := none })
      · exact ⟨rfl, rfl, rfl⟩
      · exact afterVerifiedPush_sameLoopFiles s ctx attempt _
    · exact afterVerifiedPush_sameLoopFiles s ctx attempt a
  · exact ⟨rfl, rfl, rfl⟩
  · exact ⟨rfl, rfl, rfl⟩
  · exact .refl a

theorem handleRebaseFailure_sameLoopFiles (attempt : Int) (a : Artifacts) :
    SameLoopFiles a (handleRebaseFailure s ctx attempt a).1 := by
  unfold handleRebaseFailure
  split
  · exact ⟨rfl, rfl, rfl⟩
  · exact ⟨rfl, rfl, rfl⟩

theorem handleConflict_sameLoopFiles (a : Artifacts) : SameLoopFiles a (handleConflict s ctx a).1 := by
  unfold handleConflict
  dsimp only
  split
  · exact .refl a
  · split
    · exact .refl a
    · split
      · exact handleRebaseSuccess_sameLoopFiles s ctx _ a
      · exact handleRebaseFailure_sameLoopFiles s ctx _ a

/-- **A rebase touches no file the merge poll counts its dispatches in.** -/
theorem runRebase_sameLoopFiles (a : Artifacts) : SameLoopFiles a (runRebase s ctx a).1 := by
  unfold runRebase
  split
  · exact ⟨rfl, rfl, rfl⟩
  · exact handleConflict_sameLoopFiles s ctx a

end Rebase

/-- A rebase that is pushed while the forge has not yet worked out whether the pull request can be merged. -/
def UNDECIDED_REBASE : RebaseContext where
  prAfter := some { mergeable := none }

/-- Such a rebase goes back to the poll, whatever the attempts. -/
theorem runRebase_undecided (s : Settings) (a : Artifacts) :
    (runRebase s UNDECIDED_REBASE a).2.nextState = .implementComplete := rfl

end Stages
end RobotsixMill
