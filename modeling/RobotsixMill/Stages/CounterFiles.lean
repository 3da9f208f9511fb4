import RobotsixMill.Stages.MergeStage

/-!
# `Stages.CounterFiles` — the counters of the merge stage's polls

The merge stage blocks a ticket after so many polls that found no pull request, that found green checks the
forge will not promote, or that found green checks and none reported; and after so many merges the forge
rejected for now. Each of the four is counted in a file, and most of what a poll does leaves a given file alone.

- `Ceiling`, `count` — the four counters;
- `Keeps` — what leaves one alone, function by function.
-/

namespace RobotsixMill
namespace Stages
open RobotsixMill.Core Lib

/-! ## The counters -/

inductive Ceiling
  | prMissing | greenUnpromotable | emptyRollup | mergeRetry
deriving DecidableEq, Repr

/-- The file a ceiling counts in. -/
def counterFile (k : Ceiling) (a : Artifacts) : Option String :=
  match k with
  | .prMissing => a.prMissingPollsTxt
  | .greenUnpromotable => a.greenUnpromotablePollsTxt
  | .emptyRollup => a.emptyRollupPollsTxt
  | .mergeRetry => a.mergeRetryAttemptsTxt

def count (k : Ceiling) (a : Artifacts) : Int := readCounter (counterFile k a)

/-- The number at which the ticket is blocked. -/
def ceiling (s : Settings) (k : Ceiling) : Nat :=
  match k with
  | .prMissing => s.mergePrMissingMaxPolls
  | .greenUnpromotable => s.greenUnpromotableMaxPolls
  | .emptyRollup => s.emptyRollupMaxPolls
  | .mergeRetry => MERGE_MAX_RETRIES.toNat

/-! ## What leaves a counter alone -/

/-- No merge is rejected for now. -/
def NotRetryable (poll : PollContext) : Prop := ∀ reason, poll.mergePr ≠ .rejected reason true

section Keeps

variable {s : Settings} {tid : TicketId} {t : Ticket} {ctx : ApprovalContext} {k : Ceiling}

/-- The counter is as it was. -/
def Keeps (k : Ceiling) (a b : Artifacts) : Prop := counterFile k b = counterFile k a

theorem Keeps.refl (a : Artifacts) : Keeps k a a := rfl

theorem Keeps.trans {a b c : Artifacts} (h : Keeps k a b) (h' : Keeps k b c) : Keeps k a c :=
  Eq.trans h' h

/-- What a call kept, once its result is named. -/
theorem Keeps.fst {α : Type} {a b : Artifacts} {res : Artifacts × α} {x : α} (h : Keeps k a res.1)
    (hres : res = (b, x)) : Keeps k a b := by
  rw [hres] at h
  exact h

theorem Keeps.count {a b : Artifacts} (h : Keeps k a b) : count k b = count k a :=
  congrArg readCounter h

/-- An update of other files. -/
theorem Keeps.of_files {a b : Artifacts} (hmissing : b.prMissingPollsTxt = a.prMissingPollsTxt)
    (hgreen : b.greenUnpromotablePollsTxt = a.greenUnpromotablePollsTxt)
    (hempty : b.emptyRollupPollsTxt = a.emptyRollupPollsTxt)
    (hretry : b.mergeRetryAttemptsTxt = a.mergeRetryAttemptsTxt) : Keeps k a b := by
  cases k with
  | prMissing => exact hmissing
  | greenUnpromotable => exact hgreen
  | emptyRollup => exact hempty
  | mergeRetry => exact hretry

/-- The counter of missing pull requests does not matter to the others. -/
theorem Keeps.of_missing (hk : k ≠ .prMissing) {a b : Artifacts}
    (hgreen : b.greenUnpromotablePollsTxt = a.greenUnpromotablePollsTxt)
    (hempty : b.emptyRollupPollsTxt = a.emptyRollupPollsTxt)
    (hretry : b.mergeRetryAttemptsTxt = a.mergeRetryAttemptsTxt) : Keeps k a b := by
  cases k with
  | prMissing => exact absurd rfl hk
  | greenUnpromotable => exact hgreen
  | emptyRollup => exact hempty
  | mergeRetry => exact hretry

theorem checkPrBaseline_keeps (hk : k ≠ .prMissing) (poll : PollContext) (branch : String) (sameState : State)
    (a : Artifacts) : Keeps k a (checkPrBaseline s t poll branch sameState a).1 := by
  unfold checkPrBaseline
  cases poll.prStatus with
  | raised => exact .refl a
  | nothing =>
    dsimp only
    split
    · split
      · exact .refl a
      · split
        · exact .refl a
        · exact .refl a
    · split
      · exact .refl a
      · split
        · exact .of_missing hk rfl rfl rfl
        · exact .of_missing hk rfl rfl rfl
  | found pr =>
    dsimp only
    split
    · exact .of_missing hk rfl rfl rfl
    · split
      · split
        · exact .of_missing hk rfl rfl rfl
        · exact .of_missing hk rfl rfl rfl
      · exact .of_missing hk rfl rfl rfl

theorem checkPrBaselineVerifying_keeps (hk : k ≠ .prMissing) (branch : String) (sameState : State)
    (a : Artifacts) : Keeps k a (checkPrBaselineVerifying s t ctx branch sameState a).1 := by
  unfold checkPrBaselineVerifying
  split
  · split
    · exact .of_missing hk rfl rfl rfl
    · exact checkPrBaseline_keeps hk _ branch sameState a
  · exact checkPrBaseline_keeps hk _ branch sameState a

theorem mergeRejectionOutcome_keeps (reason : String) (retryable : Bool) (hk : k = .mergeRetry → retryable = false)
    (sameState : State) (a : Artifacts) :
    Keeps k a (mergeRejectionOutcome reason retryable sameState a).1 := by
  unfold mergeRejectionOutcome
  split
  · exact .refl a
  · rename_i hretry
    cases k with
    | mergeRetry => exact absurd (hk rfl) hretry
    | prMissing | greenUnpromotable | emptyRollup =>
      dsimp only
      split
      · rfl
      · rfl

theorem tryAutoMerge_keeps (hk : k = .mergeRetry → NotRetryable ctx.toPollContext) (pr : PrStatus)
    (mergeFailSameState verifyFailState : State) (a : Artifacts) :
    Keeps k a (tryAutoMerge ctx pr mergeFailSameState verifyFailState a).1 := by
  unfold tryAutoMerge
  split
  · split
    · exact .of_files rfl rfl rfl rfl
    · exact .refl a
  · rename_i reason retryable hrejected
    apply mergeRejectionOutcome_keeps
    intro hretry
    cases retryable with
    | false => rfl
    | true => exact absurd hrejected (hk hretry reason)

theorem reviewChangesRequestedOutcome_keeps (review : Answer ReviewStatus) (prHeadSha : String) (a : Artifacts) :
    Keeps k a (reviewChangesRequestedOutcome s review prHeadSha a).1 := by
  obtain ⟨-, feedback, note, heq⟩ | ⟨-, heq⟩ := reviewChangesRequestedOutcome_spec s review prHeadSha a
  · rw [heq]
    exact .of_files rfl rfl rfl rfl
  · rw [heq]
    exact .refl a

theorem trySkip_keeps (a : Artifacts) : Keeps k a (trySkipSensitivePathForApprovedDiff ctx a).1 := by
  cases skipCase ctx a with
  | held result =>
    rw [result]
    exact .refl a
  | stored hash onlyPaths current same result =>
    rw [result]
    exact .refl a
  | approved hash rs onlyPaths current other review state result =>
    rw [result]
    exact .of_files rfl rfl rfl rfl

theorem handleParkedConflict_keeps (a : Artifacts) : Keeps k a (handleParkedConflict s ctx a).1 := by
  unfold handleParkedConflict
  repeat' split
  all_goals exact .of_files rfl rfl rfl rfl

theorem handleGreenApproval_keeps (hk : k = .mergeRetry → NotRetryable ctx.toPollContext) (pr : PrStatus)
    (a : Artifacts) : Keeps k a (handleGreenApproval ctx pr a).1 := by
  unfold handleGreenApproval
  split
  · exact tryAutoMerge_keeps hk pr _ _ a
  · split
    · rename_i b hres
      exact ((trySkip_keeps a).fst hres).trans (tryAutoMerge_keeps hk pr _ _ b)
    · rename_i b hres
      exact ((trySkip_keeps a).fst hres).trans (.of_files rfl rfl rfl rfl)

theorem handleApprovalChecks_keeps (hk : k = .mergeRetry → NotRetryable ctx.toPollContext) (pr : PrStatus)
    (a : Artifacts) : Keeps k a (handleApprovalChecks ctx pr a).1 := by
  unfold handleApprovalChecks
  split
  · exact .refl a
  · split
    · exact .refl a
    · exact .refl a
    · split
      · exact .refl a
      · split
        · exact handleGreenApproval_keeps hk pr a
        · split
          · exact .refl a
          · split
            · exact .refl a
            · exact .refl a

theorem handleWaitingConflict_keeps (a : Artifacts) : Keeps k a (handleWaitingConflict s ctx a).1 := by
  unfold handleWaitingConflict
  repeat' split
  all_goals exact .of_files rfl rfl rfl rfl

theorem handleWaitingChecks_keeps (hk : k = .mergeRetry → NotRetryable ctx.toPollContext) (pr : PrStatus)
    (a : Artifacts) : Keeps k a (handleWaitingChecks ctx pr a).1 := by
  unfold handleWaitingChecks
  split
  · exact .refl a
  · exact .refl a
  · split
    · exact .refl a
    · split
      · exact tryAutoMerge_keeps hk pr _ _ a
      · split
        · split
          · exact .refl a
          · exact .refl a
        · exact .refl a

/-- A poll that waits for a human counts in the preamble and in the merge only. -/
theorem handleHumanMrApproval_keeps (hk : k = .mergeRetry → NotRetryable ctx.toPollContext) (a : Artifacts) :
    Keeps k (checkPrBaseline s t ctx.toPollContext (branchOf s tid t) .humanMrApproval a).1
      (handleHumanMrApproval s tid t ctx a).1 := by
  unfold handleHumanMrApproval
  split
  · rename_i hbase
    rw [hbase]
    exact .refl _
  · rename_i b pr hbase
    rw [hbase]
    split
    · exact .refl b
    · split
      · rename_i hres
        exact (reviewChangesRequestedOutcome_keeps _ _ b).fst hres
      · rename_i c hres
        refine ((reviewChangesRequestedOutcome_keeps _ _ b).fst hres).trans ?_
        split
        · exact handleParkedConflict_keeps c
        · exact Keeps.trans (.of_files rfl rfl rfl rfl) (handleApprovalChecks_keeps hk pr _)

/-- So does a poll that waits for the checks. -/
theorem pollWaitingAutoMerge_keeps (hk : k = .mergeRetry → NotRetryable ctx.toPollContext) (a : Artifacts) :
    Keeps k (checkPrBaselineVerifying s t ctx (branchOf s tid t) .waitingAutoMerge a).1
      (pollWaitingAutoMerge s tid t ctx a).1 := by
  unfold pollWaitingAutoMerge
  split
  · rename_i hbase
    rw [hbase]
    exact .refl _
  · rename_i b pr hbase
    rw [hbase]
    split
    · exact .refl b
    · split
      · exact handleWaitingConflict_keeps b
      · split
        · rename_i hres
          exact (reviewChangesRequestedOutcome_keeps _ _ b).fst hres
        · rename_i c hres
          exact ((reviewChangesRequestedOutcome_keeps _ _ b).fst hres).trans (handleWaitingChecks_keeps hk pr c)

theorem checkPingPong_keeps (routingTo : String) (a : Artifacts) :
    Keeps k a (checkPingPong s tid routingTo a).1 := by
  unfold checkPingPong
  split
  · exact .refl a
  · split
    · dsimp only
      split
      · exact .of_files rfl rfl rfl rfl
      · exact .of_files rfl rfl rfl rfl
    · exact .of_files rfl rfl rfl rfl

theorem handleCiFailureRoute_keeps (poll : PollContext) (status : CiStatus) (a : Artifacts) :
    Keeps k a (handleCiFailureRoute s tid t poll status a).1 := by
  unfold handleCiFailureRoute
  dsimp only
  split
  · exact .refl a
  · split
    · exact .refl a
    · split
      · exact .of_files rfl rfl rfl rfl
      · have hcounted : Keeps k a
            { a with autoFixCyclesTxt := some (toString (readCounter a.autoFixCyclesTxt + 1)) } :=
          .of_files rfl rfl rfl rfl
        split
        · rename_i hres
          exact hcounted.trans ((checkPingPong_keeps "ci_fix" _).fst hres)
        · rename_i hres
          exact hcounted.trans ((checkPingPong_keeps "ci_fix" _).fst hres)

theorem mergeOrPromoteWhenGreen_keeps {poll : PollContext} (hk : k = .mergeRetry → NotRetryable poll)
    (pr : PrStatus) (a : Artifacts) : Keeps k a (mergeOrPromoteWhenGreen poll pr a).1 := by
  unfold mergeOrPromoteWhenGreen
  dsimp only
  split
  · exact .of_files rfl rfl rfl rfl
  · split
    · split
      · exact .of_files rfl rfl rfl rfl
      · exact .of_files rfl rfl rfl rfl
    · rename_i reason retryable hrejected
      refine Keeps.trans (.of_files rfl rfl rfl rfl) (mergeRejectionOutcome_keeps reason retryable ?_ _ _)
      intro hretry
      cases retryable with
      | false => rfl
      | true => exact absurd hrejected (hk hretry reason)

/-! ### Rebases and revisions -/

theorem afterVerifiedPush_keeps (rebase : RebaseContext) (attempt : Int) (a : Artifacts) :
    Keeps k a (afterVerifiedPush s rebase attempt a).1 := by
  unfold afterVerifiedPush
  dsimp only
  split
  · exact .of_files rfl rfl rfl rfl
  · split
    · split
      · split
        · exact .of_files rfl rfl rfl rfl
        · exact .of_files rfl rfl rfl rfl
      · exact .of_files rfl rfl rfl rfl
    · split
      · exact .of_files rfl rfl rfl rfl
      · split
        · exact .of_files rfl rfl rfl rfl
        · exact .of_files rfl rfl rfl rfl

theorem handleRebaseSuccess_keeps (rebase : RebaseContext) (attempt : Int) (a : Artifacts) :
    Keeps k a (handleRebaseSuccess s rebase attempt a).1 := by
  unfold handleRebaseSuccess
  dsimp only
  split
  · split
    · exact .of_files rfl rfl rfl rfl
    · exact Keeps.trans (.of_files rfl rfl rfl rfl) (afterVerifiedPush_keeps rebase attempt _)
    · exact afterVerifiedPush_keeps rebase attempt a
  · exact .of_files rfl rfl rfl rfl
  · exact .of_files rfl rfl rfl rfl
  · exact .refl a

/-- A rebase counts its own attempts only. -/
theorem runRebase_keeps (rebase : RebaseContext) (a : Artifacts) : Keeps k a (runRebase s rebase a).1 := by
  unfold runRebase
  split
  · exact .of_files rfl rfl rfl rfl
  · unfold handleConflict
    dsimp only
    split
    · exact .refl a
    · split
      · exact .refl a
      · split
        · exact handleRebaseSuccess_keeps rebase _ a
        · unfold handleRebaseFailure
          split
          · exact .of_files rfl rfl rfl rfl
          · exact .of_files rfl rfl rfl rfl

/-- So does a revision. -/
theorem runReviewRevision_keeps (revision : RevisionContext) (a : Artifacts) :
    Keeps k a (runReviewRevision s revision a).1 := by
  unfold runReviewRevision
  split
  · exact .refl a
  · split
    · exact .refl a
    · exact .refl a
    · split
      · exact .refl a
      · dsimp only
        split
        · exact .refl a
        · split
          · split
            · split
              · exact .of_files rfl rfl rfl rfl
              · exact .of_files rfl rfl rfl rfl
            · split
              · exact .of_files rfl rfl rfl rfl
              · exact .of_files rfl rfl rfl rfl
          · split
            · exact .of_files rfl rfl rfl rfl
            · exact .of_files rfl rfl rfl rfl

/-! ### Several repositories -/

theorem writeRepoCounter_keeps (name : String) (n : Int) (a : Artifacts) :
    Keeps k a (writeRepoCounter a name n) := .of_files rfl rfl rfl rfl

theorem surveyRepos_keeps (pairs : List (PrEntry × RepoAnswers)) (a : Artifacts) :
    Keeps k a (surveyRepos pairs a).1 := by
  induction pairs generalizing a with
  | nil => exact .refl a
  | cons x rest ih =>
    obtain ⟨e, r⟩ := x
    rw [surveyRepos]
    by_cases hknown : r.known = false
    · rw [if_pos hknown]
      exact .refl a
    · rw [if_neg hknown]
      have hhead : Keeps k a
          (if repoStatus e r = .green then writeRepoCounter a (ciFixCycles e.repoId) 0 else a) := by
        split
        · exact writeRepoCounter_keeps _ _ a
        · exact .refl a
      dsimp only
      split
      · rename_i hres
        exact hhead.trans ((ih _).fst hres)
      · rename_i hres
        exact hhead.trans ((ih _).fst hres)

theorem settleRecovery_keeps (what counter repoId : String) (attempt : Int) (run : RecoveryRun) (a : Artifacts) :
    Keeps k a (settleRecovery t what counter repoId attempt run a).1 := by
  unfold settleRecovery
  dsimp only
  split
  · exact .refl a
  · split
    · split
      · exact writeRepoCounter_keeps _ _ a
      · split
        · exact writeRepoCounter_keeps _ _ a
        · exact writeRepoCounter_keeps _ _ a
        · exact writeRepoCounter_keeps _ _ a
    · exact writeRepoCounter_keeps _ _ a

theorem multiRepoRebase_keeps (r : Surveyed) (a : Artifacts) : Keeps k a (multiRepoRebase s t r a).1 := by
  unfold multiRepoRebase
  split
  · exact .refl a
  · dsimp only
    split
    · exact writeRepoCounter_keeps _ _ a
    · exact settleRecovery_keeps _ _ _ _ _ a

theorem tryMultiCodeqlFpTriage_keeps (failing : List FailingCheck) (run : CiFixRun) (a : Artifacts) :
    Keeps k a (tryMultiCodeqlFpTriage s t failing run a).1 := by
  unfold tryMultiCodeqlFpTriage
  split
  · exact .refl a
  · dsimp only
    split
    · exact .of_files rfl rfl rfl rfl
    · exact .of_files rfl rfl rfl rfl

theorem attemptCiFix_keeps (r : Surveyed) (failed : Bool) (failing : List FailingCheck) (a : Artifacts) :
    Keeps k a (attemptCiFix s t r failed failing a).1 := by
  unfold attemptCiFix
  dsimp only
  split
  · exact writeRepoCounter_keeps _ _ a
  · split
    · split
      · split
        · rename_i hres
          exact (writeRepoCounter_keeps _ _ a).trans ((tryMultiCodeqlFpTriage_keeps _ _ _).fst hres)
        · rename_i hres
          exact (writeRepoCounter_keeps _ _ a).trans ((tryMultiCodeqlFpTriage_keeps _ _ _).fst hres)
      · exact (writeRepoCounter_keeps _ _ a).trans (settleRecovery_keeps _ _ _ _ _ _)
    · exact settleRecovery_keeps _ _ _ _ _ a

theorem multiRepoFixCi_keeps (r : Surveyed) (a : Artifacts) : Keeps k a (multiRepoFixCi s t r a).1 := by
  unfold multiRepoFixCi
  dsimp only
  split
  · exact .refl a
  · split
    · exact .refl a
    · split
      · exact writeRepoCounter_keeps _ _ a
      · split
        · split
          · exact .refl a
          · split
            · rename_i hres
              exact (tryMultiCodeqlFpTriage_keeps _ _ a).fst hres
            · rename_i hres
              exact ((tryMultiCodeqlFpTriage_keeps _ _ a).fst hres).trans (attemptCiFix_keeps r true _ _)
        · exact attemptCiFix_keeps r false _ a

theorem requestedChanges_keeps (green : List Surveyed) (a : Artifacts) :
    Keeps k a (requestedChanges s green a).1 := by
  induction green generalizing a with
  | nil => exact .refl a
  | cons r rest ih =>
    rw [requestedChanges]
    split
    · rename_i hres
      exact (reviewChangesRequestedOutcome_keeps _ _ a).fst hres
    · rename_i hres
      exact ((reviewChangesRequestedOutcome_keeps _ _ a).fst hres).trans (ih _)

theorem multiRepoAutoMerge_keeps (multiRepo : MultiRepoContext) (green : List Surveyed) (a : Artifacts) :
    Keeps k a (multiRepoAutoMerge s t multiRepo green a).1 := by
  unfold multiRepoAutoMerge
  split
  · rename_i hres
    exact (requestedChanges_keeps green a).fst hres
  · rename_i hres
    split
    · exact (requestedChanges_keeps green a).fst hres
    · exact (requestedChanges_keeps green a).fst hres

end Keeps

end Stages
end RobotsixMill
