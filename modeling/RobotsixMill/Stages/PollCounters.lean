import RobotsixMill.Stages.CounterFiles
import RobotsixMill.Stages.MergeAttempt

/-!
# `Stages.PollCounters` — what one poll does to the counters

A poll observes the condition a counter is about, something else, or nothing at all; and it counts, clears the
counter or leaves it alone, in each of its branches as the branch has it.

- `observed` — what a run of the stage observes of a pull request, if it obtains its status;
- `mergeStageRun_counts`, `mergeStageRun_clears` — what the run does to a counter of polls;
- `BlocksAt.reached` — a block at a ceiling finds the counter there;
- `mergeStageRun_rejected` — the merges that are counted as rejected for now.
-/

namespace RobotsixMill
namespace Stages
open RobotsixMill.Core Lib Service

section Polls

variable (s : Settings) (tid : TicketId) (t : Ticket) (ctx : MergeStageContext) (a : Artifacts)

/-! ## What a poll observes -/

/-- There is the pull request a tracker follows instead of one for its branch. -/
def seesTracked : Bool :=
  decide (t.source = SourceKind.ORPHANED_PR_CHECK) && ctx.approval.trackedUrl.isSome &&
    ctx.approval.trackedPr.isSome

/-- Green checks that are all in, and a pull request the forge does not promote. -/
def conditionOf (pr : PrStatus) (status : CiStatus) : Option Ceiling :=
  if status.conclusion ≠ some "success" ∨ status.pending ≠ [] ∨ ciTrulyGreen status.conclusion pr ∨
      pr.mergeableState = some "behind" then none
  else if status.jobs = [] ∧ pr.mergeableState = some "blocked" ∧ 0 < s.emptyRollupMaxPolls then
    some .emptyRollup
  else some .greenUnpromotable

/-- What a run of the stage on one pull request observes; nothing, if it obtains no status. -/
def observedSingle : List (Option Ceiling) :=
  match t.state with
  | .rebasing => if ctx.rebase.prBefore.isSome || ctx.rebase.prAfter.isSome then [none] else []
  | .addressingReview => []
  | _ =>
    if t.state = .implementComplete ∧ ctx.approval.rateLimited then []
    else
      match ctx.approval.prStatus with
      | .raised => []
      | .nothing => if seesTracked t ctx then [none] else [some .prMissing]
      | .found _ => [(checksSeen s t ctx.approval a).bind fun seen => conditionOf s seen.1 seen.2]

/-- Some pull request is missing, and no other could still change. -/
def missingOnly (pairs : List (PrEntry × RepoAnswers)) : Bool :=
  pairs.any (fun x => repoStatus x.1 x.2 = .prMissing) &&
    pairs.all fun x => decide (repoStatus x.1 x.2 ∈ [RepoStatus.merged, .green, .prMissing])

/-- What a poll of the manifest observes. It asks about the entries before the first one not registered. -/
def observedMulti (multiRepo : MultiRepoContext) (entries : List PrEntry) : List (Option Ceiling) :=
  let pairs := answered multiRepo entries
  if multiRepo.rateLimited then []
  else if (pairs.takeWhile fun x => x.2.known).any fun x => lookupPr x.1 x.2 ≠ .raised then
    [if pairs.all (fun x => x.2.known) && missingOnly pairs then some .prMissing else none]
  else []

/-- What a run of the stage observes. -/
def observed : List (Option Ceiling) :=
  if ctx.forgeConfigured = false ∨ ctx.tokenError.isSome then []
  else
    match a.prUrlsJson with
    | .corrupt | .ok [] => []
    | .ok entries => observedMulti ctx.multiRepo entries
    | .absent => observedSingle s t ctx a

/-- The head whose merge the forge rejects for now. -/
def rejectedHead : Option String :=
  if ctx.forgeConfigured = false ∨ ctx.tokenError.isSome ∨ a.prUrlsJson ≠ .absent then none
  else
    match ctx.approval.mergePr with
    | .rejected _ true => (asksMerge s t ctx.approval a).map PrStatus.sha
    | _ => none

/-! ## What a poll clears -/

/-- A run on one pull request clears a counter: that of missing pull requests once one is found, the other
    two when a poll of `implement_complete` finds checks that are not green yet. -/
def ClearsSingle (k : Ceiling) : Prop :=
  match k with
  | .prMissing => t.state ∈ [State.implementComplete, .humanMrApproval, .waitingAutoMerge] ∧
      ¬ (t.state = .implementComplete ∧ ctx.approval.rateLimited = true) ∧
      ∃ pr, ctx.approval.prStatus = .found pr
  | .greenUnpromotable | .emptyRollup => t.state = .implementComplete ∧
      ∃ pr status, checksSeen s t ctx.approval a = some (pr, status) ∧ status.conclusion ≠ some "failure" ∧
        (status.conclusion ≠ some "success" ∨ (status.pending ≠ [] ∧
          ciTrulyGreen status.conclusion pr = false ∧ pr.mergeableState ≠ some "behind"))
  | .mergeRetry => False

/-- A poll of the manifest clears the counter of missing pull requests: nothing is closed, and something
    conflicts, fails or is pending. -/
def ClearsMulti (multiRepo : MultiRepoContext) (entries : List PrEntry) (k : Ceiling) : Prop :=
  k = .prMissing ∧ AsksAll multiRepo entries ∧
    (∀ x ∈ answered multiRepo entries, repoStatus x.1 x.2 ≠ .closedUnmerged) ∧
    ∃ x ∈ answered multiRepo entries, repoStatus x.1 x.2 ∈ [RepoStatus.conflicting, .failingCi, .pending]

/-- A run of the stage clears a counter. -/
def Clears (k : Ceiling) : Prop :=
  ctx.forgeConfigured = true ∧ ctx.tokenError = none ∧
    ((a.prUrlsJson = .absent ∧ ClearsSingle s t ctx a k) ∨
      ∃ e entries, a.prUrlsJson = .ok (e :: entries) ∧ ClearsMulti ctx.multiRepo (e :: entries) k)

/-- The run blocks the ticket at a ceiling of consecutive polls. -/
structure BlocksAt (k : Ceiling) : Prop where
  observes : observed s t ctx a = [some k]
  blocked : (mergeStageRun s tid t ctx a).2.nextState = .blocked
  /-- A workflow run whose approval was refused blocks an empty rollup at once. -/
  notRefused : k = .emptyRollup → ∀ runs, ctx.approval.runApproval ≠ .refused runs

/-- The run blocks the ticket because the rejections are exhausted. -/
structure Exhausts (head : String) : Prop where
  rejects : rejectedHead s t ctx a = some head
  blocked : (mergeStageRun s tid t ctx a).2.nextState = .blocked

end Polls

/-! ## What a poll does to a counter -/

/-- What a poll that observes `seen` may do to a counter. -/
inductive CountMove (k : Ceiling) (seen : List (Option Ceiling)) (a b : Artifacts) : Prop
  | kept (keeps : Keeps k a b)
  | zeroed (clearable : k ≠ .mergeRetry) (zero : count k b = 0)
  | counted (sees : seen = [some k]) (next : count k b = count k a + 1)

theorem CountMove.before {k : Ceiling} {seen : List (Option Ceiling)} {a b c : Artifacts} (h : Keeps k a b)
    (hmove : CountMove k seen b c) : CountMove k seen a c := by
  cases hmove with
  | kept keeps => exact .kept (h.trans keeps)
  | zeroed clearable zero => exact .zeroed clearable zero
  | counted sees next => exact .counted sees (by rw [next, h.count])

/-- Nothing clears the counter of rejected merges. -/
theorem CountMove.keeps_retry {seen : List (Option Ceiling)} {a b : Artifacts}
    (h : CountMove .mergeRetry seen a b) (hseen : some .mergeRetry ∉ seen) : Keeps .mergeRetry a b := by
  cases h with
  | kept keeps => exact keeps
  | zeroed clearable _ => exact absurd rfl clearable
  | counted sees _ => exact absurd (sees ▸ List.mem_singleton_self _) hseen

section Preamble

variable {s : Settings} {tid : TicketId} {t : Ticket} {ctx : MergeStageContext} {a : Artifacts}

theorem checkPrBaseline_found {poll : PollContext} {pr : PrStatus} (h : poll.prStatus = .found pr)
    (branch : String) (sameState : State) :
    count .prMissing (checkPrBaseline s t poll branch sameState a).1 = 0 := by
  unfold checkPrBaseline
  rw [h]
  dsimp only
  split
  · rfl
  · split
    · split
      · rfl
      · rfl
    · rfl

/-- A pull request that is not found is counted, unless the ceiling is off. -/
theorem checkPrBaseline_missing {poll : PollContext} (h : poll.prStatus = .nothing)
    (hbranch : (decide (t.source = SourceKind.ORPHANED_PR_CHECK) && poll.trackedUrl.isSome &&
      poll.trackedPr.isSome) = false) (branch : String) (sameState : State) :
    (checkPrBaseline s t poll branch sameState a = (a, .error { nextState := sameState })) ∨
      ∃ outcome, checkPrBaseline s t poll branch sameState a =
          ({ a with prMissingPollsTxt := some (toString (count .prMissing a + 1)) }, .error outcome) ∧
        (outcome.nextState = sameState ∨ (s.mergePrMissingMaxPolls : Int) ≤ count .prMissing a + 1) := by
  unfold checkPrBaseline
  rw [h]
  dsimp only
  have htracked : (if t.source = SourceKind.ORPHANED_PR_CHECK then
      poll.trackedUrl.bind fun url => poll.trackedPr.map fun pr => (url, pr)
    else none) = none := by
    split
    · rename_i hsource
      cases hurl : poll.trackedUrl with
      | none => rfl
      | some url =>
        cases hpr : poll.trackedPr with
        | none => rfl
        | some pr => simp [hsource, hurl, hpr] at hbranch
    · rfl
  rw [htracked]
  dsimp only
  split
  · exact .inl rfl
  · split
    · rename_i hreached
      exact .inr ⟨_, rfl, .inr hreached⟩
    · exact .inr ⟨_, rfl, .inl rfl⟩

/-- The tracked pull request stands in for the one that is missing. -/
theorem checkPrBaseline_tracked {poll : PollContext} (h : poll.prStatus = .nothing)
    (htracked : (decide (t.source = SourceKind.ORPHANED_PR_CHECK) && poll.trackedUrl.isSome &&
      poll.trackedPr.isSome) = true) (branch : String) (sameState : State) :
    (checkPrBaseline s t poll branch sameState a).1 = a := by
  simp only [Bool.and_eq_true, decide_eq_true_eq, Option.isSome_iff_exists] at htracked
  obtain ⟨⟨hsource, url, hurl⟩, pr, hpr⟩ := htracked
  unfold checkPrBaseline
  rw [h]
  dsimp only
  rw [if_pos hsource, hurl, hpr]
  dsimp only [Option.bind_some, Option.map_some]
  split
  · rfl
  · split
    · rfl
    · rfl

/-- The polls that look at the pull request of the ticket. -/
def PollsPr (t : Ticket) (poll : PollContext) : Prop :=
  t.state ∈ [State.implementComplete, .humanMrApproval, .waitingAutoMerge] ∧
    ¬ (t.state = .implementComplete ∧ poll.rateLimited = true)

/-- Without a pull request, the preamble is the whole poll. -/
theorem runSingleRepo_of_unseen (tid : TicketId) (hpolls : PollsPr t ctx.approval.toPollContext)
    (h : ∀ pr, ctx.approval.prStatus ≠ .found pr) :
    ∃ outcome, (checkPrBaseline s t ctx.approval.toPollContext (branchOf s tid t) t.state a).2 = .error outcome ∧
      runSingleRepo s tid t ctx a =
        ((checkPrBaseline s t ctx.approval.toPollContext (branchOf s tid t) t.state a).1, outcome) := by
  have hopen : openPr ctx.approval.prStatus = none := by
    cases hfound : ctx.approval.prStatus with
    | raised => rfl
    | nothing => rfl
    | found pr => exact absurd hfound (h pr)
  obtain ⟨outcome, hout⟩ :=
    checkPrBaseline_not_open (s := s) (t := t) (a := a) hopen (branchOf s tid t) t.state
  refine ⟨outcome, hout, ?_⟩
  have hbase : checkPrBaseline s t ctx.approval.toPollContext (branchOf s tid t) t.state a =
      ((checkPrBaseline s t ctx.approval.toPollContext (branchOf s tid t) t.state a).1, .error outcome) := by
    rw [← hout]
  obtain ⟨hstate, hlimit⟩ := hpolls
  simp only [List.mem_cons, List.not_mem_nil, or_false] at hstate
  unfold runSingleRepo
  rcases hstate with hst | hst | hst
  · rw [hst] at hbase ⊢
    dsimp only
    unfold pollImplementComplete
    rw [if_neg fun hlimited => hlimit ⟨hst, hlimited⟩]
    dsimp only
    rw [hbase]
  · rw [hst] at hbase ⊢
    dsimp only
    unfold handleHumanMrApproval
    rw [hbase]
  · rw [hst] at hbase ⊢
    dsimp only
    unfold pollWaitingAutoMerge
    have hverify : checkPrBaselineVerifying s t ctx.approval (branchOf s tid t) .waitingAutoMerge a =
        checkPrBaseline s t ctx.approval.toPollContext (branchOf s tid t) .waitingAutoMerge a := by
      unfold checkPrBaselineVerifying
      split
      · rename_i pr hfound
        exact absurd hfound (h pr)
      · rfl
    rw [hverify, hbase]

end Preamble

section Stuck

variable {s : Settings} {tid : TicketId} {t : Ticket} {poll : PollContext} {k : Ceiling} {pr : PrStatus}
  {status : CiStatus}

/-! ### Checks that are green, and not promoted -/

/-- Nothing but the bound on green polls is left to decide. -/
structure Stuck (pr : PrStatus) (status : CiStatus) : Prop where
  notFailing : status.conclusion ≠ some "failure"
  notGreen : ciTrulyGreen status.conclusion pr = false
  notBehind : ¬ (status.conclusion = some "success" ∧ pr.mergeableState = some "behind")

/-- Checks that are not in yet, or not green. -/
abbrev Unsettled (status : CiStatus) : Prop := status.conclusion ≠ some "success" ∨ status.pending ≠ []

/-- The condition of settled checks. -/
theorem conditionOf_of_stuck (h : Stuck pr status) (hsettled : ¬ Unsettled status) :
    conditionOf s pr status =
      if status.jobs = [] ∧ pr.mergeableState = some "blocked" ∧ 0 < s.emptyRollupMaxPolls then
        some .emptyRollup
      else some .greenUnpromotable := by
  obtain ⟨hsuccess, hpending⟩ := not_or.1 hsettled
  unfold conditionOf
  rw [if_neg]
  rintro (hconclusion | hpend | hgreen | hbehind)
  · exact hsuccess hconclusion
  · exact hpending hpend
  · rw [h.notGreen] at hgreen
    cases hgreen
  · exact h.notBehind ⟨not_not.1 hsuccess, hbehind⟩

/-- A condition is one of stuck checks. -/
theorem stuck_of_conditionOf (h : conditionOf s pr status = some k) :
    Stuck pr status ∧ ¬ Unsettled status := by
  unfold conditionOf at h
  split at h
  · cases h
  · rename_i hnone
    obtain ⟨hsuccess, hpending, hgreen, hbehind⟩ : status.conclusion = some "success" ∧ status.pending = [] ∧
        ciTrulyGreen status.conclusion pr = false ∧ pr.mergeableState ≠ some "behind" := by
      simpa [not_or] using hnone
    refine ⟨⟨by simp [hsuccess], hgreen, fun hand => hbehind hand.2⟩, ?_⟩
    rintro (h | h)
    · exact h hsuccess
    · exact h hpending

/-- The checks have no other conditions: none is a missing pull request or a rejected merge. -/
theorem conditionOf_ne {condition : Ceiling} (hempty : condition ≠ .emptyRollup)
    (hgreen : condition ≠ .greenUnpromotable) : conditionOf s pr status ≠ some condition := by
  unfold conditionOf
  split
  · exact fun h => by cases h
  · split
    · exact fun h => hempty (Option.some.inj h).symm
    · exact fun h => hgreen (Option.some.inj h).symm

theorem checkEmptyRollup_counts (branch : String) (b : Artifacts) :
    CountMove k [some .emptyRollup] b (checkEmptyRollup s poll pr branch status b).1 := by
  have hkept (c : Artifacts) (hk : k ≠ .emptyRollup) (hmissing : c.prMissingPollsTxt = b.prMissingPollsTxt)
      (hgreen : c.greenUnpromotablePollsTxt = b.greenUnpromotablePollsTxt)
      (hretry : c.mergeRetryAttemptsTxt = b.mergeRetryAttemptsTxt) : Keeps k b c := by
    cases k with
    | emptyRollup => exact absurd rfl hk
    | prMissing => exact hmissing
    | greenUnpromotable => exact hgreen
    | mergeRetry => exact hretry
  unfold checkEmptyRollup
  dsimp only
  split
  · exact .kept (.refl b)
  · exact .kept (.refl b)
  · by_cases hk : k = .emptyRollup
    · subst hk
      have hcounted (c : Artifacts)
          (h : c.emptyRollupPollsTxt = some (toString (readCounter b.emptyRollupPollsTxt + 1))) :
          CountMove .emptyRollup [some .emptyRollup] b c := by
        refine .counted rfl ?_
        show readCounter c.emptyRollupPollsTxt = _
        rw [h, readCounter_toString]
        rfl
      split
      · exact hcounted _ rfl
      · split
        · exact hcounted _ rfl
        · split
          · exact .zeroed (by simp) rfl
          · split
            · exact .zeroed (by simp) rfl
            · exact .zeroed (by simp) rfl
    · split
      · exact .kept (hkept _ hk rfl rfl rfl)
      · split
        · exact .kept (hkept _ hk rfl rfl rfl)
        · split
          · exact .kept (hkept _ hk rfl rfl rfl)
          · split
            · exact .kept (hkept _ hk rfl rfl rfl)
            · exact .kept (hkept _ hk rfl rfl rfl)

/-- The bound on green polls counts what the poll observes. -/
theorem checkGreenUnpromotable_counts (h : Stuck pr status) (branch : String) (b : Artifacts) :
    CountMove k [conditionOf s pr status] b (checkGreenUnpromotable s poll pr branch status b).1 := by
  unfold checkGreenUnpromotable
  by_cases hunsettled : Unsettled status
  · rw [if_pos hunsettled]
    cases k with
    | greenUnpromotable => exact .zeroed (by simp) rfl
    | emptyRollup => exact .zeroed (by simp) rfl
    | prMissing => exact .kept rfl
    | mergeRetry => exact .kept rfl
  · rw [if_neg hunsettled, conditionOf_of_stuck h hunsettled]
    by_cases hempty : status.jobs = [] ∧ pr.mergeableState = some "blocked" ∧ 0 < s.emptyRollupMaxPolls
    · rw [if_pos hempty, if_pos hempty]
      exact checkEmptyRollup_counts branch b
    · rw [if_neg hempty, if_neg hempty]
      split
      · exact .kept (.refl b)
      · dsimp only
        split
        · cases k with
          | greenUnpromotable => exact .counted rfl (readCounter_toString _)
          | emptyRollup => exact .kept rfl
          | prMissing => exact .kept rfl
          | mergeRetry => exact .kept rfl
        · cases k with
          | greenUnpromotable => exact .zeroed (by simp) rfl
          | emptyRollup => exact .kept rfl
          | prMissing => exact .kept rfl
          | mergeRetry => exact .kept rfl

/-- Checks that are not in yet clear both counters. -/
theorem checkGreenUnpromotable_clears (hk : k = .greenUnpromotable ∨ k = .emptyRollup) (h : Unsettled status)
    (branch : String) (b : Artifacts) : count k (checkGreenUnpromotable s poll pr branch status b).1 = 0 := by
  unfold checkGreenUnpromotable
  rw [if_pos h]
  rcases hk with rfl | rfl
  · rfl
  · rfl

/-- It blocks the ticket at the ceiling of what the poll observes. -/
theorem checkGreenUnpromotable_blocks (hseen : conditionOf s pr status = some k)
    (hrefused : k = .emptyRollup → ∀ runs, poll.runApproval ≠ .refused runs) {branch : String} {b : Artifacts}
    {outcome : StageOutcome} (hres : (checkGreenUnpromotable s poll pr branch status b).2 = some outcome)
    (hblocked : outcome.nextState = .blocked) : (ceiling s k : Int) ≤ count k b + 1 := by
  obtain ⟨hstuck, hsettled⟩ := stuck_of_conditionOf hseen
  rw [conditionOf_of_stuck hstuck hsettled] at hseen
  unfold checkGreenUnpromotable at hres
  rw [if_neg hsettled] at hres
  by_cases hempty : status.jobs = [] ∧ pr.mergeableState = some "blocked" ∧ 0 < s.emptyRollupMaxPolls
  · rw [if_pos hempty] at hseen hres
    obtain rfl : Ceiling.emptyRollup = k := Option.some.inj hseen
    unfold checkEmptyRollup at hres
    dsimp only at hres
    split at hres
    · obtain rfl := Option.some.inj hres
      cases hblocked
    · rename_i runs happroval
      -- the approval of a workflow run was refused
      split at happroval
      · cases happroval
      · exact absurd happroval (hrefused rfl runs)
    · split at hres
      · cases hres
      · rename_i hreached
        exact not_lt.1 hreached
  · rw [if_neg hempty] at hseen hres
    obtain rfl : Ceiling.greenUnpromotable = k := Option.some.inj hseen
    split at hres
    · cases hres
    · dsimp only at hres
      split at hres
      · cases hres
      · rename_i hreached
        exact not_lt.1 hreached

end Stuck

/-! ## One pull request -/

section Single

variable {s : Settings} {tid : TicketId} {t : Ticket} {ctx : MergeStageContext} {a : Artifacts} {k : Ceiling}

/-- Before it has a conclusion, a poll of `implement_complete` counts in the preamble only. -/
theorem pollImplementComplete_keeps_of_unseen {poll : PollContext} (hlimit : poll.rateLimited = false)
    (h : ¬ ∃ pr status, SeesChecks poll pr status) :
    Keeps k (checkPrBaseline s t poll (branchOf s tid t) .implementComplete a).1
      (pollImplementComplete s tid t poll a).1 := by
  unfold pollImplementComplete
  rw [if_neg (by simp [hlimit])]
  dsimp only
  cases hopen : openPr poll.prStatus with
  | none =>
    obtain ⟨outcome, hout⟩ :=
      checkPrBaseline_not_open (s := s) (t := t) (a := a) hopen (branchOf s tid t) .implementComplete
    cases hres : checkPrBaseline s t poll (branchOf s tid t) .implementComplete a with
    | mk b res =>
      rw [hres] at hout
      obtain rfl : res = .error outcome := hout
      exact .refl b
  | some pr =>
    rw [checkPrBaseline_open hopen]
    dsimp only
    split
    · exact .refl _
    · rename_i hconflict
      split
      · exact .of_files rfl rfl rfl rfl
      · rename_i hskip
        cases hcheck : poll.checkStatus with
        | raised => exact .of_files rfl rfl rfl rfl
        | nothing => exact .of_files rfl rfl rfl rfl
        | found status =>
          obtain ⟨hfound, hmerged, hclosed⟩ := openPr_eq_some.1 hopen
          exact absurd ⟨pr, status, ⟨hlimit, hfound, hmerged, hclosed⟩, hconflict,
            Bool.eq_false_of_not_eq_true hskip, hcheck⟩ h

/-- Failing, green or late checks leave the counters alone. -/
theorem pollImplementComplete_keeps_of_not_stuck {poll : PollContext} (hk : k = .mergeRetry → NotRetryable poll)
    {pr : PrStatus} {status : CiStatus} (hseen : SeesChecks poll pr status) (h : ¬ Stuck pr status) :
    Keeps k (atChecks a) (pollImplementComplete s tid t poll a).1 := by
  rw [pollImplementComplete_of_seesChecks s tid t poll hseen]
  by_cases hfail : status.conclusion = some "failure"
  · rw [if_pos hfail]
    exact handleCiFailureRoute_keeps poll status _
  · rw [if_neg hfail]
    by_cases hgreen : ciTrulyGreen status.conclusion pr = true
    · rw [if_pos hgreen]
      exact mergeOrPromoteWhenGreen_keeps hk pr _
    · rw [if_neg hgreen]
      by_cases hbehind : status.conclusion = some "success" ∧ pr.mergeableState = some "behind"
      · rw [if_pos hbehind]
        exact .refl _
      · exact absurd ⟨hfail, Bool.eq_false_of_not_eq_true hgreen, hbehind⟩ h

/-- Stuck checks are left to the bound on green polls. -/
theorem pollImplementComplete_of_stuck {poll : PollContext} {pr : PrStatus} {status : CiStatus}
    (hseen : SeesChecks poll pr status) (h : Stuck pr status) :
    (pollImplementComplete s tid t poll a).1 =
        (checkGreenUnpromotable s poll pr (branchOf s tid t) status (atChecks a)).1 ∧
      (pollImplementComplete s tid t poll a).2 =
        (checkGreenUnpromotable s poll pr (branchOf s tid t) status (atChecks a)).2.getD .repoll := by
  rw [pollImplementComplete_of_seesChecks s tid t poll hseen, if_neg h.notFailing, if_neg (by simp [h.notGreen]),
    if_neg h.notBehind]
  cases checkGreenUnpromotable s poll pr (branchOf s tid t) status (atChecks a) with
  | mk b stuck =>
    cases stuck with
    | none => exact ⟨rfl, rfl⟩
    | some outcome => exact ⟨rfl, rfl⟩

/-- What the polls after the preamble leave of the other counters. -/
theorem pollImplementComplete_counts {poll : PollContext} (hmissing : k ≠ .prMissing) (hretry : k ≠ .mergeRetry)
    (hlimit : poll.rateLimited = false) {seen : List (Option Ceiling)}
    (hobserved : ∀ pr status, SeesChecks poll pr status → seen = [conditionOf s pr status]) :
    CountMove k seen a (pollImplementComplete s tid t poll a).1 := by
  by_cases hchecks : ∃ pr status, SeesChecks poll pr status
  · obtain ⟨pr, status, hsees⟩ := hchecks
    have hstart : Keeps k a (atChecks a) := .of_missing hmissing rfl rfl rfl
    rw [hobserved pr status hsees]
    by_cases hstuck : Stuck pr status
    · rw [(pollImplementComplete_of_stuck hsees hstuck).1]
      exact .before hstart (checkGreenUnpromotable_counts hstuck _ _)
    · exact .kept (hstart.trans (pollImplementComplete_keeps_of_not_stuck (fun h => absurd h hretry) hsees hstuck))
  · exact .kept ((checkPrBaseline_keeps hmissing poll _ _ a).trans
      (pollImplementComplete_keeps_of_unseen hlimit hchecks))

/-- A pull request that is found clears the counter of missing ones. -/
theorem runSingleRepo_found (hpolls : PollsPr t ctx.approval.toPollContext) {pr : PrStatus}
    (h : ctx.approval.prStatus = .found pr) : count .prMissing (runSingleRepo s tid t ctx a).1 = 0 := by
  obtain ⟨hstate, hlimit⟩ := hpolls
  simp only [List.mem_cons, List.not_mem_nil, or_false] at hstate
  unfold runSingleRepo
  rcases hstate with hst | hst | hst
  · rw [hst]
    have hpolled : ctx.approval.rateLimited = false :=
      Bool.eq_false_of_not_eq_true fun hlimited => hlimit ⟨hst, hlimited⟩
    by_cases hchecks : ∃ pr status, SeesChecks ctx.approval.toPollContext pr status
    · obtain ⟨pr', status, hsees⟩ := hchecks
      by_cases hstuck : Stuck pr' status
      · have hcounts : CountMove .prMissing [conditionOf s pr' status] (atChecks a)
            (checkGreenUnpromotable s ctx.approval.toPollContext pr' (branchOf s tid t) status (atChecks a)).1 :=
          checkGreenUnpromotable_counts hstuck _ _
        dsimp only
        rw [(pollImplementComplete_of_stuck hsees hstuck).1]
        cases hcounts with
        | kept keeps => exact keeps.count
        | zeroed _ zero => exact zero
        | counted sees _ => exact absurd (List.singleton_inj.1 sees) (conditionOf_ne (by decide) (by decide))
      · exact (pollImplementComplete_keeps_of_not_stuck (k := .prMissing) (by simp) hsees hstuck).count
    · exact (pollImplementComplete_keeps_of_unseen hpolled hchecks).count.trans (checkPrBaseline_found h _ _)
  · rw [hst]
    exact (handleHumanMrApproval_keeps (k := .prMissing) (by simp) a).count.trans (checkPrBaseline_found h _ _)
  · rw [hst]
    refine (pollWaitingAutoMerge_keeps (k := .prMissing) (by simp) a).count.trans ?_
    unfold checkPrBaselineVerifying
    rw [h]
    dsimp only
    split
    · rfl
    · exact checkPrBaseline_found h _ _

/-- What the run observes in a state that polls. -/
theorem observedSingle_of_polls (hpolls : PollsPr t ctx.approval.toPollContext) :
    observedSingle s t ctx a =
      match ctx.approval.prStatus with
      | .raised => []
      | .nothing => if seesTracked t ctx then [none] else [some .prMissing]
      | .found _ => [(checksSeen s t ctx.approval a).bind fun seen => conditionOf s seen.1 seen.2] := by
  obtain ⟨hstate, hlimit⟩ := hpolls
  simp only [List.mem_cons, List.not_mem_nil, or_false] at hstate
  unfold observedSingle
  rcases hstate with hst | hst | hst
  · rw [hst]
    dsimp only
    rw [if_neg fun hand => hlimit ⟨hst, hand.2⟩]
  · rw [hst]
    dsimp only
    rw [if_neg (by simp)]
  · rw [hst]
    dsimp only
    rw [if_neg (by simp)]

/-- The other runs look at no pull request, and leave the counters alone. -/
theorem runSingleRepo_keeps_of_not_polls (hstate : STAGE_FOR_STATE t.state = some "merge")
    (h : ¬ PollsPr t ctx.approval.toPollContext) : Keeps k a (runSingleRepo s tid t ctx a).1 := by
  unfold runSingleRepo
  rcases mergeStage_states hstate with hst | hst | hst | hst | hst
  · rw [hst]
    dsimp only
    unfold pollImplementComplete
    by_cases hlimit : ctx.approval.rateLimited = true
    · rw [if_pos hlimit]
      exact .refl a
    · exact absurd ⟨by simp [hst], fun hand => hlimit hand.2⟩ h
  · exact absurd ⟨by simp [hst], fun hand => by rw [hst] at hand; cases hand.1⟩ h
  · exact absurd ⟨by simp [hst], fun hand => by rw [hst] at hand; cases hand.1⟩ h
  · rw [hst]
    exact runRebase_keeps ctx.rebase a
  · rw [hst]
    exact runReviewRevision_keeps ctx.revision a

/-- A run without a pull request counts it as missing, or nothing. -/
theorem runSingleRepo_missing (hpolls : PollsPr t ctx.approval.toPollContext)
    (h : ctx.approval.prStatus = .nothing) (htracked : seesTracked t ctx = false) :
    CountMove .prMissing [some .prMissing] a (runSingleRepo s tid t ctx a).1 ∧
      ((runSingleRepo s tid t ctx a).2.nextState = .blocked →
        (ceiling s .prMissing : Int) ≤ count .prMissing a + 1) := by
  have hunseen : ∀ pr, ctx.approval.prStatus ≠ .found pr := by
    intro pr hfound
    rw [h] at hfound
    cases hfound
  obtain ⟨outcome, hout, hrun⟩ := runSingleRepo_of_unseen (s := s) (a := a) tid hpolls hunseen
  have hactive : t.state ≠ .blocked := by
    intro hst
    have hstate := hpolls.1
    rw [hst] at hstate
    revert hstate
    decide
  rw [hrun]
  rcases checkPrBaseline_missing (s := s) (a := a) h htracked (branchOf s tid t) t.state with
    heq | ⟨outcome', heq, hnext⟩
  · rw [heq] at hout ⊢
    refine ⟨.kept (.refl a), fun hblocked => ?_⟩
    obtain rfl : ({ nextState := t.state } : StageOutcome) = outcome := Except.error.inj hout
    exact absurd hblocked hactive
  · rw [heq] at hout ⊢
    refine ⟨.counted rfl (readCounter_toString _), fun hblocked => ?_⟩
    obtain rfl : outcome' = outcome := Except.error.inj hout
    rcases hnext with hstays | hreached
    · exact absurd (hstays.symm.trans hblocked) hactive
    · exact hreached

/-- **What a run on one pull request does to a counter of polls.** -/
theorem runSingleRepo_counts (hstate : STAGE_FOR_STATE t.state = some "merge") (hretry : k ≠ .mergeRetry) :
    CountMove k (observedSingle s t ctx a) a (runSingleRepo s tid t ctx a).1 := by
  by_cases hpolls : PollsPr t ctx.approval.toPollContext
  · rw [observedSingle_of_polls hpolls]
    by_cases hk : k = .prMissing
    · subst hk
      cases hfound : ctx.approval.prStatus with
      | raised =>
        have hunseen : ∀ pr, ctx.approval.prStatus ≠ .found pr := by simp [hfound]
        obtain ⟨outcome, -, hrun⟩ := runSingleRepo_of_unseen (s := s) (a := a) tid hpolls hunseen
        rw [hrun]
        unfold checkPrBaseline
        rw [hfound]
        exact .kept (.refl a)
      | nothing =>
        dsimp only
        by_cases htracked : seesTracked t ctx = true
        · have hunseen : ∀ pr, ctx.approval.prStatus ≠ .found pr := by simp [hfound]
          obtain ⟨outcome, -, hrun⟩ := runSingleRepo_of_unseen (s := s) (a := a) tid hpolls hunseen
          rw [hrun, checkPrBaseline_tracked hfound htracked]
          exact .kept (.refl a)
        · rw [if_neg htracked]
          exact (runSingleRepo_missing hpolls hfound (Bool.eq_false_of_not_eq_true htracked)).1
      | found pr => exact .zeroed hretry (runSingleRepo_found hpolls hfound)
    · obtain ⟨hmem, hlimit⟩ := hpolls
      simp only [List.mem_cons, List.not_mem_nil, or_false] at hmem
      have hnot : k = .mergeRetry → NotRetryable ctx.approval.toPollContext := fun h => absurd h hretry
      unfold runSingleRepo
      rcases hmem with hst | hst | hst
      · rw [hst]
        have hpolled : ctx.approval.rateLimited = false :=
          Bool.eq_false_of_not_eq_true fun hlimited => hlimit ⟨hst, hlimited⟩
        refine pollImplementComplete_counts hk hretry hpolled ?_
        intro pr status hsees
        rw [hsees.found, (checksSeen_implementComplete hst).2 hsees]
        rfl
      · rw [hst]
        exact .kept ((checkPrBaseline_keeps hk _ _ _ a).trans (handleHumanMrApproval_keeps hnot a))
      · rw [hst]
        exact .kept ((checkPrBaselineVerifying_keeps hk _ _ a).trans (pollWaitingAutoMerge_keeps hnot a))
  · exact .kept (runSingleRepo_keeps_of_not_polls hstate hpolls)

/-- **What clears a counter.** -/
theorem runSingleRepo_clears (h : ClearsSingle s t ctx a k) : count k (runSingleRepo s tid t ctx a).1 = 0 := by
  have hstuck (hk : k = .greenUnpromotable ∨ k = .emptyRollup)
      (hclears : t.state = .implementComplete ∧
        ∃ pr status, checksSeen s t ctx.approval a = some (pr, status) ∧ status.conclusion ≠ some "failure" ∧
          (status.conclusion ≠ some "success" ∨ (status.pending ≠ [] ∧
            ciTrulyGreen status.conclusion pr = false ∧ pr.mergeableState ≠ some "behind"))) :
      count k (runSingleRepo s tid t ctx a).1 = 0 := by
    obtain ⟨hst, pr, status, hseen, hfail, hlate⟩ := hclears
    have hsees := (checksSeen_implementComplete hst).1 hseen
    have hstuck : Stuck pr status := by
      rcases hlate with hsuccess | ⟨-, hgreen, hbehind⟩
      · exact ⟨hfail, by simp [ciTrulyGreen, hsuccess], fun hand => hsuccess hand.1⟩
      · exact ⟨hfail, hgreen, fun hand => hbehind hand.2⟩
    have hunsettled : Unsettled status := by
      rcases hlate with hsuccess | ⟨hpending, -⟩
      · exact .inl hsuccess
      · exact .inr hpending
    unfold runSingleRepo
    rw [hst]
    dsimp only
    rw [(pollImplementComplete_of_stuck hsees hstuck).1]
    exact checkGreenUnpromotable_clears hk hunsettled _ _
  cases k with
  | prMissing =>
    obtain ⟨hmem, hlimit, pr, hfound⟩ := h
    exact runSingleRepo_found ⟨hmem, hlimit⟩ hfound
  | greenUnpromotable => exact hstuck (.inl rfl) h
  | emptyRollup => exact hstuck (.inr rfl) h
  | mergeRetry => exact h.elim

/-- Past `implement_complete` stuck checks leave the ticket to wait. -/
theorem handleHumanMrApproval_of_stuck (hst : t.state = .humanMrApproval) {pr : PrStatus} {status : CiStatus}
    (hseen : checksSeen s t ctx.approval a = some (pr, status)) (hstuck : Stuck pr status) :
    (handleHumanMrApproval s tid t ctx.approval a).2.nextState ≠ .blocked := by
  obtain ⟨-, hopen, hgo, hcheck⟩ := checksSeen_eq_some.1 hseen
  obtain ⟨hfresh, hsilent, hmergeable, hskip⟩ : steadyStateFresh ctx.approval a pr = false ∧
      (reviewChangesRequestedOutcome s ctx.approval.review pr.sha a).2 = none ∧ pr.mergeable ≠ some false ∧
      ctx.approval.skipCi = false := by
    unfold stopsBeforeChecks at hgo
    rw [hst] at hgo
    simpa [and_assoc] using hgo
  have hquiet := quiet_of_silent hsilent { a with prMissingPollsTxt := some "0" }
  have hstale : steadyStateFresh ctx.approval { a with prMissingPollsTxt := some "0" } pr = false := hfresh
  unfold handleHumanMrApproval
  rw [checkPrBaseline_open hopen]
  dsimp only
  rw [hstale, if_neg Bool.false_ne_true, hquiet]
  dsimp only
  rw [if_neg hmergeable]
  unfold handleApprovalChecks
  rw [hskip, if_neg Bool.false_ne_true, hcheck]
  dsimp only
  rw [if_neg hstuck.notFailing, hstuck.notGreen, if_neg Bool.false_ne_true, if_neg hstuck.notBehind]
  split
  · simp
  · simp

theorem pollWaitingAutoMerge_of_stuck (hst : t.state = .waitingAutoMerge) {pr : PrStatus} {status : CiStatus}
    (hseen : checksSeen s t ctx.approval a = some (pr, status)) (hstuck : Stuck pr status) :
    (pollWaitingAutoMerge s tid t ctx.approval a).2.nextState ≠ .blocked := by
  obtain ⟨-, hopen, hgo, hcheck⟩ := checksSeen_eq_some.1 hseen
  obtain ⟨heligible, hmergeable, hsilent⟩ : ctx.approval.ineligible = none ∧ pr.mergeable ≠ some false ∧
      (reviewChangesRequestedOutcome s ctx.approval.review pr.sha a).2 = none := by
    unfold stopsBeforeChecks at hgo
    rw [hst] at hgo
    simpa [and_assoc] using hgo
  have hquiet := quiet_of_silent hsilent { a with prMissingPollsTxt := some "0" }
  unfold pollWaitingAutoMerge
  rw [checkPrBaselineVerifying_open hopen]
  dsimp only
  rw [heligible]
  dsimp only
  rw [if_neg hmergeable, hquiet]
  dsimp only
  unfold handleWaitingChecks
  rw [hcheck]
  dsimp only
  rw [if_neg hstuck.notFailing, hstuck.notGreen, if_neg Bool.false_ne_true, if_neg hstuck.notBehind]
  simp

/-- A run that polls no pull request observes no condition. -/
theorem observedSingle_of_not_polls (hstate : STAGE_FOR_STATE t.state = some "merge")
    (h : ¬ PollsPr t ctx.approval.toPollContext) (k : Ceiling) : some k ∉ observedSingle s t ctx a := by
  unfold observedSingle
  rcases mergeStage_states hstate with hst | hst | hst | hst | hst
  · rw [hst]
    dsimp only
    by_cases hlimit : ctx.approval.rateLimited = true
    · rw [if_pos ⟨rfl, hlimit⟩]
      simp
    · exact absurd ⟨by simp [hst], fun hand => hlimit hand.2⟩ h
  · exact absurd ⟨by simp [hst], fun hand => by rw [hst] at hand; cases hand.1⟩ h
  · exact absurd ⟨by simp [hst], fun hand => by rw [hst] at hand; cases hand.1⟩ h
  · rw [hst]
    dsimp only
    split
    · simp
    · simp
  · rw [hst]
    simp

/-- **What a block stands for.** -/
theorem runSingleRepo_blocks (hstate : STAGE_FOR_STATE t.state = some "merge")
    (hseen : observedSingle s t ctx a = [some k])
    (hrefused : k = .emptyRollup → ∀ runs, ctx.approval.runApproval ≠ .refused runs)
    (hblocked : (runSingleRepo s tid t ctx a).2.nextState = .blocked) :
    (ceiling s k : Int) ≤ count k a + 1 := by
  by_cases hpolls : PollsPr t ctx.approval.toPollContext
  · rw [observedSingle_of_polls hpolls] at hseen
    cases hfound : ctx.approval.prStatus with
    | raised =>
      rw [hfound] at hseen
      cases hseen
    | nothing =>
      rw [hfound] at hseen
      dsimp only at hseen
      split at hseen
      · cases hseen
      · rename_i htracked
        cases hseen
        exact (runSingleRepo_missing hpolls hfound (Bool.eq_false_of_not_eq_true htracked)).2 hblocked
    | found pr =>
      rw [hfound] at hseen
      obtain ⟨⟨pr', status⟩, hchecks, hcondition⟩ :=
        Option.bind_eq_some_iff.1 (List.singleton_inj.1 hseen)
      have hstuck := (stuck_of_conditionOf hcondition).1
      obtain ⟨hmem, hlimit⟩ := hpolls
      simp only [List.mem_cons, List.not_mem_nil, or_false] at hmem
      rcases hmem with hst | hst | hst
      · have hsees := (checksSeen_implementComplete hst).1 hchecks
        have hkept : Keeps k a (atChecks a) := by
          refine .of_missing ?_ rfl rfl rfl
          rintro rfl
          exact conditionOf_ne (by decide) (by decide) hcondition
        unfold runSingleRepo at hblocked
        rw [hst] at hblocked
        dsimp only at hblocked
        rw [(pollImplementComplete_of_stuck hsees hstuck).2] at hblocked
        cases hres : (checkGreenUnpromotable s ctx.approval.toPollContext pr' (branchOf s tid t) status
            (atChecks a)).2 with
        | none =>
          rw [hres] at hblocked
          cases hblocked
        | some outcome =>
          rw [hres] at hblocked
          rw [← hkept.count]
          exact checkGreenUnpromotable_blocks hcondition hrefused hres hblocked
      · rw [runSingleRepo, hst] at hblocked
        exact absurd hblocked (handleHumanMrApproval_of_stuck hst hchecks hstuck)
      · rw [runSingleRepo, hst] at hblocked
        exact absurd hblocked (pollWaitingAutoMerge_of_stuck hst hchecks hstuck)
  · exact absurd (hseen ▸ List.mem_singleton_self _) (observedSingle_of_not_polls hstate hpolls k)

end Single

/-! ## Several pull requests -/

section Several

variable {s : Settings} {t : Ticket} {multiRepo : MultiRepoContext} {k : Ceiling} {a : Artifacts}

/-- Nothing could still change, and a pull request is missing. -/
structure OnlyMissing (statuses : List Surveyed) : Prop where
  missing : ∃ r ∈ statuses, r.status = .prMissing
  others : ∀ r ∈ statuses, r.status ∈ [RepoStatus.merged, .green, .prMissing]

theorem countMissingPr_counts (missing : List Surveyed) (a : Artifacts) :
    CountMove k [some .prMissing] a (countMissingPr s t missing a).1 ∧
      ((countMissingPr s t missing a).2.nextState = .blocked → t.state ≠ .blocked →
        (ceiling s .prMissing : Int) ≤ count .prMissing a + 1) := by
  have hcounted : CountMove k [some .prMissing] a
      { a with prMissingPollsTxt := some (toString (readCounter a.prMissingPollsTxt + 1)) } := by
    by_cases hk : k = .prMissing
    · subst hk
      exact .counted rfl (readCounter_toString _)
    · exact .kept (.of_missing hk rfl rfl rfl)
  unfold countMissingPr
  dsimp only
  split
  · exact ⟨.kept (.refl a), fun hblocked hactive => absurd hblocked hactive⟩
  · split
    · rename_i hreached
      exact ⟨hcounted, fun _ _ => hreached⟩
    · exact ⟨hcounted, fun hblocked hactive => absurd hblocked hactive⟩

/-- The counter of missing pull requests, zeroed. -/
theorem zeroed_move (seen : List (Option Ceiling)) (a : Artifacts) :
    CountMove k seen a { a with prMissingPollsTxt := some "0" } := by
  by_cases hk : k = .prMissing
  · subst hk
    exact .zeroed (by simp) rfl
  · exact .kept (.of_missing hk rfl rfl rfl)

theorem CountMove.after {seen : List (Option Ceiling)} {a b c : Artifacts} (hmove : CountMove k seen a b)
    (h : Keeps k b c) : CountMove k seen a c := by
  cases hmove with
  | kept keeps => exact .kept (keeps.trans h)
  | zeroed clearable zero => exact .zeroed clearable (h.count.trans zero)
  | counted sees next => exact .counted sees (h.count.trans next)

/-- What the sum of the statuses does to a counter. -/
theorem aggregate_counts (statuses : List Surveyed) (a : Artifacts) {seen : List (Option Ceiling)}
    (hseen : OnlyMissing statuses → seen = [some .prMissing]) :
    CountMove k seen a (aggregate s t multiRepo statuses a).1 := by
  unfold aggregate
  split
  · exact .kept (.refl a)
  · rename_i hclosed
    split
    · exact (zeroed_move seen a).after (multiRepoRebase_keeps _ _)
    · rename_i hconflicting
      split
      · exact (zeroed_move seen a).after (multiRepoFixCi_keeps _ _)
      · rename_i hfailing
        split
        · exact .kept (.of_files rfl rfl rfl rfl)
        · dsimp only
          split
          · exact .kept (multiRepoAutoMerge_keeps _ _ a)
          · split
            · rename_i hmissing
              have honly : OnlyMissing statuses := by
                obtain ⟨r, hr⟩ := List.exists_mem_of_ne_nil _ hmissing.1
                refine ⟨⟨r, mem_withStatus.1 hr⟩, fun r' hr' => ?_⟩
                cases hstatus : r'.status with
                | merged => simp
                | green => simp
                | prMissing => simp
                | closedUnmerged => exact absurd hstatus (withStatus_eq_nil.1 hclosed r' hr')
                | conflicting => exact absurd hstatus (withStatus_eq_nil.1 hconflicting r' hr')
                | failingCi => exact absurd hstatus (withStatus_eq_nil.1 hfailing r' hr')
                | pending => exact absurd hstatus (withStatus_eq_nil.1 hmissing.2 r' hr')
              rw [hseen honly]
              exact (countMissingPr_counts _ a).1
            · exact zeroed_move seen a

/-- With nothing but missing pull requests, the poll counts them. -/
theorem aggregate_of_onlyMissing {statuses : List Surveyed} (h : OnlyMissing statuses) (a : Artifacts) :
    aggregate s t multiRepo statuses a = countMissingPr s t (withStatus .prMissing statuses) a := by
  have hnone (status : RepoStatus) (hout : status ∉ [RepoStatus.merged, .green, .prMissing]) :
      withStatus status statuses = [] := by
    rw [withStatus_eq_nil]
    intro r hr heq
    exact hout (heq ▸ h.others r hr)
  obtain ⟨r, hr, hstatus⟩ := h.missing
  have hsome : withStatus .prMissing statuses ≠ [] := List.ne_nil_of_mem (mem_withStatus.2 ⟨hr, hstatus⟩)
  unfold aggregate
  rw [hnone .closedUnmerged (by decide), hnone .conflicting (by decide), hnone .failingCi (by decide)]
  dsimp only
  rw [if_neg, if_neg, if_pos ⟨hsome, hnone .pending (by decide)⟩]
  · rintro ⟨-, -, hmissing⟩
    exact hsome hmissing
  · rintro ⟨-, hmerged⟩
    rw [hmerged r hr] at hstatus
    cases hstatus

/-- What conflicts, fails or is pending clears the counter, if nothing is closed. -/
theorem aggregate_clears {statuses : List Surveyed} (hclosed : ∀ r ∈ statuses, r.status ≠ .closedUnmerged)
    (h : ∃ r ∈ statuses, r.status ∈ [RepoStatus.conflicting, .failingCi, .pending]) (a : Artifacts) :
    count .prMissing (aggregate s t multiRepo statuses a).1 = 0 := by
  obtain ⟨r, hr, hstatus⟩ := h
  unfold aggregate
  rw [withStatus_eq_nil.2 hclosed]
  dsimp only
  split
  · exact (multiRepoRebase_keeps _ _).count
  · rename_i hconflicting
    split
    · exact (multiRepoFixCi_keeps _ _).count
    · rename_i hfailing
      have hpending : withStatus .pending statuses ≠ [] := by
        apply List.ne_nil_of_mem (a := r)
        rw [mem_withStatus]
        simp only [List.mem_cons, List.not_mem_nil, or_false] at hstatus
        rcases hstatus with h | h | h
        · exact absurd h (withStatus_eq_nil.1 hconflicting r hr)
        · exact absurd h (withStatus_eq_nil.1 hfailing r hr)
        · exact ⟨hr, h⟩
      rw [if_neg, if_neg (fun hand => hpending hand.2.1), if_neg (fun hand => hpending hand.2)]
      · rfl
      · rintro ⟨-, hmerged⟩
        obtain ⟨r', hr'⟩ := List.exists_mem_of_ne_nil _ hpending
        obtain ⟨hmem, hst⟩ := mem_withStatus.1 hr'
        rw [hmerged r' hmem] at hst
        cases hst

/-- The statuses of a poll say which pull requests are missing. -/
theorem onlyMissing_iff {pairs : List (PrEntry × RepoAnswers)} :
    OnlyMissing (pairs.map fun x => surveyed x.1 x.2) ↔ missingOnly pairs = true := by
  unfold missingOnly
  rw [Bool.and_eq_true, List.any_eq_true, List.all_eq_true]
  constructor
  · rintro ⟨⟨r, hr, hstatus⟩, hothers⟩
    obtain ⟨x, hx, rfl⟩ := List.mem_map.1 hr
    refine ⟨⟨x, hx, decide_eq_true hstatus⟩, fun y hy => decide_eq_true ?_⟩
    exact hothers _ (List.mem_map_of_mem hy)
  · rintro ⟨⟨x, hx, hstatus⟩, hothers⟩
    refine ⟨⟨_, List.mem_map_of_mem hx, of_decide_eq_true hstatus⟩, fun r hr => ?_⟩
    obtain ⟨y, hy, rfl⟩ := List.mem_map.1 hr
    exact of_decide_eq_true (hothers y hy)

theorem lookupPr_of_prMissing {e : PrEntry} {r : RepoAnswers} (h : repoStatus e r = .prMissing) :
    lookupPr e r = .nothing := by
  unfold repoStatus at h
  cases hlookup : lookupPr e r with
  | nothing => rfl
  | raised =>
    rw [hlookup] at h
    cases h
  | found pr =>
    rw [hlookup] at h
    dsimp only at h
    repeat' split at h
    all_goals cases h

/-- What a poll observes that finds nothing but missing pull requests. -/
theorem observedMulti_of_missing {entries : List PrEntry} (hpolled : multiRepo.rateLimited = false)
    (hknown : ∀ x ∈ answered multiRepo entries, x.2.known = true)
    (h : missingOnly (answered multiRepo entries) = true) : observedMulti multiRepo entries = [some .prMissing] := by
  have hall : (answered multiRepo entries).all (fun x => x.2.known) = true := List.all_eq_true.2 hknown
  have htake : (answered multiRepo entries).takeWhile (fun x => x.2.known) = answered multiRepo entries :=
    List.takeWhile_eq_self_iff.2 hknown
  have hasked : (answered multiRepo entries).any (fun x => decide (lookupPr x.1 x.2 ≠ .raised)) = true := by
    obtain ⟨⟨r, hr, hstatus⟩, -⟩ := onlyMissing_iff.2 h
    obtain ⟨x, hx, rfl⟩ := List.mem_map.1 hr
    refine List.any_eq_true.2 ⟨x, hx, decide_eq_true ?_⟩
    rw [lookupPr_of_prMissing hstatus]
    simp
  unfold observedMulti
  dsimp only
  rw [if_neg (by simp [hpolled]), htake, if_pos hasked, hall, h]
  rfl

/-- **What a poll of the manifest does to a counter.** -/
theorem runMultiRepo_counts (entries : List PrEntry) (a : Artifacts) :
    CountMove k (observedMulti multiRepo entries) a (runMultiRepo s t multiRepo entries a).1 := by
  unfold runMultiRepo
  split
  · exact .kept (.refl a)
  · rename_i hpolled
    by_cases hknown : ∀ x ∈ answered multiRepo entries, x.2.known = true
    · obtain ⟨b, heq⟩ := surveyRepos_of_known hknown a
      rw [heq]
      refine .before ((surveyRepos_keeps _ a).fst heq) (aggregate_counts _ b ?_)
      intro honly
      exact observedMulti_of_missing (Bool.eq_false_of_not_eq_true hpolled) hknown (onlyMissing_iff.1 honly)
    · obtain ⟨b, note, heq⟩ := surveyRepos_of_unknown hknown a
      rw [heq]
      exact .kept ((surveyRepos_keeps _ a).fst heq)

theorem runMultiRepo_clears {entries : List PrEntry} (h : ClearsMulti multiRepo entries k) (a : Artifacts) :
    count k (runMultiRepo s t multiRepo entries a).1 = 0 := by
  obtain ⟨rfl, hasks, hclosed, x, hx, hstatus⟩ := h
  obtain ⟨b, heq⟩ := surveyRepos_of_known hasks.known a
  unfold runMultiRepo
  rw [if_neg (by simp [hasks.polled]), heq]
  refine aggregate_clears ?_ ⟨_, List.mem_map_of_mem hx, hstatus⟩ b
  rw [List.forall_mem_map]
  exact hclosed

/-- A block stands for the polls its counter counts. -/
theorem runMultiRepo_blocks {entries : List PrEntry} (hactive : t.state ≠ .blocked)
    (hseen : observedMulti multiRepo entries = [some k])
    (hblocked : (runMultiRepo s t multiRepo entries a).2.nextState = .blocked) :
    (ceiling s k : Int) ≤ count k a + 1 := by
  unfold observedMulti at hseen
  dsimp only at hseen
  split at hseen
  · cases hseen
  · rename_i hpolled
    split at hseen
    · split at hseen
      · rename_i hmissing
        obtain rfl : Ceiling.prMissing = k := Option.some.inj (List.singleton_inj.1 hseen)
        obtain ⟨hknown, honly⟩ := Bool.and_eq_true_iff.1 hmissing
        obtain ⟨b, heq⟩ := surveyRepos_of_known (List.all_eq_true.1 hknown) a
        have hkept : Keeps .prMissing a b := (surveyRepos_keeps _ a).fst heq
        unfold runMultiRepo at hblocked
        rw [if_neg hpolled, heq] at hblocked
        dsimp only at hblocked
        rw [aggregate_of_onlyMissing (onlyMissing_iff.2 honly)] at hblocked
        rw [← hkept.count]
        exact (countMissingPr_counts (k := .prMissing) _ b).2 hblocked hactive
      · cases hseen
    · cases hseen

end Several

/-! ## Merges that are rejected for now -/

section Rejected

variable {s : Settings} {tid : TicketId} {t : Ticket} {ctx : MergeStageContext} {a : Artifacts}

/-- A run that has no merge rejected for now leaves the counter of rejections alone. -/
theorem runSingleRepo_keeps_retry (hstate : STAGE_FOR_STATE t.state = some "merge")
    (hk : NotRetryable ctx.approval.toPollContext) : Keeps .mergeRetry a (runSingleRepo s tid t ctx a).1 := by
  by_cases hpolls : PollsPr t ctx.approval.toPollContext
  · obtain ⟨hmem, hlimit⟩ := hpolls
    simp only [List.mem_cons, List.not_mem_nil, or_false] at hmem
    have hother : Ceiling.mergeRetry ≠ .prMissing := by simp
    unfold runSingleRepo
    rcases hmem with hst | hst | hst
    · rw [hst]
      have hpolled : ctx.approval.rateLimited = false :=
        Bool.eq_false_of_not_eq_true fun hlimited => hlimit ⟨hst, hlimited⟩
      by_cases hchecks : ∃ pr status, SeesChecks ctx.approval.toPollContext pr status
      · obtain ⟨pr, status, hsees⟩ := hchecks
        have hstart : Keeps .mergeRetry a (atChecks a) := rfl
        by_cases hstuck : Stuck pr status
        · dsimp only
          rw [(pollImplementComplete_of_stuck hsees hstuck).1]
          refine hstart.trans ((checkGreenUnpromotable_counts hstuck _ _).keeps_retry ?_)
          rw [List.mem_singleton]
          exact fun h => conditionOf_ne (by decide) (by decide) h.symm
        · exact hstart.trans (pollImplementComplete_keeps_of_not_stuck (fun _ => hk) hsees hstuck)
      · exact (checkPrBaseline_keeps hother _ _ _ a).trans (pollImplementComplete_keeps_of_unseen hpolled hchecks)
    · rw [hst]
      exact (checkPrBaseline_keeps hother _ _ _ a).trans (handleHumanMrApproval_keeps (fun _ => hk) a)
    · rw [hst]
      exact (checkPrBaselineVerifying_keeps hother _ _ a).trans (pollWaitingAutoMerge_keeps (fun _ => hk) a)
  · exact runSingleRepo_keeps_of_not_polls hstate hpolls

/-- A merge the run never asked for is not rejected. -/
theorem runSingleRepo_keeps_of_unasked (hstate : STAGE_FOR_STATE t.state = some "merge")
    (h : asksMerge s t ctx.approval a = none) : Keeps .mergeRetry a (runSingleRepo s tid t ctx a).1 := by
  rw [← runSingleRepo_answering hstate h .merged]
  apply runSingleRepo_keeps_retry hstate
  intro reason hrejected
  cases hrejected

/-- A merge rejected for now is counted, and blocks the ticket at the last attempt. -/
theorem runSingleRepo_rejected {pr : PrStatus} (h : asksMerge s t ctx.approval a = some pr) {reason : String}
    (hrejected : ctx.approval.mergePr = .rejected reason true) :
    count .mergeRetry (runSingleRepo s tid t ctx a).1 = count .mergeRetry a + 1 ∧
      ((runSingleRepo s tid t ctx a).2.nextState = .blocked → MERGE_MAX_RETRIES ≤ count .mergeRetry a + 1) := by
  have hout : MergeOutcome ctx.approval a (runSingleRepo s tid t ctx a) := runSingleRepo_asked h
  obtain ⟨b, sameState, hsame, hretry, heq⟩ := hout.rejected reason true hrejected
  have hcount : readCounter b.mergeRetryAttemptsTxt = count .mergeRetry a := congrArg readCounter hretry
  rw [heq]
  unfold mergeRejectionOutcome
  rw [if_neg (by simp), hcount]
  dsimp only
  split
  · rename_i hreached
    exact ⟨readCounter_toString _, fun _ => hreached⟩
  · exact ⟨readCounter_toString _, fun hblocked => absurd hblocked hsame⟩

end Rejected

/-! ## A run of the stage -/

section Stage

variable {s : Settings} {tid : TicketId} {t : Ticket} {ctx : MergeStageContext} {a : Artifacts} {k : Ceiling}

/-- A run of the stage blocks the ticket at once, polls the manifest, or polls the one pull request. -/
inductive StageCase (s : Settings) (tid : TicketId) (t : Ticket) (ctx : MergeStageContext) (a : Artifacts) : Prop
  | unready (note : String) (run : mergeStageRun s tid t ctx a = (a, .block note))
      (seen : observed s t ctx a = []) (rejects : rejectedHead s t ctx a = none)
      (clears : ∀ k, ¬ Clears s t ctx a k)
  | several (e : PrEntry) (rest : List PrEntry)
      (run : mergeStageRun s tid t ctx a = runMultiRepo s t ctx.multiRepo (e :: rest) a)
      (seen : observed s t ctx a = observedMulti ctx.multiRepo (e :: rest)) (rejects : rejectedHead s t ctx a = none)
      (clears : ∀ k, Clears s t ctx a k → ClearsMulti ctx.multiRepo (e :: rest) k)
  | single (run : mergeStageRun s tid t ctx a = runSingleRepo s tid t ctx a)
      (seen : observed s t ctx a = observedSingle s t ctx a)
      (rejects : rejectedHead s t ctx a =
        match ctx.approval.mergePr with
        | .rejected _ true => (asksMerge s t ctx.approval a).map PrStatus.sha
        | _ => none)
      (clears : ∀ k, Clears s t ctx a k → ClearsSingle s t ctx a k)

theorem stageCase (s : Settings) (tid : TicketId) (t : Ticket) (ctx : MergeStageContext) (a : Artifacts) :
    StageCase s tid t ctx a := by
  cases hforge : ctx.forgeConfigured with
  | false =>
    refine .unready "forge not configured" ?_ ?_ ?_ ?_
    · rw [mergeStageRun, if_pos hforge]
    · rw [observed, if_pos (.inl hforge)]
    · rw [rejectedHead, if_pos (.inl hforge)]
    · rintro k ⟨hconfigured, -⟩
      rw [hforge] at hconfigured
      cases hconfigured
  | true =>
    have hforge' : ¬ ctx.forgeConfigured = false := by simp [hforge]
    cases htoken : ctx.tokenError with
    | some e =>
      refine .unready s!"forge auth not configured: {e}" ?_ ?_ ?_ ?_
      · rw [mergeStageRun, if_neg hforge', htoken]
      · rw [observed, if_pos (.inr (by simp [htoken]))]
      · rw [rejectedHead, if_pos (.inr (.inl (by simp [htoken])))]
      · rintro k ⟨-, hnone, -⟩
        rw [htoken] at hnone
        cases hnone
    | none =>
      have hready : ¬ (ctx.forgeConfigured = false ∨ ctx.tokenError.isSome = true) := by simp [hforge, htoken]
      cases hmanifest : a.prUrlsJson with
      | corrupt =>
        refine .unready s!"pr_urls.json corrupted — resumable: {ctx.manifestError}" ?_ ?_ ?_ ?_
        · rw [mergeStageRun, if_neg hforge', htoken, hmanifest]
        · rw [observed, if_neg hready, hmanifest]
        · rw [rejectedHead, if_pos (.inr (.inr (by simp [hmanifest])))]
        · rintro k ⟨-, -, ⟨habsent, -⟩ | ⟨e, rest, hok, -⟩⟩
          · rw [hmanifest] at habsent
            cases habsent
          · rw [hmanifest] at hok
            cases hok
      | absent =>
        refine .single ?_ ?_ ?_ ?_
        · rw [mergeStageRun, if_neg hforge', htoken, hmanifest]
        · rw [observed, if_neg hready, hmanifest]
        · rw [rejectedHead, if_neg (by simp [hforge, htoken, hmanifest])]
        · rintro k ⟨-, -, ⟨-, hsingle⟩ | ⟨e, rest, hok, -⟩⟩
          · exact hsingle
          · rw [hmanifest] at hok
            cases hok
      | ok entries =>
        cases entries with
        | nil =>
          refine .unready "pr_urls.json corrupted — resumable: empty manifest" ?_ ?_ ?_ ?_
          · rw [mergeStageRun, if_neg hforge', htoken, hmanifest]
          · rw [observed, if_neg hready, hmanifest]
          · rw [rejectedHead, if_pos (.inr (.inr (by simp [hmanifest])))]
          · rintro k ⟨-, -, ⟨habsent, -⟩ | ⟨e, rest, hok, -⟩⟩
            · rw [hmanifest] at habsent
              cases habsent
            · rw [hmanifest] at hok
              cases hok
        | cons e rest =>
          refine .several e rest ?_ ?_ ?_ ?_
          · rw [mergeStageRun, if_neg hforge', htoken, hmanifest]
          · rw [observed, if_neg hready, hmanifest]
          · rw [rejectedHead, if_pos (.inr (.inr (by simp [hmanifest])))]
          · rintro k ⟨-, -, ⟨habsent, -⟩ | ⟨e', rest', hok, hmulti⟩⟩
            · rw [hmanifest] at habsent
              cases habsent
            · rw [hmanifest] at hok
              cases hok
              exact hmulti

theorem mergeStageRun_counts (hstate : STAGE_FOR_STATE t.state = some "merge") (hretry : k ≠ .mergeRetry) :
    CountMove k (observed s t ctx a) a (mergeStageRun s tid t ctx a).1 := by
  cases stageCase s tid t ctx a with
  | unready note run =>
    rw [run]
    exact .kept (.refl a)
  | several e rest run seen =>
    rw [run, seen]
    exact runMultiRepo_counts _ a
  | single run seen =>
    rw [run, seen]
    exact runSingleRepo_counts hstate hretry

theorem mergeStageRun_clears (h : Clears s t ctx a k) : count k (mergeStageRun s tid t ctx a).1 = 0 := by
  cases stageCase s tid t ctx a with
  | unready note run seen rejects clears => exact absurd h (clears k)
  | several e rest run seen rejects clears =>
    rw [run]
    exact runMultiRepo_clears (clears k h) a
  | single run seen rejects clears =>
    rw [run]
    exact runSingleRepo_clears (clears k h)

/-- A state of the merge stage is not `blocked`. -/
theorem not_blocked_of_merge (hstate : STAGE_FOR_STATE t.state = some "merge") : t.state ≠ .blocked := by
  intro hst
  rw [hst] at hstate
  cases hstate

/-- A block at a ceiling finds the counter there. -/
theorem BlocksAt.reached (hstate : STAGE_FOR_STATE t.state = some "merge") (h : BlocksAt s tid t ctx a k) :
    (ceiling s k : Int) ≤ count k a + 1 := by
  obtain ⟨hseen, hblocked, hrefused⟩ := h
  cases stageCase s tid t ctx a with
  | unready note run seen =>
    rw [seen] at hseen
    cases hseen
  | several e rest run seen =>
    rw [seen] at hseen
    rw [run] at hblocked
    exact runMultiRepo_blocks (not_blocked_of_merge hstate) hseen hblocked
  | single run seen =>
    rw [seen] at hseen
    rw [run] at hblocked
    exact runSingleRepo_blocks hstate hseen hrefused hblocked

/-- A run observes one thing at most. -/
theorem observed_cases (s : Settings) (t : Ticket) (ctx : MergeStageContext) (a : Artifacts) :
    observed s t ctx a = [] ∨ ∃ o, observed s t ctx a = [o] := by
  have hmulti (entries : List PrEntry) : observedMulti ctx.multiRepo entries = [] ∨
      ∃ o, observedMulti ctx.multiRepo entries = [o] := by
    unfold observedMulti
    dsimp only
    split
    · exact .inl rfl
    · split
      · exact .inr ⟨_, rfl⟩
      · exact .inl rfl
  have hsingle : observedSingle s t ctx a = [] ∨ ∃ o, observedSingle s t ctx a = [o] := by
    unfold observedSingle
    split
    · split
      · exact .inr ⟨_, rfl⟩
      · exact .inl rfl
    · exact .inl rfl
    · split
      · exact .inl rfl
      · split
        · exact .inl rfl
        · split
          · exact .inr ⟨_, rfl⟩
          · exact .inr ⟨_, rfl⟩
        · exact .inr ⟨_, rfl⟩
  cases stageCase s "" t ctx a with
  | unready note run seen => exact .inl seen
  | several e rest run seen =>
    rw [seen]
    exact hmulti (e :: rest)
  | single run seen =>
    rw [seen]
    exact hsingle

theorem observedMulti_ne_mergeRetry (multiRepo : MultiRepoContext) (entries : List PrEntry) :
    some .mergeRetry ∉ observedMulti multiRepo entries := by
  unfold observedMulti
  dsimp only
  split
  · simp
  · split
    · split
      · simp
      · simp
    · simp

/-- Rejected merges are not observed, they are counted when they happen. -/
theorem observed_ne_mergeRetry : some .mergeRetry ∉ observed s t ctx a := by
  cases stageCase s "" t ctx a with
  | unready note run seen =>
    rw [seen]
    exact List.not_mem_nil
  | several e rest run seen =>
    rw [seen]
    exact observedMulti_ne_mergeRetry _ _
  | single run seen =>
    rw [seen]
    unfold observedSingle
    split
    · split
      · simp
      · simp
    · simp
    · split
      · simp
      · split
        · simp
        · split
          · simp
          · simp
        · rw [List.mem_singleton]
          intro hcondition
          obtain ⟨seen, -, hcondition⟩ := Option.bind_eq_some_iff.1 hcondition.symm
          exact conditionOf_ne (by decide) (by decide) hcondition

/-- A run without a merge that is rejected for now. -/
theorem mergeStageRun_keeps_retry (hstate : STAGE_FOR_STATE t.state = some "merge")
    (h : rejectedHead s t ctx a = none) : Keeps .mergeRetry a (mergeStageRun s tid t ctx a).1 := by
  cases stageCase s tid t ctx a with
  | unready note run =>
    rw [run]
    exact .refl a
  | several e rest run =>
    rw [run]
    exact (runMultiRepo_counts _ a).keeps_retry (observedMulti_ne_mergeRetry _ _)
  | single run seen rejects =>
    rw [run]
    by_cases hk : NotRetryable ctx.approval.toPollContext
    · exact runSingleRepo_keeps_retry hstate hk
    · obtain ⟨reason, hrejected⟩ := not_forall.1 hk
      rw [rejects, not_not.1 hrejected] at h
      exact runSingleRepo_keeps_of_unasked hstate (Option.map_eq_none_iff.1 h)

/-- A run whose merge is rejected for now. -/
theorem mergeStageRun_rejected {head : String} (h : rejectedHead s t ctx a = some head) :
    count .mergeRetry (mergeStageRun s tid t ctx a).1 = count .mergeRetry a + 1 ∧
      ((mergeStageRun s tid t ctx a).2.nextState = .blocked → MERGE_MAX_RETRIES ≤ count .mergeRetry a + 1) := by
  cases stageCase s tid t ctx a with
  | unready note run seen rejects =>
    rw [rejects] at h
    cases h
  | several e rest run seen rejects =>
    rw [rejects] at h
    cases h
  | single run seen rejects =>
    rw [run]
    rw [rejects] at h
    split at h
    · rename_i reason hrejected
      obtain ⟨pr, hasks, -⟩ := Option.map_eq_some_iff.1 h
      exact runSingleRepo_rejected hasks hrejected
    · cases h

end Stage

end Stages
end RobotsixMill
