import RobotsixMill.Lib.MovingValue
import RobotsixMill.Stages.MergeAttempt

/-!
# `Stages.MergedHead` — the head a poll merges, and the heads it looked at

A poll asks the forge about a branch several times, each time by name: for the status of its pull request, for its
checks, for its files, and last to merge it. Others push in between, and so does the poll itself, to have fresh
checks. The merge names no commit, so the forge merges what the branch is at by then.

- `PolledBranch` — a branch that moves while it is polled, and what the forge answers at each of its heads;
- `Evaluated` — the poll found this head mergeable and green, and let it through the gates;
- `merges_evaluated_iff` — a merged head is evaluated exactly if no push moved the branch since the first answer.
-/

namespace RobotsixMill
namespace Stages
open RobotsixMill.Core Lib

/-! ## The refresh -/

/-- What `_refresh_branch_for_ci` finds and does in the clone. -/
structure RefreshRun where
  /-- There are a clone and a remote to push to. -/
  hasRemote : Bool := false
  /-- The head of the clone is the one of the last refresh. -/
  sentinelCurrent : Bool := false
  /-- The head the rebase onto the target pushed, if it did anything. -/
  rebased : Option String := none
  /-- The head the empty commit pushed, if the clone is level with the remote. -/
  emptyCommit : Option String := none

/-- `_ci_run_in_flight`. -/
def ciRunInFlight (status : CiStatus) : Bool :=
  decide (status.pending ≠ []) ||
    [none, some "", some "pending", some "in_progress", some "queued", some "waiting"].contains status.conclusion

/-- `_refresh_branch_for_ci`: the head it pushes. -/
def refreshBranchForCi (r : RefreshRun) : Option String :=
  if r.sentinelCurrent then none
  else
    match r.rebased with
    | some head => some head
    | none => r.emptyCommit

/-- `_refresh_branch_for_ci_if_idle`: the head it pushes. -/
def refreshBranchForCiIfIdle (r : RefreshRun) (preStatus : Answer CiStatus) : Option String :=
  if r.hasRemote = false then none
  else
    match preStatus with
    | .found status => if ciRunInFlight status then none else refreshBranchForCi r
    | _ => refreshBranchForCi r

/-! ## A branch while it is polled -/

/-- The calls to the forge a merge rests on: `pr_status`, `check_status`, `pr_files` for the gate on paths and
    again for the hash of the diff, `pr_review_status` for an approval, and `merge_pr`. -/
inductive ForgeCall
  | prStatus | checkStatus | prFiles | diffHash | approval | mergePr
deriving DecidableEq, Repr

/-- What the forge answers while a branch is at one head. -/
structure HeadAnswers where
  prStatus : Answer PrStatus := .nothing
  checkStatus : Answer CiStatus := .nothing
  /-- `_auto_merge_eligible`, on the files of this head. -/
  ineligible : Option String := none
  /-- `_compute_pr_diff_hash`. -/
  diffHash : Option String := none

structure PolledBranch where
  /-- The head before the poll. -/
  head : String
  /-- The heads that others push before a call of the poll, since the call before. -/
  pushes : ForgeCall → List String := fun _ => []
  /-- The ones they push before the refresh looks at the checks. -/
  pushesBeforeRefresh : List String := []
  /-- What the refresh is told about the checks. -/
  preStatus : String → Answer CiStatus := fun _ => .nothing
  refresh : RefreshRun := {}
  /-- What a call is told, when the branch is at a head. -/
  answers : ForgeCall → String → HeadAnswers
  /-- The forge merges the pull request of an entry of the manifest. -/
  accepts : Bool := true

/-- The status of the pull request says which head it is about. -/
def atHead (head : String) : Answer PrStatus → Answer PrStatus
  | .found pr => .found { pr with sha := head }
  | answer => answer

section Poll

variable (s : Settings) (t : Ticket) (ctx : MergeStageContext) (a : Artifacts) (i : Nat) (b : PolledBranch)

/-- The order of the calls. -/
def callOrder : List ForgeCall :=
  match a.prUrlsJson with
  | .absent =>
    match t.state with
    | .implementComplete => [.prStatus, .checkStatus, .prFiles, .mergePr]
    | .waitingAutoMerge => [.prStatus, .prFiles, .checkStatus, .mergePr]
    | _ => [.prStatus, .checkStatus, .prFiles, .diffHash, .approval, .mergePr]
  -- the gate is asked without a pull request
  | _ => [.prStatus, .checkStatus, .mergePr]

/-- What is pushed before a call, when the branch is at a head after the call before. -/
def pushedBefore (c : ForgeCall) (head : String) : List String :=
  if c = .checkStatus ∧ a.prUrlsJson = .absent ∧ t.state = .implementComplete then
    let refreshed := refreshBranchForCiIfIdle b.refresh (b.preStatus (written head b.pushesBeforeRefresh))
    b.pushesBeforeRefresh ++ refreshed.toList ++ b.pushes .checkStatus
  else b.pushes c

/-- The head a call is about. -/
def headAt (c : ForgeCall) : String := valueAt (pushedBefore t a b) b.head (callOrder t a) c

/-- What the poll of the one pull request finds. -/
def polledApproval : ApprovalContext :=
  { ctx.approval with
    prStatus := atHead (headAt t a b .prStatus) (b.answers .prStatus (headAt t a b .prStatus)).prStatus
    checkStatus := (b.answers .checkStatus (headAt t a b .checkStatus)).checkStatus
    ineligible := (b.answers .prFiles (headAt t a b .prFiles)).ineligible
    diffHash := (b.answers .diffHash (headAt t a b .diffHash)).diffHash }

/-- What the poll of the manifest finds, when the branch is that of its `i`-th entry. -/
def polledManifest : MultiRepoContext :=
  { ctx.multiRepo with
    repos := fun j =>
      if j = i then
        { ctx.multiRepo.repos j with
          prStatus := atHead (headAt t a b .prStatus) (b.answers .prStatus (headAt t a b .prStatus)).prStatus
          checkStatus := (b.answers .checkStatus (headAt t a b .checkStatus)).checkStatus }
      else ctx.multiRepo.repos j }

/-- A poll of the manifest asks the forge to merge its `i`-th entry: everything is merged or green, no review is
    against it, and the gates of the configuration are open. -/
def asksMergeOf (multiRepo : MultiRepoContext) (entries : List PrEntry) : Bool :=
  let pairs := answered multiRepo entries
  !multiRepo.rateLimited && (pairs.all fun x => x.2.known) &&
    (pairs.all fun x => decide (repoStatus x.1 x.2 ∈ [RepoStatus.merged, .green])) &&
    (requestedChanges s (withStatus .green (pairs.map fun x => surveyed x.1 x.2)) a).2.isNone &&
    multiRepo.ineligible.isNone && (pairs[i]?.any fun x => decide (repoStatus x.1 x.2 = .green))

/-- The poll merges the branch. -/
def Merges : Prop :=
  ctx.forgeConfigured = true ∧ ctx.tokenError = none ∧
    match a.prUrlsJson with
    | .absent => (asksMerge s t (polledApproval t ctx a b) a).isSome = true ∧ ctx.approval.mergePr = .merged
    | .ok entries => asksMergeOf s a i (polledManifest t ctx a i b) entries = true ∧ b.accepts = true
    | .corrupt => False

/-- The forge merges the head the branch is at when it is asked. -/
def MergedHead (head : String) : Prop := Merges s t ctx a i b ∧ head = headAt t a b .mergePr

/-! ## What a poll evaluates -/

/-- The gate on sensitive paths is waived for this head. -/
structure WaivedAt (head : String) : Prop where
  waiting : t.state = .humanMrApproval
  onlyPaths : ctx.approval.ineligibleOtherwise = none
  hashed : headAt t a b .diffHash = head
  approved : ∃ hash, (b.answers .diffHash head).diffHash = some hash ∧
    (a.approvedDiffHashTxt.map strip = some hash ∨
      (headAt t a b .approval = head ∧ ∃ rs, ctx.approval.approval = .found rs ∧ rs.state = "APPROVED"))

/-- The poll found this head mergeable and green, and let it through the gates. -/
structure Evaluated (head : String) : Prop where
  mergeable : headAt t a b .prStatus = head ∧
    ∃ pr, (b.answers .prStatus head).prStatus = .found pr ∧ pr.mergeable ≠ some false
  green : headAt t a b .checkStatus = head ∧
    ∃ status, (b.answers .checkStatus head).checkStatus = .found status ∧ status.conclusion = some "success"
  gated : .prFiles ∈ callOrder t a ∧ headAt t a b .prFiles = head ∧
    ((b.answers .prFiles head).ineligible = none ∨ WaivedAt t ctx a b head)

/-- The calls the poll makes: the second look at the files, and the one for an approval, only when the gate on
    paths is shut and the hash that is stored another one. -/
def makesCall (c : ForgeCall) : Bool :=
  match c with
  | .diffHash => (polledApproval t ctx a b).ineligible.isSome && ctx.approval.ineligibleOtherwise.isNone
  | .approval => (polledApproval t ctx a b).ineligible.isSome && ctx.approval.ineligibleOtherwise.isNone &&
      ((polledApproval t ctx a b).diffHash.any fun hash => decide (a.approvedDiffHashTxt.map strip ≠ some hash))
  | _ => true

/-- Since the first answer, whenever the poll makes another call, the pushes have left the branch where it was. -/
def Undisturbed : Prop :=
  ∀ c ∈ (callOrder t a).tail, makesCall t ctx a b c = true →
    Leaves (headAt t a b .prStatus) (writesBefore (pushedBefore t a b) (headAt t a b .prStatus) (callOrder t a).tail c)

/-! ## Which head is merged -/

variable {s t ctx a i b}

/-- The status of the pull request comes first. -/
theorem callOrder_eq : callOrder t a = .prStatus :: (callOrder t a).tail := by
  unfold callOrder
  split
  · split
    · rfl
    · rfl
    · rfl
  · rfl

/-- **A later call is about the same head exactly if the pushes since leave the branch there.** -/
theorem headAt_eq_iff {c : ForgeCall} (hc : c ≠ .prStatus) :
    headAt t a b c = headAt t a b .prStatus ↔
      Leaves (headAt t a b .prStatus)
        (writesBefore (pushedBefore t a b) (headAt t a b .prStatus) (callOrder t a).tail c) := by
  unfold headAt
  rw [callOrder_eq]
  exact valueAt_eq_iff _ hc.symm _ _

/-- The calls a poll is undisturbed at. -/
theorem undisturbed_iff : Undisturbed t ctx a b ↔
    ∀ c ∈ callOrder t a, makesCall t ctx a b c = true → headAt t a b c = headAt t a b .prStatus := by
  unfold Undisturbed
  rw [callOrder_eq (t := t) (a := a), List.forall_mem_cons, List.tail_cons]
  constructor
  · intro h
    refine ⟨fun _ => rfl, fun c hc hmakes => ?_⟩
    by_cases hfirst : c = .prStatus
    · rw [hfirst]
    · exact (headAt_eq_iff hfirst).2 (h c hc hmakes)
  · rintro ⟨-, h⟩ c hc hmakes
    have hlater : c ≠ .prStatus := by
      rintro rfl
      revert hc
      unfold callOrder
      split
      · split
        · decide
        · decide
        · decide
      · decide
    exact (headAt_eq_iff hlater).1 (h c hc hmakes)

theorem mergePr_mem_callOrder : .mergePr ∈ callOrder t a := by
  unfold callOrder
  split
  · split
    · decide
    · decide
    · decide
  · decide

/-- Only a poll of one pull request reads its files. -/
theorem absent_of_prFiles (h : .prFiles ∈ callOrder t a) (hmerges : Merges s t ctx a i b) :
    a.prUrlsJson = .absent := by
  cases hmanifest : a.prUrlsJson with
  | absent => rfl
  | corrupt =>
    obtain ⟨-, -, hmerge⟩ := hmerges
    rw [hmanifest] at hmerge
    exact hmerge.elim
  | ok entries =>
    unfold callOrder at h
    rw [hmanifest] at h
    simp at h

/-- A head that is merged and evaluated was not pushed away in between. -/
theorem undisturbed_of_evaluated (h : Evaluated t ctx a b (headAt t a b .mergePr)) : Undisturbed t ctx a b := by
  obtain ⟨⟨hstatus, -⟩, ⟨hchecks, -⟩, -, hfiles, hgate⟩ := h
  rw [undisturbed_iff]
  have hwaived (hshut : (polledApproval t ctx a b).ineligible.isSome = true) :
      WaivedAt t ctx a b (headAt t a b .mergePr) := by
    rcases hgate with hnone | hwaived
    · have hineligible : (polledApproval t ctx a b).ineligible =
          (b.answers .prFiles (headAt t a b .prFiles)).ineligible := rfl
      rw [hineligible, hfiles, hnone] at hshut
      cases hshut
    · exact hwaived
  intro c hc hmakes
  rw [hstatus]
  cases c with
  | prStatus => exact hstatus
  | checkStatus => exact hchecks
  | prFiles => exact hfiles
  | mergePr => rfl
  | diffHash => exact (hwaived (Bool.and_eq_true_iff.1 hmakes).1).hashed
  | approval =>
    obtain ⟨hshut, hother⟩ := Bool.and_eq_true_iff.1 hmakes
    obtain ⟨hash, hhash, hstored | ⟨happroval, -⟩⟩ := (hwaived (Bool.and_eq_true_iff.1 hshut).1).approved
    · -- the stored hash is enough, and the approval is not asked for
      have hsame : (polledApproval t ctx a b).diffHash = some hash := by
        have hcomputed : (polledApproval t ctx a b).diffHash =
            (b.answers .diffHash (headAt t a b .diffHash)).diffHash := rfl
        rw [hcomputed, (hwaived (Bool.and_eq_true_iff.1 hshut).1).hashed, hhash]
      rw [hsame, hstored] at hother
      simp at hother
    · exact happroval

/-- The answer the poll has about the pull request is the one for its first head. -/
theorem found_of_atHead {head : String} {answer : Answer PrStatus} {pr : PrStatus}
    (h : atHead head answer = .found pr) : ∃ pr', answer = .found pr' ∧ pr'.mergeable = pr.mergeable := by
  cases answer with
  | raised => cases h
  | nothing => cases h
  | found pr' =>
    obtain rfl : { pr' with sha := head } = pr := Answer.found.inj h
    exact ⟨pr', rfl, rfl⟩

/-- No poll merges a pull request that conflicts. -/
theorem mergeable_of_goes {approval : ApprovalContext} {pr : PrStatus}
    (h : stopsBeforeChecks s t approval a pr = false) : pr.mergeable ≠ some false := by
  unfold stopsBeforeChecks at h
  intro hconflict
  split at h
  · simp [hconflict] at h
  · simp [hconflict] at h
  · simp [hconflict] at h
  · cases h

/-- What the skip of the gate on paths saw. -/
theorem trySkip_eq_true {approval : ApprovalContext} (h : (trySkipSensitivePathForApprovedDiff approval a).2 = true) :
    approval.ineligibleOtherwise = none ∧ ∃ hash, approval.diffHash = some hash ∧
      (a.approvedDiffHashTxt.map strip = some hash ∨
        (a.approvedDiffHashTxt.map strip ≠ some hash ∧
          ∃ rs, approval.approval = .found rs ∧ rs.state = "APPROVED")) := by
  cases skipCase approval a with
  | held result =>
    rw [result] at h
    cases h
  | stored hash onlyPaths current same => exact ⟨onlyPaths, hash, current, .inl same⟩
  | approved hash rs onlyPaths current other review state =>
    exact ⟨onlyPaths, hash, current, .inr ⟨other, rs, review, state⟩⟩

/-- The two reads behind the waiver are calls of a poll that waits for a human. -/
theorem mem_callOrder_of_waiting (habsent : a.prUrlsJson = .absent) (hstate : t.state = .humanMrApproval) :
    .diffHash ∈ callOrder t a ∧ .approval ∈ callOrder t a := by
  unfold callOrder
  rw [habsent, hstate]
  decide

/-- A merged head was evaluated, if no push moved the branch. -/
theorem evaluated_of_undisturbed (hmerges : Merges s t ctx a i b) (habsent : a.prUrlsJson = .absent)
    (h : Undisturbed t ctx a b) : Evaluated t ctx a b (headAt t a b .mergePr) := by
  rw [undisturbed_iff] at h
  obtain ⟨-, -, hmerge⟩ := hmerges
  rw [habsent] at hmerge
  obtain ⟨pr, hasks⟩ := Option.isSome_iff_exists.1 hmerge.1
  obtain ⟨status, hseen, hgreen, hgates⟩ := asksMerge_eq_some.1 hasks
  obtain ⟨-, hopen, hgoes, hcheck⟩ := checksSeen_eq_some.1 hseen
  have hlast : headAt t a b .mergePr = headAt t a b .prStatus := h _ mergePr_mem_callOrder rfl
  rw [hlast]
  have hchecks : headAt t a b .checkStatus = headAt t a b .prStatus := by
    refine h _ ?_ rfl
    unfold callOrder
    split
    · split
      · decide
      · decide
      · decide
    · decide
  have hmem : ForgeCall.prFiles ∈ callOrder t a := by
    unfold callOrder
    rw [habsent]
    dsimp only
    split
    · decide
    · decide
    · decide
  have hfiles : headAt t a b .prFiles = headAt t a b .prStatus := h _ hmem rfl
  refine ⟨⟨rfl, ?_⟩, ⟨hchecks, status, ?_, ?_⟩, hmem, hfiles, ?_⟩
  · obtain ⟨pr', hanswer, hsame⟩ := found_of_atHead (openPr_eq_some.1 hopen).1
    exact ⟨pr', hanswer, hsame ▸ mergeable_of_goes hgoes⟩
  · rw [← hchecks]
    exact hcheck
  · unfold ciTrulyGreen at hgreen
    exact of_decide_eq_true (Bool.and_eq_true_iff.1 hgreen).1
  · rcases Bool.or_eq_true_iff.1 hgates with hopen | hskips
    · refine .inl ?_
      rw [← hfiles]
      exact Option.isNone_iff_eq_none.1 hopen
    · by_cases hnone : (b.answers .prFiles (headAt t a b .prStatus)).ineligible = none
      · exact .inl hnone
      · right
        obtain ⟨hwaiting, hskip⟩ := Bool.and_eq_true_iff.1 hskips
        have hstate := of_decide_eq_true hwaiting
        obtain ⟨hother, hash, hhash, happroved⟩ := trySkip_eq_true hskip
        obtain ⟨hmemHash, hmemApproval⟩ := mem_callOrder_of_waiting habsent hstate
        have hshut : (polledApproval t ctx a b).ineligible.isSome = true := by
          show (b.answers .prFiles (headAt t a b .prFiles)).ineligible.isSome = true
          rw [hfiles]
          exact Option.isSome_iff_ne_none.2 hnone
        have hnothingElse : ctx.approval.ineligibleOtherwise.isNone = true := Option.isNone_iff_eq_none.2 hother
        have hmakes : makesCall t ctx a b .diffHash = true := Bool.and_eq_true_iff.2 ⟨hshut, hnothingElse⟩
        have hhashed := h _ hmemHash hmakes
        refine ⟨hstate, hother, hhashed, hash, ?_, ?_⟩
        · rw [← hhashed]
          exact hhash
        · rcases happroved with hstored | ⟨hnew, hrs⟩
          · exact .inl hstored
          · refine .inr ⟨h _ hmemApproval ?_, hrs⟩
            refine Bool.and_eq_true_iff.2 ⟨hmakes, ?_⟩
            rw [hhash]
            simpa using hnew

/-- **Only an evaluated head is merged, exactly if** the poll merges nothing, or is one of a single pull request
    and no push has moved the branch at any call since the first answer. -/
theorem merges_evaluated_iff (s : Settings) (t : Ticket) (ctx : MergeStageContext) (a : Artifacts) (i : Nat)
    (b : PolledBranch) :
    (∀ head, MergedHead s t ctx a i b head → Evaluated t ctx a b head) ↔
      (Merges s t ctx a i b → a.prUrlsJson = .absent ∧ Undisturbed t ctx a b) := by
  constructor
  · intro h hmerges
    have hevaluated := h _ ⟨hmerges, rfl⟩
    exact ⟨absent_of_prFiles hevaluated.gated.1 hmerges, undisturbed_of_evaluated hevaluated⟩
  · rintro h head ⟨hmerges, rfl⟩
    obtain ⟨habsent, hundisturbed⟩ := h hmerges
    exact evaluated_of_undisturbed hmerges habsent hundisturbed

end Poll

/-! ## A head no one looked at -/

/-- A poll of `implement_complete` whose clone has a remote. -/
def REFRESHED_TICKET : Ticket := { title := "t", state := .implementComplete, createdAt := 0, updatedAt := 0 }

/-- The checks of the first head are green; the refresh pushes a second one, which has none yet. -/
def REFRESHED_BRANCH : PolledBranch where
  head := "h1"
  refresh := { hasRemote := true, emptyCommit := some "h2" }
  preStatus := fun _ => .found { conclusion := some "success", jobs := ["build"] }
  answers := fun _ head =>
    { prStatus := .found { mergeable := some true, mergeableState := some "clean" }
      checkStatus := .found { conclusion := some "success", jobs := if head = "h1" then ["build"] else [] } }

/-- The second head is merged, and nobody asked whether it could be. -/
theorem refreshed_head_merged :
    ¬ ∀ (s : Settings) (t : Ticket) (ctx : MergeStageContext) (a : Artifacts) (i : Nat) (b : PolledBranch) (head : String),
      MergedHead s t ctx a i b head → Evaluated t ctx a b head := by
  intro h
  have hmerged : MergedHead {} REFRESHED_TICKET {} {} 0 REFRESHED_BRANCH "h2" :=
    ⟨⟨rfl, rfl, rfl, rfl⟩, rfl⟩
  have hstatus := (h _ _ _ _ _ _ _ hmerged).mergeable.1
  have hfirst : headAt REFRESHED_TICKET {} REFRESHED_BRANCH .prStatus = "h1" := rfl
  rw [hfirst] at hstatus
  revert hstatus
  decide

end Stages
end RobotsixMill
