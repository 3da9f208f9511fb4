import RobotsixMill.Lib.Runs
import RobotsixMill.Stages.MergeStage

/-!
# `Stages.RebaseOrigin` — where a rebase returns to

A rebase started from a parked state (`human_mr_approval`, `waiting_auto_merge`) goes back to the merge loop when
it leaves the pull request clean; any other goes back to the poll, where the checks are looked at again. The origin
is a file: the two parked states write it, and the successful rebase reads and removes it. Every other exit from
`rebasing` leaves the file behind, for the next rebase to find.

- `Episode` — the ticket, with the state its stay in `rebasing` was entered from;
- `reusesOrigin` — a stay that is entered from elsewhere while the file still names a parked state;
- `rebase_returns_rightly` — in runs without one, a clean rebase returns where it should.
-/

namespace RobotsixMill
namespace Stages
open RobotsixMill.Core Lib Service

/-! ## The run of a ticket -/

/-- The states an autonomous rebase starts from. -/
def PARKED_STATES : List State := [.humanMrApproval, .waitingAutoMerge]

/-- A ticket of the merge stage. -/
structure Episode where
  state : State
  artifacts : Artifacts := {}
  /-- The state the last stay in `rebasing` was entered from. -/
  enteredFrom : Option State := none

inductive EpisodeEvent
  /-- `MergeStage.run`, and the worker applies what it returns. -/
  | mergeStage (s : Settings) (tid : TicketId) (t : Ticket) (ctx : MergeStageContext)
  /-- Another stage, a resume or an operator. -/
  | elsewhere (files : Artifacts) (dst : State)

/-- The next `_run_rebase` will take the file for an autonomous rebase. -/
def namesParked (a : Artifacts) : Bool :=
  let fromState := strip (a.rebaseFromStateTxt.getD "")
  fromState == State.humanMrApproval.value || fromState == State.waitingAutoMerge.value

namespace Episode

/-- The ticket goes on to `dst`. -/
def goTo (σ : Episode) (files : Artifacts) (dst : State) : Episode where
  state := dst
  artifacts := files
  enteredFrom := if dst = .rebasing ∧ σ.state ≠ .rebasing then some σ.state else σ.enteredFrom

/-- Where the worker leaves a ticket after an outcome: a move that is not allowed is dropped. -/
def applied (src dst : State) : State := if dst ∈ allowedFrom src then dst else src

def advance (σ : Episode) : EpisodeEvent → Episode
  | .mergeStage s tid t ctx =>
    let ran := mergeStageRun s tid t ctx σ.artifacts
    σ.goTo ran.1 (applied σ.state ran.2.nextState)
  | .elsewhere files dst => σ.goTo files dst

/-- The event can happen. -/
inductive Enabled (σ : Episode) : EpisodeEvent → Prop
  | mergeStage {s : Settings} {tid : TicketId} {t : Ticket} {ctx : MergeStageContext}
      (same : t.state = σ.state) (here : STAGE_FOR_STATE σ.state = some "merge") :
      Enabled σ (.mergeStage s tid t ctx)
  | elsewhere {files : Artifacts} {dst : State}
      (left : files.rebaseFromStateTxt = σ.artifacts.rebaseFromStateTxt ∨ files.rebaseFromStateTxt = none) :
      Enabled σ (.elsewhere files dst)

def Step (σ : Episode) (e : EpisodeEvent) (σ' : Episode) : Prop := σ.Enabled e ∧ σ' = σ.advance e

/-- The files as the event finds them; another stage brings its own. -/
def filesAt (σ : Episode) : EpisodeEvent → Artifacts
  | .mergeStage _ _ _ _ => σ.artifacts
  | .elsewhere files _ => files

/-- A rebase is entered from a state that is not parked, and the file of an earlier one is still there. -/
def reusesOrigin (σ : Episode) (e : EpisodeEvent) : Bool :=
  decide ((σ.advance e).state = .rebasing) && decide (σ.state ≠ .rebasing) &&
    !PARKED_STATES.contains σ.state && namesParked (σ.filesAt e)

end Episode

/-- The ticket has one pull request, and the rebase goes through and leaves it clean. -/
structure RebasesCleanly (ctx : MergeStageContext) (a : Artifacts) : Prop where
  configured : ctx.forgeConfigured = true ∧ ctx.tokenError = none
  single : a.prUrlsJson = .absent
  needed : alreadyClean ctx.rebase = false
  succeeds : ctx.rebase.hasClone = true ∧ ctx.rebase.diverged = false ∧ ctx.rebase.ok = true
  landed : ctx.rebase.postPush = .pass
  kept : ∀ dropped siblingLikely, ctx.rebase.integrity ≠ .failed dropped siblingLikely
  clean : ∃ pr, ctx.rebase.prAfter = some pr ∧ isClean pr = true

/-- **Where a clean rebase may lead**: to a parked state only if the stay was entered from one, else to the poll. -/
structure ReturnsRightly (σ : Episode) (next : State) : Prop where
  parked : next ∈ PARKED_STATES → ∃ src ∈ PARKED_STATES, σ.enteredFrom = some src
  otherwise : (¬ ∃ src ∈ PARKED_STATES, σ.enteredFrom = some src) → next = .implementComplete

/-! ## What leaves the file alone -/

section Keeps

variable {s : Settings} {tid : TicketId} {t : Ticket}

/-- The file is as it was. -/
def KeepsOrigin (a b : Artifacts) : Prop := b.rebaseFromStateTxt = a.rebaseFromStateTxt

theorem KeepsOrigin.refl (a : Artifacts) : KeepsOrigin a a := rfl

theorem KeepsOrigin.trans {a b c : Artifacts} (h : KeepsOrigin a b) (h' : KeepsOrigin b c) : KeepsOrigin a c :=
  Eq.trans h' h

theorem KeepsOrigin.fst {α : Type} {a b : Artifacts} {res : Artifacts × α} {x : α} (h : KeepsOrigin a res.1)
    (hres : res = (b, x)) : KeepsOrigin a b := by
  rw [hres] at h
  exact h

theorem KeepsOrigin.namesParked {a b : Artifacts} (h : KeepsOrigin a b) : namesParked b = namesParked a := by
  unfold Stages.namesParked
  rw [show b.rebaseFromStateTxt = a.rebaseFromStateTxt from h]

theorem checkPrBaseline_keepsOrigin (poll : PollContext) (branch : String) (sameState : State) (a : Artifacts) :
    KeepsOrigin a (checkPrBaseline s t poll branch sameState a).1 := by
  unfold checkPrBaseline
  cases poll.prStatus with
  | raised => exact .refl a
  | nothing =>
    dsimp only
    repeat' split
    all_goals exact rfl
  | found pr =>
    dsimp only
    repeat' split
    all_goals exact rfl

theorem mergeRejectionOutcome_keepsOrigin (reason : String) (retryable : Bool) (sameState : State) (a : Artifacts) :
    KeepsOrigin a (mergeRejectionOutcome reason retryable sameState a).1 := by
  unfold mergeRejectionOutcome
  dsimp only
  repeat' split
  all_goals exact rfl

theorem checkPingPong_keepsOrigin (routingTo : String) (a : Artifacts) :
    KeepsOrigin a (checkPingPong s tid routingTo a).1 := by
  unfold checkPingPong
  dsimp only
  repeat' split
  all_goals exact rfl

theorem handleCiFailureRoute_keepsOrigin (poll : PollContext) (status : CiStatus) (a : Artifacts) :
    KeepsOrigin a (handleCiFailureRoute s tid t poll status a).1 := by
  unfold handleCiFailureRoute
  dsimp only
  split
  · exact .refl a
  · split
    · exact .refl a
    · split
      · exact rfl
      · have hcounted : KeepsOrigin a
            { a with autoFixCyclesTxt := some (toString (readCounter a.autoFixCyclesTxt + 1)) } := rfl
        split
        · rename_i hres
          exact hcounted.trans ((checkPingPong_keepsOrigin "ci_fix" _).fst hres)
        · rename_i hres
          exact hcounted.trans ((checkPingPong_keepsOrigin "ci_fix" _).fst hres)

theorem mergeOrPromoteWhenGreen_keepsOrigin (poll : PollContext) (pr : PrStatus) (a : Artifacts) :
    KeepsOrigin a (mergeOrPromoteWhenGreen poll pr a).1 := by
  unfold mergeOrPromoteWhenGreen
  dsimp only
  split
  · exact rfl
  · split
    · split
      · exact rfl
      · exact rfl
    · exact (mergeRejectionOutcome_keepsOrigin _ _ _ _)

theorem checkEmptyRollup_keepsOrigin (poll : PollContext) (pr : PrStatus) (branch : String) (status : CiStatus)
    (a : Artifacts) : KeepsOrigin a (checkEmptyRollup s poll pr branch status a).1 := by
  unfold checkEmptyRollup
  dsimp only
  split
  · exact .refl a
  · exact .refl a
  · split
    · exact rfl
    · split
      · exact rfl
      · split
        · exact rfl
        · split
          · exact rfl
          · exact rfl

theorem checkGreenUnpromotable_keepsOrigin (poll : PollContext) (pr : PrStatus) (branch : String) (status : CiStatus)
    (a : Artifacts) : KeepsOrigin a (checkGreenUnpromotable s poll pr branch status a).1 := by
  unfold checkGreenUnpromotable
  dsimp only
  split
  · exact rfl
  · split
    · exact checkEmptyRollup_keepsOrigin poll pr branch status a
    · split
      · exact .refl a
      · split
        · exact rfl
        · exact rfl

/-- **A poll of the checks keeps the file.** -/
theorem pollImplementComplete_keepsOrigin (poll : PollContext) (a : Artifacts) :
    KeepsOrigin a (pollImplementComplete s tid t poll a).1 := by
  unfold pollImplementComplete
  dsimp only
  split
  · exact .refl a
  · split
    · rename_i hbase
      exact (checkPrBaseline_keepsOrigin poll _ _ a).fst hbase
    · rename_i b pr hbase
      have hb : KeepsOrigin a b := (checkPrBaseline_keepsOrigin poll _ _ a).fst hbase
      have hreset : KeepsOrigin a { b with rebaseAttemptsTxt := some "0" } := hb
      split
      · exact hb
      · split
        · exact hreset
        · split
          · exact hreset
          · exact hreset
          · split
            · exact hreset.trans (handleCiFailureRoute_keepsOrigin poll _ _)
            · split
              · exact hreset.trans (mergeOrPromoteWhenGreen_keepsOrigin poll pr _)
              · split
                · exact hreset
                · split
                  · rename_i hres
                    exact hreset.trans ((checkGreenUnpromotable_keepsOrigin poll pr _ _ _).fst hres)
                  · rename_i hres
                    exact hreset.trans ((checkGreenUnpromotable_keepsOrigin poll pr _ _ _).fst hres)

/-! ### Several repositories -/

theorem reviewChangesRequestedOutcome_keepsOrigin (review : Answer ReviewStatus) (prHeadSha : String) (a : Artifacts) :
    KeepsOrigin a (reviewChangesRequestedOutcome s review prHeadSha a).1 := by
  obtain ⟨-, feedback, note, heq⟩ | ⟨-, heq⟩ := reviewChangesRequestedOutcome_spec s review prHeadSha a
  · rw [heq]
    exact rfl
  · rw [heq]
    exact .refl a

theorem surveyRepos_keepsOrigin (pairs : List (PrEntry × RepoAnswers)) (a : Artifacts) :
    KeepsOrigin a (surveyRepos pairs a).1 := by
  induction pairs generalizing a with
  | nil => exact .refl a
  | cons x rest ih =>
    obtain ⟨e, r⟩ := x
    rw [surveyRepos]
    by_cases hknown : r.known = false
    · rw [if_pos hknown]
      exact .refl a
    · rw [if_neg hknown]
      have hhead : KeepsOrigin a
          (if repoStatus e r = .green then writeRepoCounter a (ciFixCycles e.repoId) 0 else a) := by
        split
        · exact rfl
        · exact .refl a
      dsimp only
      split
      · rename_i hres
        exact hhead.trans ((ih _).fst hres)
      · rename_i hres
        exact hhead.trans ((ih _).fst hres)

theorem settleRecovery_keepsOrigin (what counter repoId : String) (attempt : Int) (run : RecoveryRun) (a : Artifacts) :
    KeepsOrigin a (settleRecovery t what counter repoId attempt run a).1 := by
  unfold settleRecovery
  dsimp only
  repeat' split
  all_goals exact rfl

theorem multiRepoRebase_keepsOrigin (r : Surveyed) (a : Artifacts) : KeepsOrigin a (multiRepoRebase s t r a).1 := by
  unfold multiRepoRebase
  split
  · exact .refl a
  · dsimp only
    split
    · exact rfl
    · exact settleRecovery_keepsOrigin _ _ _ _ _ a

theorem tryMultiCodeqlFpTriage_keepsOrigin (failing : List FailingCheck) (run : CiFixRun) (a : Artifacts) :
    KeepsOrigin a (tryMultiCodeqlFpTriage s t failing run a).1 := by
  unfold tryMultiCodeqlFpTriage
  dsimp only
  repeat' split
  all_goals exact rfl

theorem attemptCiFix_keepsOrigin (r : Surveyed) (failed : Bool) (failing : List FailingCheck) (a : Artifacts) :
    KeepsOrigin a (attemptCiFix s t r failed failing a).1 := by
  unfold attemptCiFix
  dsimp only
  split
  · exact rfl
  · split
    · split
      · have hreset : KeepsOrigin a (writeRepoCounter a (ciFixCycles r.repoId) 0) := rfl
        split
        · rename_i hres
          exact hreset.trans ((tryMultiCodeqlFpTriage_keepsOrigin _ _ _).fst hres)
        · rename_i hres
          exact hreset.trans ((tryMultiCodeqlFpTriage_keepsOrigin _ _ _).fst hres)
      · exact settleRecovery_keepsOrigin _ _ _ _ _ (writeRepoCounter a (ciFixCycles r.repoId) _)
    · exact settleRecovery_keepsOrigin _ _ _ _ _ a

theorem multiRepoFixCi_keepsOrigin (r : Surveyed) (a : Artifacts) : KeepsOrigin a (multiRepoFixCi s t r a).1 := by
  unfold multiRepoFixCi
  dsimp only
  split
  · exact .refl a
  · split
    · exact .refl a
    · split
      · exact rfl
      · split
        · split
          · exact .refl a
          · split
            · rename_i hres
              exact (tryMultiCodeqlFpTriage_keepsOrigin _ _ a).fst hres
            · rename_i hres
              exact ((tryMultiCodeqlFpTriage_keepsOrigin _ _ a).fst hres).trans (attemptCiFix_keepsOrigin r true _ _)
        · exact attemptCiFix_keepsOrigin r false _ a

theorem requestedChanges_keepsOrigin (green : List Surveyed) (a : Artifacts) :
    KeepsOrigin a (requestedChanges s green a).1 := by
  induction green generalizing a with
  | nil => exact .refl a
  | cons r rest ih =>
    rw [requestedChanges]
    split
    · rename_i hres
      exact (reviewChangesRequestedOutcome_keepsOrigin _ _ a).fst hres
    · rename_i hres
      exact ((reviewChangesRequestedOutcome_keepsOrigin _ _ a).fst hres).trans (ih _)

theorem multiRepoAutoMerge_keepsOrigin (multiRepo : MultiRepoContext) (green : List Surveyed) (a : Artifacts) :
    KeepsOrigin a (multiRepoAutoMerge s t multiRepo green a).1 := by
  unfold multiRepoAutoMerge
  split
  · rename_i hres
    exact (requestedChanges_keepsOrigin green a).fst hres
  · rename_i hres
    split
    · exact (requestedChanges_keepsOrigin green a).fst hres
    · exact (requestedChanges_keepsOrigin green a).fst hres

theorem aggregate_keepsOrigin (multiRepo : MultiRepoContext) (statuses : List Surveyed) (a : Artifacts) :
    KeepsOrigin a (aggregate s t multiRepo statuses a).1 := by
  have hcleared : KeepsOrigin a { a with prMissingPollsTxt := some "0" } := rfl
  unfold aggregate
  dsimp only
  split
  · exact .refl a
  · split
    · exact hcleared.trans (multiRepoRebase_keepsOrigin _ _)
    · split
      · exact hcleared.trans (multiRepoFixCi_keepsOrigin _ _)
      · split
        · exact rfl
        · split
          · exact multiRepoAutoMerge_keepsOrigin multiRepo _ a
          · split
            · unfold countMissingPr
              dsimp only
              repeat' split
              all_goals exact rfl
            · exact hcleared

/-- **So does a poll of the manifest.** -/
theorem runMultiRepo_keepsOrigin (multiRepo : MultiRepoContext) (entries : List PrEntry) (a : Artifacts) :
    KeepsOrigin a (runMultiRepo s t multiRepo entries a).1 := by
  unfold runMultiRepo
  split
  · exact .refl a
  · split
    · rename_i hres
      exact (surveyRepos_keepsOrigin _ a).fst hres
    · rename_i hres
      exact ((surveyRepos_keepsOrigin _ a).fst hres).trans (aggregate_keepsOrigin multiRepo _ _)

/-! ### A rebase -/

/-- A rebase that went through is not tried again. -/
theorem afterVerifiedPush_leaves (rebase : RebaseContext) (attempt : Int) (a : Artifacts) :
    (afterVerifiedPush s rebase attempt a).2.nextState ≠ .rebasing := by
  unfold afterVerifiedPush
  dsimp only
  repeat' split
  all_goals
    intro h
    cases h

theorem handleRebaseSuccess_leaves (rebase : RebaseContext) (attempt : Int) (a : Artifacts) :
    (handleRebaseSuccess s rebase attempt a).2.nextState ≠ .rebasing := by
  unfold handleRebaseSuccess
  dsimp only
  split
  · split
    · intro h
      cases h
    · exact afterVerifiedPush_leaves rebase attempt _
    · exact afterVerifiedPush_leaves rebase attempt a
  all_goals
    intro h
    cases h

/-- A rebase that is tried again keeps the file. -/
theorem runRebase_keepsOrigin (rebase : RebaseContext) (a : Artifacts)
    (hstays : (runRebase s rebase a).2.nextState = .rebasing) : KeepsOrigin a (runRebase s rebase a).1 := by
  unfold runRebase at hstays ⊢
  split
  · exact rfl
  · rename_i hneeded
    rw [if_neg hneeded] at hstays
    unfold handleConflict at hstays ⊢
    dsimp only at hstays ⊢
    split
    · exact .refl a
    · rename_i hclone
      rw [if_neg hclone] at hstays
      split
      · exact .refl a
      · rename_i hdiverged
        rw [if_neg hdiverged] at hstays
        split
        · rename_i hok
          rw [if_pos hok] at hstays
          exact absurd hstays (handleRebaseSuccess_leaves rebase _ a)
        · unfold handleRebaseFailure
          split
          · exact rfl
          · exact rfl

end Keeps

/-! ## The invariant -/

/-- In a stay in `rebasing` the file names a parked state only if the stay was entered from one. -/
def OriginSound (σ : Episode) : Prop :=
  σ.state = .rebasing → namesParked σ.artifacts = true → ∃ src ∈ PARKED_STATES, σ.enteredFrom = some src

theorem namesParked_of_none {a : Artifacts} (h : a.rebaseFromStateTxt = none) : namesParked a = false := by
  unfold namesParked
  rw [h]
  decide

/-- Unless it runs on a parked ticket, the stage enters and goes on with a rebase without touching the file. -/
theorem mergeStageRun_keepsOrigin {s : Settings} {tid : TicketId} {t : Ticket} {ctx : MergeStageContext} {a : Artifacts}
    (hstate : STAGE_FOR_STATE t.state = some "merge") (hparked : t.state ∉ PARKED_STATES)
    (hdst : Episode.applied t.state (mergeStageRun s tid t ctx a).2.nextState = .rebasing) :
    KeepsOrigin a (mergeStageRun s tid t ctx a).1 := by
  unfold mergeStageRun at hdst ⊢
  split
  · exact .refl a
  · rename_i hforge
    rw [if_neg hforge] at hdst
    split
    · exact .refl a
    · rename_i htoken
      rw [htoken] at hdst
      dsimp only at hdst
      split
      · exact .refl a
      · exact .refl a
      · exact runMultiRepo_keepsOrigin ctx.multiRepo _ a
      · rename_i hsingle
        rw [hsingle] at hdst
        have hmoves := runSingleRepo_moves s tid t ctx hstate a
        have hnext : (runSingleRepo s tid t ctx a).2.nextState = .rebasing := by
          rw [Episode.applied, if_pos hmoves] at hdst
          exact hdst
        unfold runSingleRepo at hnext ⊢
        rcases mergeStage_states hstate with h | h | h | h | h
        · rw [h]
          exact pollImplementComplete_keepsOrigin _ a
        · exact absurd (by rw [h]; decide) hparked
        · exact absurd (by rw [h]; decide) hparked
        · rw [h] at hnext ⊢
          exact runRebase_keepsOrigin ctx.rebase a hnext
        · -- a revision never leads to a rebase
          rw [h] at hnext
          have hrevised := runReviewRevision_moves s ctx.revision a
          dsimp only at hnext
          rw [hnext] at hrevised
          exact absurd hrevised (by decide)

/-- **Every step that does not reuse the file of an earlier rebase keeps the invariant.** -/
theorem OriginSound.step {σ σ' : Episode} {e : EpisodeEvent} (h : OriginSound σ) (hs : σ.Step e σ')
    (hfresh : σ.reusesOrigin e = false) : OriginSound σ' := by
  obtain ⟨henabled, rfl⟩ := hs
  -- what is left to show of a step that ends in `rebasing`
  have hgo : ∀ (files : Artifacts) (dst : State), σ.advance e = σ.goTo files dst →
      (σ.state ∉ PARKED_STATES → dst = .rebasing → namesParked files = true →
        σ.state = .rebasing ∧ namesParked σ.artifacts = true) → OriginSound (σ.advance e) := by
    intro files dst heq hkept hdst hnames
    rw [heq] at hdst hnames ⊢
    have hdst : dst = .rebasing := hdst
    show ∃ src ∈ PARKED_STATES, (if dst = .rebasing ∧ σ.state ≠ .rebasing then some σ.state else σ.enteredFrom) = some src
    by_cases hparked : σ.state ∈ PARKED_STATES
    · have hne : σ.state ≠ .rebasing := by
        intro hstay
        rw [hstay] at hparked
        exact absurd hparked (by decide)
      exact ⟨σ.state, hparked, if_pos ⟨hdst, hne⟩⟩
    · obtain ⟨hstay, hnamed⟩ := hkept hparked hdst hnames
      rw [if_neg fun hand => hand.2 hstay]
      exact h hstay hnamed
  -- a stay that is entered from elsewhere finds no file
  have hentered : (σ.advance e).state = .rebasing → σ.state ∉ PARKED_STATES → namesParked (σ.filesAt e) = true →
      σ.state = .rebasing := by
    intro hdst hparked hnames
    by_contra hne
    have hcontains : PARKED_STATES.contains σ.state = false := by
      rw [← Bool.not_eq_true, List.contains_iff_mem]
      exact hparked
    unfold Episode.reusesOrigin at hfresh
    rw [decide_eq_true hdst, decide_eq_true hne, hcontains, hnames] at hfresh
    cases hfresh
  cases henabled with
  | @mergeStage s tid t ctx same here =>
    apply hgo (mergeStageRun s tid t ctx σ.artifacts).1 _ rfl
    intro hparked hdst hnames
    have hkeeps : KeepsOrigin σ.artifacts (mergeStageRun s tid t ctx σ.artifacts).1 :=
      mergeStageRun_keepsOrigin (by rw [same]; exact here) (by rw [same]; exact hparked) (by rw [same]; exact hdst)
    rw [hkeeps.namesParked] at hnames
    exact ⟨hentered hdst hparked hnames, hnames⟩
  | @elsewhere files dst left =>
    apply hgo files dst rfl
    intro hparked hdst hnames
    rcases left with hsame | hnone
    · exact ⟨hentered hdst hparked hnames, KeepsOrigin.namesParked hsame ▸ hnames⟩
    · rw [namesParked_of_none hnone] at hnames
      cases hnames

/-! ## Where a rebase leads -/

/-- Where a clean rebase leads, by the file it finds. -/
def cleanReturn (ineligible : Option String) (named : Bool) : State :=
  if named then
    match ineligible with
    | none => .waitingAutoMerge
    | some _ => .humanMrApproval
  else .implementComplete

/-- The worker applies it. -/
theorem applied_cleanReturn (ineligible : Option String) (named : Bool) :
    Episode.applied .rebasing (cleanReturn ineligible named) = cleanReturn ineligible named := by
  have hallowed : ∀ st ∈ [State.implementComplete, .waitingAutoMerge, .humanMrApproval], st ∈ allowedFrom .rebasing := by
    decide
  apply if_pos
  cases named with
  | false => exact hallowed .implementComplete (by simp)
  | true =>
    cases ineligible with
    | none => exact hallowed .waitingAutoMerge (by simp)
    | some reason => exact hallowed .humanMrApproval (by simp)

theorem nextState_of_rebasesCleanly (s : Settings) (tid : TicketId) {t : Ticket} {ctx : MergeStageContext}
    {a : Artifacts} (hstate : t.state = .rebasing) (h : RebasesCleanly ctx a) :
    (mergeStageRun s tid t ctx a).2.nextState = cleanReturn ctx.rebase.ineligible (namesParked a) := by
  have hverified : ∀ (attempt : Int) (b : Artifacts), b.rebaseFromStateTxt = a.rebaseFromStateTxt →
      (afterVerifiedPush s ctx.rebase attempt b).2.nextState = cleanReturn ctx.rebase.ineligible (namesParked a) := by
    intro attempt b hb
    obtain ⟨pr, hpr, hclean⟩ := h.clean
    unfold afterVerifiedPush cleanReturn namesParked
    rw [hpr, hb]
    dsimp only
    rw [if_pos hclean]
    simp only [Bool.or_eq_true, beq_iff_eq]
    split
    · cases ctx.rebase.ineligible <;> rfl
    · rfl
  have hrun : mergeStageRun s tid t ctx a = runRebase s ctx.rebase a := by
    unfold mergeStageRun runSingleRepo
    rw [if_neg (by rw [h.configured.1]; decide), h.configured.2, h.single, hstate]
  rw [hrun, runRebase, if_neg (by rw [h.needed]; decide), handleConflict, if_neg (by rw [h.succeeds.1]; decide)]
  dsimp only
  rw [if_neg (by rw [h.succeeds.2.1]; decide), if_pos h.succeeds.2.2, handleRebaseSuccess, h.landed]
  dsimp only
  cases hintegrity : ctx.rebase.integrity with
  | skipped => exact hverified _ a rfl
  | passed => exact hverified _ _ rfl
  | failed dropped siblingLikely => exact absurd hintegrity (h.kept dropped siblingLikely)

/-- **The return of a rebase.** In a run in which no stay in `rebasing` is entered from elsewhere over the file of
    an autonomous rebase, a clean rebase goes to a parked state only if its stay was entered from one, and to the
    poll otherwise. -/
theorem rebase_returns_rightly {σ₀ σ : Episode} {l : List EpisodeEvent} (hstart : σ₀.state ≠ .rebasing)
    (hrun : Run (Guarded (fun σ e => σ.reusesOrigin e = false) Episode.Step) σ₀ l σ) {s : Settings} {tid : TicketId}
    {t : Ticket} {ctx : MergeStageContext} (hsame : t.state = σ.state) (hstate : σ.state = .rebasing)
    (hclean : RebasesCleanly ctx σ.artifacts) :
    ReturnsRightly σ (σ.advance (.mergeStage s tid t ctx)).state := by
  have hsound : OriginSound σ := by
    refine hrun.invariant (I := OriginSound) (fun _ _ _ hi hs => hi.step hs.2 hs.1) ?_
    exact fun hin => absurd hin hstart
  have hnext := nextState_of_rebasesCleanly s tid (hsame.trans hstate) hclean
  have hled : (σ.advance (.mergeStage s tid t ctx)).state =
      cleanReturn ctx.rebase.ineligible (namesParked σ.artifacts) := by
    show Episode.applied σ.state (mergeStageRun s tid t ctx σ.artifacts).2.nextState = _
    rw [hnext, hstate, applied_cleanReturn]
  rw [hled]
  cases hnames : namesParked σ.artifacts with
  | true => exact ⟨fun _ => hsound hstate hnames, fun hnot => absurd (hsound hstate hnames) hnot⟩
  | false => exact ⟨fun hin => absurd hin (show State.implementComplete ∉ PARKED_STATES by decide), fun _ => rfl⟩

/-! ## A file that is left behind -/

/-- The pull request conflicts, and the forge cannot update its branch. -/
def CONFLICT : MergeStageContext where
  approval :=
    { prStatus := .found { mergeable := some false }
      updateBranch := .refused "merge conflict" }

/-- The rebase goes through and leaves the pull request clean. -/
def CLEAN_REBASE : MergeStageContext where
  rebase := { prAfter := some { mergeable := some true, mergeableState := some "clean" } }

/-- The pull request is clean before the rebase. -/
def CLEAN_BEFORE : MergeStageContext where
  rebase := { prBefore := some { mergeable := some true, mergeableState := some "clean" } }

/-- A run of the merge stage on a ticket in `st`. -/
def stageIn (st : State) (ctx : MergeStageContext) : EpisodeEvent :=
  .mergeStage {} "T" { title := "t", state := st, createdAt := 0, updatedAt := 0 } ctx

theorem clean_rebase_cleanly {a : Artifacts} (h : a.prUrlsJson = .absent) : RebasesCleanly CLEAN_REBASE a where
  configured := ⟨rfl, rfl⟩
  single := h
  needed := rfl
  succeeds := ⟨rfl, rfl, rfl⟩
  landed := rfl
  kept := fun _ _ heq => by cases heq
  clean := ⟨_, rfl, by decide⟩

/-- After an autonomous rebase that went through, a rebase the poll starts goes back to the poll. -/
theorem rebase_returns_rightly_twice :
    ∃ σ l, Run (Guarded (fun σ e => σ.reusesOrigin e = false) Episode.Step) { state := .humanMrApproval } l σ ∧
      RebasesCleanly CLEAN_REBASE σ.artifacts ∧
      ReturnsRightly σ (σ.advance (stageIn .rebasing CLEAN_REBASE)).state := by
  let σ₁ : Episode := ({ state := .humanMrApproval } : Episode).advance (stageIn .humanMrApproval CONFLICT)
  let σ₂ : Episode := σ₁.advance (stageIn .rebasing CLEAN_REBASE)
  let σ₃ : Episode := σ₂.advance (.elsewhere σ₂.artifacts .implementComplete)
  let σ₄ : Episode := σ₃.advance (stageIn .implementComplete CONFLICT)
  have hrun : Run (Guarded (fun σ e => σ.reusesOrigin e = false) Episode.Step) { state := .humanMrApproval }
      [stageIn .humanMrApproval CONFLICT, stageIn .rebasing CLEAN_REBASE,
        .elsewhere σ₂.artifacts .implementComplete, stageIn .implementComplete CONFLICT] σ₄ := by
    apply Run.cons (t := σ₁) ⟨by decide +kernel, .mergeStage rfl rfl, rfl⟩
    apply Run.cons (t := σ₂) ⟨by decide +kernel, .mergeStage (by decide +kernel) (by decide +kernel), rfl⟩
    apply Run.cons (t := σ₃) ⟨by decide +kernel, .elsewhere (.inl (Eq.refl σ₂.artifacts.rebaseFromStateTxt)), rfl⟩
    apply Run.cons (t := σ₄) ⟨by decide +kernel, .mergeStage (by decide +kernel) (by decide +kernel), rfl⟩
    exact .nil σ₄
  have hclean : RebasesCleanly CLEAN_REBASE σ₄.artifacts := clean_rebase_cleanly (by decide +kernel)
  have hhere : σ₄.state = .rebasing := by decide +kernel
  exact ⟨σ₄, _, hrun, hclean, rebase_returns_rightly (by decide) hrun hhere.symm hhere hclean⟩

/-- An autonomous rebase finds the pull request clean already; the next rebase, which the poll starts, skips the
    checks. -/
theorem clean_rebase_skips_checks :
    ¬ ∀ (σ₀ σ : Episode) (l : List EpisodeEvent), σ₀.state ≠ .rebasing → Run Episode.Step σ₀ l σ →
      ∀ (s : Settings) (tid : TicketId) (t : Ticket) (ctx : MergeStageContext), t.state = σ.state →
        σ.state = .rebasing → RebasesCleanly ctx σ.artifacts →
          ReturnsRightly σ (σ.advance (.mergeStage s tid t ctx)).state := by
  intro hclaim
  let σ₁ : Episode := ({ state := .humanMrApproval } : Episode).advance (stageIn .humanMrApproval CONFLICT)
  let σ₂ : Episode := σ₁.advance (stageIn .rebasing CLEAN_BEFORE)
  let σ₃ : Episode := σ₂.advance (stageIn .implementComplete CONFLICT)
  have hrun : Run Episode.Step { state := .humanMrApproval }
      [stageIn .humanMrApproval CONFLICT, stageIn .rebasing CLEAN_BEFORE, stageIn .implementComplete CONFLICT] σ₃ := by
    apply Run.cons (t := σ₁) ⟨.mergeStage rfl rfl, rfl⟩
    apply Run.cons (t := σ₂) ⟨.mergeStage (by decide +kernel) (by decide +kernel), rfl⟩
    apply Run.cons (t := σ₃) ⟨.mergeStage (by decide +kernel) (by decide +kernel), rfl⟩
    exact .nil σ₃
  have hclean : RebasesCleanly CLEAN_REBASE σ₃.artifacts := clean_rebase_cleanly (by decide +kernel)
  have hhere : σ₃.state = .rebasing := by decide +kernel
  have hreturns := hclaim { state := .humanMrApproval } σ₃ _ (by decide) hrun {} "T"
    { title := "t", state := .rebasing, createdAt := 0, updatedAt := 0 } CLEAN_REBASE hhere.symm hhere hclean
  have hled : (σ₃.advance (.mergeStage {} "T"
      { title := "t", state := .rebasing, createdAt := 0, updatedAt := 0 } CLEAN_REBASE)).state = .waitingAutoMerge := by
    decide +kernel
  have hentered : σ₃.enteredFrom = some .implementComplete := by decide +kernel
  rw [hled] at hreturns
  obtain ⟨src, hsrc, heq⟩ := hreturns.parked (by decide)
  rw [hentered] at heq
  cases heq
  exact absurd hsrc (by decide)

end Stages
end RobotsixMill
