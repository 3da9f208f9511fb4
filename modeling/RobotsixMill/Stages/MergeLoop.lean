import Mathlib.Data.Set.Insert
import RobotsixMill.Lib.Emissions
import RobotsixMill.Service.ImplementGuard
import RobotsixMill.Stages.CiFix
import RobotsixMill.Stages.Rebase

/-!
# `Stages.MergeLoop` — how often the merge stage sends a ticket to be fixed

A ticket in the merge loop is polled (`implement_complete`), rebased (`rebasing`) and fixed (`fixing_ci`)
in turn, until a poll finds it green, or something blocks it. `LoopStep` is one such step, with any answer
of the forge, of git and of the agents; between its stays in the loop a ticket may go anywhere.

`auto_fix_max_cycles` is meant to bound how often a poll dispatches the ticket, to either stage, and
`ping_pong_max_alternations` how often it alternates between the two. The counter of the first is touched
on the way to the ci-fix agent only, and so is the record of the last stage that the second compares with.

- `LoopInv` — what the files of the loop hold in every state a ticket can reach;
- `dispatches_bounded_iff` — the forge answers under which the dispatches are bounded.
-/

namespace RobotsixMill
namespace Stages
open RobotsixMill.Core Lib Service

/-! ## The loop -/

/-- The state of a ticket, and its artifacts. -/
structure LoopState where
  state : State
  artifacts : Artifacts

inductive LoopEvent
  | poll (ctx : PollContext)
  | rebase (ctx : RebaseContext)
  /-- The ci_fix stage, with what it leaves and what it returns. -/
  | ciFix (files : Artifacts) (outcome : StageOutcome)
  /-- Another stage, a resume or an operator. -/
  | elsewhere (files : Artifacts) (dst : State)

/-- The files of the loop are as they were, or removed. -/
structure LeavesLoopFiles (a b : Artifacts) : Prop where
  cycles : b.autoFixCyclesTxt = a.autoFixCyclesTxt ∨ b.autoFixCyclesTxt = none
  lastStage : b.lastAutoFixStageTxt = a.lastAutoFixStageTxt ∨ b.lastAutoFixStageTxt = none

section Loop

variable (s : Settings) (tid : TicketId) (t : Ticket)

/-- A poll, applied. -/
def afterPoll (ctx : PollContext) (σ : LoopState) : LoopState where
  state := (pollImplementComplete s tid t ctx σ.artifacts).2.nextState
  artifacts := (pollImplementComplete s tid t ctx σ.artifacts).1

/-- A rebase, applied. -/
def afterRebase (ctx : RebaseContext) (σ : LoopState) : LoopState where
  state := (runRebase s ctx σ.artifacts).2.nextState
  artifacts := (runRebase s ctx σ.artifacts).1

/-- One step of the ticket `t`. -/
inductive LoopStep : LoopState → LoopEvent → LoopState → Prop
  | poll {σ : LoopState} (ctx : PollContext) (here : σ.state = .implementComplete) :
      LoopStep σ (.poll ctx) (afterPoll s tid t ctx σ)
  | rebase {σ : LoopState} (ctx : RebaseContext) (here : σ.state = .rebasing) :
      LoopStep σ (.rebase ctx) (afterRebase s ctx σ)
  | ciFix {σ : LoopState} {files : Artifacts} (outcome : StageOutcome) (here : σ.state = .fixingCi)
      (same : SameLoopFiles σ.artifacts files) :
      LoopStep σ (.ciFix files outcome) ⟨outcome.nextState, files⟩
  | elsewhere {σ : LoopState} {files : Artifacts} (dst : State)
      (left : LeavesLoopFiles σ.artifacts files) :
      LoopStep σ (.elsewhere files dst) ⟨dst, files⟩

/-- What the merge stage dispatches in a step: the state a poll sends the ticket to. -/
def dispatches (_ : LoopState) (e : LoopEvent) (σ' : LoopState) : List State :=
  match e with
  | .poll _ => if σ'.state ∈ DISPATCHED then [σ'.state] else []
  | _ => []

/-- The ticket stays in the loop, and the forge answers its polls from `W`. -/
def Within (W : Set PollContext) (_ : LoopState) (e : LoopEvent) : Prop :=
  match e with
  | .poll ctx => ctx ∈ W
  | .elsewhere _ _ => False
  | _ => True

/-- A state the ticket can reach from a workspace without artifacts. -/
def Reached (σ : LoopState) : Prop := ∃ st l, Run (LoopStep s tid t) ⟨st, {}⟩ l σ

/-- The ticket has just entered the loop, or has been resumed into it. -/
structure Entered (σ : LoopState) : Prop where
  polling : σ.state = .implementComplete
  reached : Reached s tid t σ

/-- `l` leads from `σ` to `σ'` without leaving the loop, under answers of `W`, and dispatches `ds`. -/
def Stay (W : Set PollContext) (σ : LoopState) (l : List LoopEvent) (σ' : LoopState) (ds : List State) :
    Prop :=
  Emits (Guarded (Within W) (LoopStep s tid t)) dispatches σ l σ' ds

/-- The number of times a list changes from one value to another. -/
def alternations : List State → Nat
  | a :: b :: l => (if a = b then 0 else 1) + alternations (b :: l)
  | _ => 0

/-- `_ci_truly_green` holds of no answer of the poll. -/
def NeverGreen (ctx : PollContext) : Prop :=
  ∀ pr status, ctx.prStatus = .found pr → ctx.checkStatus = .found status →
    ciTrulyGreen status.conclusion pr = false

/-- A stay that ends in `σ'` is bounded: in its dispatches, in their alternations, and by a block once the
    bound is reached. -/
structure StayBounded (W : Set PollContext) (bound : Nat) (σ' : LoopState) (ds : List State) : Prop where
  count : ds.length ≤ bound
  detected : alternations ds < s.pingPongMaxAlternations
  blocks : ds.length = bound → σ'.state = .implementComplete → ∀ ctx ∈ W, BranchFailure s t ctx →
    (afterPoll s tid t ctx σ').state = .blocked

/-- Every stay under answers of `W` is bounded by `bound`. -/
def BoundedBy (W : Set PollContext) (bound : Nat) : Prop :=
  ∀ σ l σ' ds, Entered s tid t σ → Stay s tid t W σ l σ' ds → StayBounded s tid t W bound σ' ds

/-! ## What the files hold -/

/-- The cycle counter is not negative, and the last stage is not the rebase stage. -/
structure LoopInv (a : Artifacts) : Prop where
  cycles : 0 ≤ readCounter a.autoFixCyclesTxt
  lastStage : lastAutoFixStage a ≠ "rebase"

theorem loopInv_empty : LoopInv {} := ⟨by decide, by decide⟩

theorem readCounter_zero : readCounter (some "0") = 0 := readCounter_toString 0

theorem LoopInv.leaves {a b : Artifacts} (h : LoopInv a) (hl : LeavesLoopFiles a b) : LoopInv b := by
  refine ⟨?_, ?_⟩
  · obtain heq | hnone := hl.cycles
    · rw [heq]; exact h.cycles
    · rw [hnone]; exact le_refl 0
  · rw [lastAutoFixStage]
    obtain heq | hnone := hl.lastStage
    · rw [heq]; exact h.lastStage
    · rw [hnone]; decide

theorem SameLoopFiles.leaves {a b : Artifacts} (h : SameLoopFiles a b) : LeavesLoopFiles a b :=
  ⟨.inl h.cycles, .inl h.lastStage⟩

theorem afterPoll_effect (ctx : PollContext) (σ : LoopState) :
    PollEffect s t ctx σ.artifacts (afterPoll s tid t ctx σ).artifacts (afterPoll s tid t ctx σ).state :=
  pollImplementComplete_effect s tid t ctx σ.artifacts

/-- A poll keeps the invariant, whatever the forge answers. -/
theorem LoopInv.poll {ctx : PollContext} {a b : Artifacts} {dst : State} (h : LoopInv a)
    (he : PollEffect s t ctx a b dst) : LoopInv b := by
  have hpos := h.cycles
  cases he with
  | quiet files stays => exact h.leaves files.leaves
  | rebase files answer => exact h.leaves files.leaves
  | ciFix failure below counted stage =>
    refine ⟨?_, ?_⟩
    · rw [counted, readCounter_toString]
      omega
    · rw [lastAutoFixStage]
      obtain hfix | heq := stage
      · rw [hfix]; decide
      · rw [heq]; exact h.lastStage
  | exhausted failure reset stage =>
    refine ⟨?_, ?_⟩
    · rw [reset, readCounter_zero]
    · rw [lastAutoFixStage, stage]
      exact h.lastStage
  | alternated failure last counted stage => exact absurd last h.lastStage
  | green pr status seen truly reset stage stays =>
    refine ⟨?_, ?_⟩
    · rw [reset, readCounter_zero]
    · rw [lastAutoFixStage, stage]
      decide

/-- Every step keeps the invariant. -/
theorem LoopInv.step {σ σ' : LoopState} {e : LoopEvent} (h : LoopInv σ.artifacts)
    (hs : LoopStep s tid t σ e σ') : LoopInv σ'.artifacts := by
  cases hs with
  | poll ctx here => exact h.poll s t (afterPoll_effect s tid t ctx σ)
  | rebase ctx here => exact h.leaves (runRebase_sameLoopFiles s ctx σ.artifacts).leaves
  | ciFix outcome here same => exact h.leaves same.leaves
  | elsewhere dst left => exact h.leaves left

theorem loopInv_of_reached {σ : LoopState} (h : Reached s tid t σ) : LoopInv σ.artifacts := by
  obtain ⟨st, l, hrun⟩ := h
  exact hrun.invariant (I := fun σ => LoopInv σ.artifacts) (fun _ _ _ hi hs => hi.step s tid t hs)
    loopInv_empty

/-! ## The dispatches of a stay -/

/-- The states of the loop. -/
def LOOP_STATES : List State := [.implementComplete, .rebasing, .fixingCi]

/-- What is left of the cycles; nothing, once the ticket is out of the loop. -/
def cyclesLeft (σ : LoopState) : Nat :=
  if σ.state ∈ LOOP_STATES then
    ((s.autoFixMaxCycles : Int) - readCounter σ.artifacts.autoFixCyclesTxt).toNat
  else 0

theorem cyclesLeft_of_mem {σ : LoopState} (h : σ.state ∈ LOOP_STATES) :
    cyclesLeft s σ = ((s.autoFixMaxCycles : Int) - readCounter σ.artifacts.autoFixCyclesTxt).toNat :=
  if_pos h

theorem cyclesLeft_le (σ : LoopState) :
    cyclesLeft s σ ≤ ((s.autoFixMaxCycles : Int) - readCounter σ.artifacts.autoFixCyclesTxt).toNat := by
  unfold cyclesLeft
  split
  · exact le_refl _
  · exact Nat.zero_le _

/-- A step that keeps the files of the loop gives no cycle back. -/
theorem cyclesLeft_of_same {σ : LoopState} {b : Artifacts} {dst : State} (here : σ.state ∈ LOOP_STATES)
    (h : SameLoopFiles σ.artifacts b) : cyclesLeft s ⟨dst, b⟩ ≤ cyclesLeft s σ := by
  have hle := cyclesLeft_le s ⟨dst, b⟩
  rw [cyclesLeft_of_mem s here]
  dsimp only at hle
  rwa [h.cycles] at hle

section Answers

variable {s tid t} {W : Set PollContext}

/-- Without an answer that sends the ticket to the rebase agent, the ci-fix agent is all there is. -/
theorem dispatches_eq_fixingCi (hno : ∀ ctx ∈ W, ¬ RebaseAnswer s t ctx) {σ σ' : LoopState}
    {e : LoopEvent} (h : Guarded (Within W) (LoopStep s tid t) σ e σ') : ∀ d ∈ dispatches σ e σ', d = .fixingCi := by
  obtain ⟨hw, hs⟩ := h
  intro d hd
  cases hs with
  | poll ctx here =>
    have he := afterPoll_effect s tid t ctx σ
    generalize afterPoll s tid t ctx σ = σ' at he hd
    obtain ⟨dst, b⟩ := σ'
    simp only [dispatches] at he hd
    split at hd
    · rename_i hdisp
      rw [List.mem_singleton] at hd
      cases he with
      | quiet files stays => exact absurd hdisp stays
      | rebase files answer => exact absurd answer (hno ctx hw)
      | ciFix failure below counted stage => exact hd
      | exhausted failure reset stage => exact absurd hdisp blocked_stays
      | alternated failure last counted stage => exact absurd hdisp blocked_stays
      | green pr status seen truly reset stage stays => exact absurd hdisp stays
    · cases hd
  | rebase ctx here => cases hd
  | ciFix outcome here same => cases hd
  | elsewhere dst left => cases hd

/-- **A dispatch is paid for**: it takes a cycle, and no step of a stay gives one back. -/
theorem dispatches_add_cyclesLeft_le (hauto : 0 < s.autoFixMaxCycles)
    (hgreen : ∀ ctx ∈ W, NeverGreen ctx) (hno : ∀ ctx ∈ W, ¬ RebaseAnswer s t ctx) {σ σ' : LoopState}
    {e : LoopEvent} (h : Guarded (Within W) (LoopStep s tid t) σ e σ') :
    (dispatches σ e σ').length + cyclesLeft s σ' ≤ cyclesLeft s σ := by
  obtain ⟨hw, hs⟩ := h
  cases hs with
  | poll ctx here =>
    have hin : σ.state ∈ LOOP_STATES := by rw [here]; decide
    have he := afterPoll_effect s tid t ctx σ
    generalize afterPoll s tid t ctx σ = σ' at he ⊢
    obtain ⟨dst, b⟩ := σ'
    simp only [dispatches] at he ⊢
    cases he with
    | quiet files stays =>
      rw [if_neg stays, List.length_nil, Nat.zero_add]
      exact cyclesLeft_of_same s hin files
    | rebase files answer => exact absurd answer (hno ctx hw)
    | ciFix failure below counted stage =>
      rw [if_pos (by decide), List.length_singleton]
      have hleft := cyclesLeft_le s ⟨.fixingCi, b⟩
      dsimp only at hleft
      rw [counted, readCounter_toString] at hleft
      rw [cyclesLeft_of_mem s hin]
      omega
    | exhausted failure reset stage =>
      rw [if_neg blocked_stays]
      exact Nat.zero_le _
    | alternated failure last counted stage =>
      rw [if_neg blocked_stays]
      exact Nat.zero_le _
    | green pr status seen truly reset stage stays =>
      have hfalse := hgreen ctx hw pr status seen.found seen.checks
      rw [truly] at hfalse
      cases hfalse
  | rebase ctx here =>
    have hin : σ.state ∈ LOOP_STATES := by rw [here]; decide
    simp only [dispatches, List.length_nil, Nat.zero_add]
    exact cyclesLeft_of_same s hin (runRebase_sameLoopFiles s ctx σ.artifacts)
  | ciFix outcome here same =>
    have hin : σ.state ∈ LOOP_STATES := by rw [here]; decide
    simp only [dispatches, List.length_nil, Nat.zero_add]
    exact cyclesLeft_of_same s hin same
  | elsewhere dst left => exact hw.elim

end Answers

/-- A list of one value does not alternate. -/
theorem alternations_of_forall_eq {d : State} {ds : List State} (h : ∀ e ∈ ds, e = d) :
    alternations ds = 0 := by
  induction ds with
  | nil => rfl
  | cons a ds ih =>
    cases ds with
    | nil => rfl
    | cons b ds =>
      have hab : a = b := (h a (by simp)).trans (h b (by simp)).symm
      rw [alternations, if_pos hab, ih fun e he => h e (List.mem_cons_of_mem _ he)]

variable {s tid t} {W : Set PollContext}

/-- **The bound.** As long as no answer sends the ticket to the rebase agent, the cycles bound the
    dispatches, and a failure of the branch's own beyond them blocks. -/
theorem boundedBy_autoFixMaxCycles (hauto : 0 < s.autoFixMaxCycles)
    (hping : 0 < s.pingPongMaxAlternations) (hgreen : ∀ ctx ∈ W, NeverGreen ctx)
    (hno : ∀ ctx ∈ W, ¬ RebaseAnswer s t ctx) : BoundedBy s tid t W s.autoFixMaxCycles := by
  intro σ l σ' ds hent hstay
  have hpay : ds.length + cyclesLeft s σ' ≤ cyclesLeft s σ :=
    hstay.length_add_le fun _ _ _ hs => dispatches_add_cyclesLeft_le hauto hgreen hno hs
  have hstart : cyclesLeft s σ ≤ s.autoFixMaxCycles := by
    have hle := cyclesLeft_le s σ
    have hpos := (loopInv_of_reached s tid t hent.reached).cycles
    omega
  have hall : ∀ d ∈ ds, d = State.fixingCi :=
    hstay.forall_mem fun _ _ _ hs => dispatches_eq_fixingCi hno hs
  refine ⟨by omega, ?_, ?_⟩
  · rw [alternations_of_forall_eq hall]
    exact hping
  · intro hlen here ctx hmem hfail
    obtain hfix | hblocked := nextState_of_branchFailure s tid t ctx hfail σ'.artifacts
    · have hin : σ'.state ∈ LOOP_STATES := by rw [here]; decide
      have hspent : cyclesLeft s σ' = 0 := by omega
      rw [cyclesLeft_of_mem s hin] at hspent
      have he := afterPoll_effect s tid t ctx σ'
      rw [show (afterPoll s tid t ctx σ').state = .fixingCi from hfix] at he
      cases he with
      | quiet files stays => exact absurd (by decide) stays
      | ciFix failure below counted stage => exact absurd ⟨hauto, by omega⟩ below
      | green pr status seen truly reset stage stays => exact absurd (by decide) stays
    · exact hblocked

/-- A poll that dispatches. -/
theorem stay_poll {ctx : PollContext} (hmem : ctx ∈ W) {σ : LoopState} (here : σ.state = .implementComplete)
    {d : State} (hd : (afterPoll s tid t ctx σ).state = d) (hdisp : d ∈ DISPATCHED) :
    Stay s tid t W σ [.poll ctx] (afterPoll s tid t ctx σ) [d] := by
  have hstay : Stay s tid t W σ [.poll ctx] (afterPoll s tid t ctx σ) _ :=
    Emits.single ⟨hmem, .poll ctx here⟩
  rwa [dispatches, hd, if_pos hdisp] at hstay

/-- A poll that sends the ticket to the rebase agent, and a rebase the forge has not judged yet. -/
theorem stay_rebase_round {ctx : PollContext} (hmem : ctx ∈ W) (h : RebaseAnswer s t ctx) {σ : LoopState}
    (here : σ.state = .implementComplete) :
    Stay s tid t W σ [.poll ctx, .rebase UNDECIDED_REBASE]
      (afterRebase s UNDECIDED_REBASE (afterPoll s tid t ctx σ)) [.rebasing] := by
  have hdisp : (afterPoll s tid t ctx σ).state = .rebasing :=
    nextState_of_rebaseAnswer s tid t ctx h σ.artifacts
  have hrebase : Stay s tid t W (afterPoll s tid t ctx σ) [.rebase UNDECIDED_REBASE] _ _ :=
    Emits.single ⟨trivial, .rebase UNDECIDED_REBASE hdisp⟩
  exact (stay_poll hmem here hdisp (by decide)).append hrebase

/-- A poll that sends the ticket to the ci-fix agent, and a fix to be polled. -/
theorem stay_ciFix_round {ctx : PollContext} (hmem : ctx ∈ W) {σ : LoopState}
    (here : σ.state = .implementComplete) (hd : (afterPoll s tid t ctx σ).state = .fixingCi) :
    Stay s tid t W σ [.poll ctx, .ciFix (afterPoll s tid t ctx σ).artifacts .repoll]
      ⟨.implementComplete, (afterPoll s tid t ctx σ).artifacts⟩ [.fixingCi] := by
  have hfix : Stay s tid t W (afterPoll s tid t ctx σ)
      [.ciFix (afterPoll s tid t ctx σ).artifacts .repoll] _ _ :=
    Emits.single ⟨trivial, .ciFix .repoll hd (.refl _)⟩
  exact (stay_poll hmem here hd (by decide)).append hfix

/-- **One such answer is enough**: given again and again, it dispatches the ticket as often as one likes. -/
theorem unbounded_of_rebaseAnswer {ctx : PollContext} (hmem : ctx ∈ W) (h : RebaseAnswer s t ctx)
    {σ : LoopState} (here : σ.state = .implementComplete) (n : Nat) :
    ∃ l σ' ds, Stay s tid t W σ l σ' ds ∧ n ≤ ds.length := by
  have hback : ∀ σ : LoopState, σ.state = .implementComplete →
      ∃ l σ' ds, Emits (Guarded (Within W) (LoopStep s tid t)) dispatches σ l σ' ds ∧
        σ'.state = .implementComplete ∧ ds ≠ [] := by
    intro σ hσ
    exact ⟨_, _, _, stay_rebase_round hmem h hσ,
      runRebase_undecided s (afterPoll s tid t ctx σ).artifacts, List.cons_ne_nil _ _⟩
  obtain ⟨l, σ', ds, hstay, -, hlen⟩ :=
    Emits.pump (I := fun σ : LoopState => σ.state = .implementComplete) hback here n
  exact ⟨l, σ', ds, hstay, hlen⟩

/-! ## When the loop is bounded -/

/-- **When the loop is bounded.** Without green checks the dispatches of a ticket are bounded exactly when
    no answer sends it to the rebase agent. `auto_fix_max_cycles` is the bound then, and none otherwise. -/
theorem dispatches_bounded_iff (s : Settings) (tid : TicketId) (t : Ticket) (hauto : 0 < s.autoFixMaxCycles)
    (hping : 0 < s.pingPongMaxAlternations) (W : Set PollContext) (hgreen : ∀ ctx ∈ W, NeverGreen ctx) :
    ((∃ bound, BoundedBy s tid t W bound) ↔ ∀ ctx ∈ W, ¬ RebaseAnswer s t ctx) ∧
      ((∀ ctx ∈ W, ¬ RebaseAnswer s t ctx) → BoundedBy s tid t W s.autoFixMaxCycles) := by
  have hbound : (∀ ctx ∈ W, ¬ RebaseAnswer s t ctx) → BoundedBy s tid t W s.autoFixMaxCycles :=
    boundedBy_autoFixMaxCycles hauto hping hgreen
  refine ⟨⟨?_, fun hno => ⟨_, hbound hno⟩⟩, hbound⟩
  rintro ⟨bound, h⟩ ctx hmem hanswer
  have hfresh : Entered s tid t ⟨.implementComplete, {}⟩ := ⟨rfl, .implementComplete, [], .nil _⟩
  obtain ⟨l, σ', ds, hstay, hlen⟩ := unbounded_of_rebaseAnswer hmem hanswer hfresh.polling (bound + 1)
  have hcount := (h _ l σ' ds hfresh hstay).count
  omega

end Loop

/-! ### On fixed answers -/

/-- A ticket in the loop. -/
def LOOPED_TICKET : Ticket := { title := "t", state := .implementComplete, createdAt := 0, updatedAt := 0 }

/-- The checks fail, for a reason of the branch. -/
def FAILING_POLL : PollContext where
  prStatus := .found { mergeable := some true, mergeableState := some "unstable" }
  checkStatus := .found { conclusion := some "failure", failing := [{ name := "lint" }] }

/-- The pull request conflicts with its target. -/
def CONFLICTING_POLL : PollContext where
  prStatus := .found { mergeable := some false, mergeableState := some "dirty" }
  checkStatus := .found { conclusion := some "failure", failing := [{ name := "lint" }] }

/-- The checks are green, and the branch is behind its target. -/
def BEHIND_POLL : PollContext where
  prStatus := .found { mergeable := some true, mergeableState := some "behind" }
  checkStatus := .found { conclusion := some "success", jobs := ["lint"] }

/-- Rebased after a conflict, fixed after a failure, and rebased again. -/
def CONFLICTED : LoopState :=
  afterRebase {} UNDECIDED_REBASE
    (afterPoll {} "T" LOOPED_TICKET CONFLICTING_POLL ⟨.implementComplete, {}⟩)

def FIXED : LoopState :=
  ⟨.implementComplete, (afterPoll {} "T" LOOPED_TICKET FAILING_POLL CONFLICTED).artifacts⟩

def CONFLICTED_AGAIN : LoopState :=
  afterRebase {} UNDECIDED_REBASE (afterPoll {} "T" LOOPED_TICKET CONFLICTING_POLL FIXED)

theorem neverGreen_of_failure {ctx : PollContext} {status : CiStatus} (h : ctx.checkStatus = .found status)
    (hfail : status.conclusion = some "failure") : NeverGreen ctx := by
  intro pr other _ hother
  rw [h] at hother
  cases hother
  simp [ciTrulyGreen, hfail]

/-- Six dispatches at most, where the checks keep failing for a reason of the branch. -/
theorem dispatches_bounded_failing : BoundedBy {} "T" LOOPED_TICKET {FAILING_POLL} 6 := by
  apply (dispatches_bounded_iff {} "T" LOOPED_TICKET (by decide) (by decide) {FAILING_POLL} ?_).2
  · intro ctx hmem
    rw [Set.mem_singleton_iff] at hmem
    subst hmem
    intro h
    have hdisp := nextState_of_rebaseAnswer {} "T" LOOPED_TICKET FAILING_POLL h {}
    exact absurd hdisp (by decide +kernel)
  · intro ctx hmem
    rw [Set.mem_singleton_iff] at hmem
    subst hmem
    exact neverGreen_of_failure rfl rfl

/-- The branch falls behind its target again and again: nothing bounds the dispatches. And a ticket that
    conflicts and fails in turn has alternated as often as it may, without a report. -/
theorem dispatches_unbounded :
    (¬ ∃ bound : Settings → Nat, ∀ s tid t, 0 < s.autoFixMaxCycles → 0 < s.pingPongMaxAlternations →
      0 < s.rebaseMaxAttempts → BoundedBy s tid t {ctx | NeverGreen ctx} (bound s)) ∧
    ∃ l σ', Stay {} "T" LOOPED_TICKET {ctx | NeverGreen ctx} ⟨.implementComplete, {}⟩ l σ'
        [.rebasing, .fixingCi, .rebasing, .fixingCi] ∧ σ'.state = .fixingCi ∧
      ({} : Settings).pingPongMaxAlternations ≤
        alternations [.rebasing, .fixingCi, .rebasing, .fixingCi] := by
  refine ⟨?_, ?_⟩
  · rintro ⟨bound, h⟩
    have hgreen : NeverGreen BEHIND_POLL := by
      intro pr status hpr _
      cases hpr
      simp [ciTrulyGreen]
    have hanswer : RebaseAnswer {} LOOPED_TICKET BEHIND_POLL :=
      .behind _ _ ⟨⟨rfl, rfl, rfl, by decide⟩, by decide, rfl, rfl⟩ rfl rfl
    have hfresh : Entered {} "T" LOOPED_TICKET ⟨.implementComplete, {}⟩ :=
      ⟨rfl, .implementComplete, [], .nil _⟩
    obtain ⟨l, σ', ds, hstay, hlen⟩ := unbounded_of_rebaseAnswer
      (show BEHIND_POLL ∈ {ctx | NeverGreen ctx} from hgreen) hanswer hfresh.polling (bound {} + 1)
    have hcount := (h {} "T" LOOPED_TICKET (by decide) (by decide) (by decide) _ l σ' ds hfresh hstay).count
    omega
  · have hconf : CONFLICTING_POLL ∈ {ctx | NeverGreen ctx} := neverGreen_of_failure rfl rfl
    have hfail : FAILING_POLL ∈ {ctx | NeverGreen ctx} := neverGreen_of_failure rfl rfl
    have hanswer : RebaseAnswer {} LOOPED_TICKET CONFLICTING_POLL :=
      .conflicting _ ⟨rfl, rfl, rfl, by decide⟩ rfl
    have h₁ : Stay {} "T" LOOPED_TICKET {ctx | NeverGreen ctx} ⟨.implementComplete, {}⟩ _ CONFLICTED _ :=
      stay_rebase_round hconf hanswer rfl
    have h₂ : Stay {} "T" LOOPED_TICKET {ctx | NeverGreen ctx} CONFLICTED _ FIXED _ :=
      stay_ciFix_round hfail (by decide +kernel) (by decide +kernel)
    have h₃ : Stay {} "T" LOOPED_TICKET {ctx | NeverGreen ctx} FIXED _ CONFLICTED_AGAIN _ :=
      stay_rebase_round hconf hanswer rfl
    have hlast : (afterPoll {} "T" LOOPED_TICKET FAILING_POLL CONFLICTED_AGAIN).state = .fixingCi := by
      decide +kernel
    have h₄ : Stay {} "T" LOOPED_TICKET {ctx | NeverGreen ctx} CONFLICTED_AGAIN _ _ _ :=
      stay_poll hfail (by decide +kernel) hlast (by decide)
    exact ⟨_, _, (h₁.append h₂).append (h₃.append h₄), hlast, by decide⟩

end Stages
end RobotsixMill
