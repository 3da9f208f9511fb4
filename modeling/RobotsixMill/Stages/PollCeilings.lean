import RobotsixMill.Lib.Emissions
import RobotsixMill.Lib.Streak
import RobotsixMill.Stages.PollCounters

/-!
# `Stages.PollCeilings` — how many polls in a row a block stands for

A ceiling is on consecutive polls: one that finds something else is to clear the counter, and does in some
of its branches only. The merges that are rejected for now are counted as well; what was rejected for another
head, or before the ticket was resumed, should not count, and nothing clears that counter.

- `PollStep` — the polls of a ticket, with what happens to it in between;
- `Steady` — the steps after which the counters still say what they are meant to;
- `ceilings_count_consecutive` — in runs of such steps, blocks stand for consecutive polls.
-/

namespace RobotsixMill
namespace Stages
open RobotsixMill.Core Lib Service

/-! ## Runs -/

/-- A ticket of the merge stage, with the head of the last merge that was rejected for now. -/
structure PollState where
  state : State
  artifacts : Artifacts := {}
  lastRejected : String := ""

inductive PollEvent
  | poll (ctx : MergeStageContext)
  /-- A poll that finds a pull request, and ends in an error of a later request. -/
  | crash (files : Artifacts)
  /-- The ticket is blocked, and resumed. -/
  | resume (files : Artifacts) (dst : State)
  /-- Another stage, or an operator. -/
  | elsewhere (files : Artifacts) (dst : State)

/-- What is left of the counters when nothing but the merge stage counts in them. -/
def LeavesCounters (a b : Artifacts) : Prop :=
  ∀ k, counterFile k b = counterFile k a ∨ counterFile k b = none

/-- What a poll that crashes has written. -/
structure Crashed (a b : Artifacts) : Prop where
  found : count .prMissing b = 0
  kept : ∀ k, k ≠ .prMissing → counterFile k b = counterFile k a

section Runs

variable (s : Settings) (tid : TicketId) (t : Ticket)

/-- The ticket, in a state. -/
def inState (σ : PollState) : Ticket := { t with state := σ.state }

/-- A poll, applied: an outcome the worker drops leaves the ticket where it is. -/
def afterRun (ctx : MergeStageContext) (σ : PollState) : PollState where
  state :=
    let next := (mergeStageRun s tid (inState t σ) ctx σ.artifacts).2.nextState
    if next ∈ allowedFrom σ.state then next else σ.state
  artifacts := (mergeStageRun s tid (inState t σ) ctx σ.artifacts).1
  lastRejected := (rejectedHead s (inState t σ) ctx σ.artifacts).getD σ.lastRejected

/-- One step of the ticket. -/
inductive PollStep : PollState → PollEvent → PollState → Prop
  | poll {σ : PollState} (ctx : MergeStageContext) (here : STAGE_FOR_STATE σ.state = some "merge") :
      PollStep σ (.poll ctx) (afterRun s tid t ctx σ)
  | crash {σ : PollState} {files : Artifacts} (here : STAGE_FOR_STATE σ.state = some "merge")
      (left : Crashed σ.artifacts files) : PollStep σ (.crash files) { σ with artifacts := files }
  | resume {σ : PollState} {files : Artifacts} (dst : State) (left : LeavesCounters σ.artifacts files) :
      PollStep σ (.resume files dst) { σ with state := dst, artifacts := files }
  | elsewhere {σ : PollState} {files : Artifacts} (dst : State) (left : LeavesCounters σ.artifacts files) :
      PollStep σ (.elsewhere files dst) { σ with state := dst, artifacts := files }

/-- What the polls of a run observe that obtain a status. -/
def observations (σ : PollState) (e : PollEvent) (_ : PollState) : List (Option Ceiling) :=
  match e with
  | .poll ctx => observed s (inState t σ) ctx σ.artifacts
  | .crash _ => [none]
  | _ => []

inductive Rejection
  | rejected (head : String)
  | resumed
deriving DecidableEq, Repr

/-- The merges that are rejected for now, and the resumes between them. -/
def rejections (σ : PollState) (e : PollEvent) (_ : PollState) : List Rejection :=
  match e with
  | .poll ctx => ((rejectedHead s (inState t σ) ctx σ.artifacts).map Rejection.rejected).toList
  | .resume _ _ => [.resumed]
  | _ => []

/-- The counters stay right: a poll that finds a pull request in another condition than a counter's finds
    that counter at zero, or clears it; a merge is rejected, and the ticket resumed, while no merge counts
    that was rejected for another head. -/
def Steady (σ : PollState) (e : PollEvent) : Prop :=
  match e with
  | .poll ctx =>
    (∀ k, k ≠ .mergeRetry → ∀ o ∈ observed s (inState t σ) ctx σ.artifacts, o ≠ some k →
      count k σ.artifacts ≤ 0 ∨ Clears s (inState t σ) ctx σ.artifacts k) ∧
    ∀ head, rejectedHead s (inState t σ) ctx σ.artifacts = some head →
      count .mergeRetry σ.artifacts ≤ 0 ∨ head = σ.lastRejected
  | .crash _ => ∀ k, k ≠ .prMissing → k ≠ .mergeRetry → count k σ.artifacts ≤ 0
  | .resume _ _ => count .mergeRetry σ.artifacts ≤ 0
  | .elsewhere _ _ => True

end Runs

/-! ## What a step does to the promise of a counter -/

section Promise

variable {s : Settings} {tid : TicketId} {t : Ticket} {k : Ceiling} {σ τ : PollState} {e : PollEvent}

theorem LeavesCounters.count {a b : Artifacts} (h : LeavesCounters a b) (k : Ceiling) :
    count k b = count k a ∨ count k b = 0 := by
  rcases h k with hsame | hnone
  · exact .inl (congrArg readCounter hsame)
  · exact .inr (congrArg readCounter hnone)

/-- A counter that is left alone or removed, while nothing is observed. -/
theorem LeavesCounters.countsStep {a b : Artifacts} (h : LeavesCounters a b) (k : Ceiling) :
    CountsStep (· = some k) (Stages.count k a) (Stages.count k b) [] := by
  rcases h.count k with hsame | hzero
  · exact .quiet hsame.le
  · exact .cleared hzero.le

/-- **One step.** A steady one counts an observation of the counter's condition, or leaves nothing to count. -/
theorem PollStep.countsStep (hretry : k ≠ .mergeRetry) (hsteady : Steady s t σ e) (h : PollStep s tid t σ e τ) :
    CountsStep (· = some k) (count k σ.artifacts) (count k τ.artifacts) (observations s t σ e τ) := by
  cases h with
  | resume dst left => exact left.countsStep k
  | elsewhere dst left => exact left.countsStep k
  | @crash files here left =>
    by_cases hk : k = .prMissing
    · subst hk
      exact .cleared left.found.le
    · have hsame : count k files = count k σ.artifacts := congrArg readCounter (left.kept k hk)
      exact .cleared (hsame.le.trans (hsteady k hk hretry))
  | poll ctx here =>
    have hmove : CountMove k (observed s (inState t σ) ctx σ.artifacts) σ.artifacts
        (mergeStageRun s tid (inState t σ) ctx σ.artifacts).1 := mergeStageRun_counts here hretry
    show CountsStep _ _ (count k (mergeStageRun s tid (inState t σ) ctx σ.artifacts).1)
      (observed s (inState t σ) ctx σ.artifacts)
    cases hmove with
    | zeroed _ zero => exact .cleared zero.le
    | counted sees next =>
      rw [sees]
      exact .counted rfl next.le
    | kept keeps =>
      rcases observed_cases s (inState t σ) ctx σ.artifacts with hnone | ⟨o, hone⟩
      · rw [hnone]
        exact .quiet keeps.count.le
      · rw [hone]
        by_cases hcondition : o = some k
        · exact .counted hcondition (by rw [keeps.count]; omega)
        · -- something else: the counter is at zero, or this poll clears it
          have hmem : o ∈ observed s (inState t σ) ctx σ.artifacts := by rw [hone]; exact .head _
          rcases hsteady.1 k hretry o hmem hcondition with hzero | hclears
          · exact .cleared (keeps.count.le.trans hzero)
          · exact .cleared (mergeStageRun_clears hclears).le

/-- A poll whose merge is not rejected for now counts no rejection. -/
theorem afterRun_of_unrejected (tid : TicketId) {ctx : MergeStageContext} (here : STAGE_FOR_STATE σ.state = some "merge")
    (h : rejectedHead s (inState t σ) ctx σ.artifacts = none) :
    count .mergeRetry (afterRun s tid t ctx σ).artifacts = count .mergeRetry σ.artifacts ∧
      (afterRun s tid t ctx σ).lastRejected = σ.lastRejected := by
  constructor
  · exact (mergeStageRun_keeps_retry here h).count
  · show (rejectedHead s (inState t σ) ctx σ.artifacts).getD σ.lastRejected = _
    rw [h]
    rfl

/-- **One step**, and the rejected merges: a steady one keeps all that are counted of one head. -/
theorem PollStep.rejectionsMeet (hsteady : Steady s t σ e) (h : PollStep s tid t σ e τ) {past : List Rejection}
    (hpast : LastMeet (· = .rejected σ.lastRejected) (count .mergeRetry σ.artifacts).toNat past) :
    LastMeet (· = .rejected τ.lastRejected) (count .mergeRetry τ.artifacts).toNat
      (past ++ rejections s t σ e τ) := by
  cases h with
  | resume dst left =>
    refine hpast.step (.cleared ?_)
    rcases left.count .mergeRetry with hsame | hzero
    · exact hsame.le.trans hsteady
    · exact hzero.le
  | elsewhere dst left =>
    refine hpast.step ?_
    rcases left.count .mergeRetry with hsame | hzero
    · exact .quiet hsame.le
    · exact .cleared hzero.le
  | crash here left =>
    have hsame := congrArg readCounter (left.kept .mergeRetry (by simp))
    exact hpast.step (.quiet hsame.le)
  | poll ctx here =>
    cases hrejected : rejectedHead s (inState t σ) ctx σ.artifacts with
    | none =>
      obtain ⟨hcount, hlast⟩ := afterRun_of_unrejected tid here hrejected
      have hemits : rejections s t σ (.poll ctx) (afterRun s tid t ctx σ) = [] := by
        rw [rejections, hrejected]
        rfl
      rw [hcount, hlast, hemits, List.append_nil]
      exact hpast
    | some head =>
      have hemits : rejections s t σ (.poll ctx) (afterRun s tid t ctx σ) = [.rejected head] := by
        rw [rejections, hrejected]
        rfl
      have hlast : (afterRun s tid t ctx σ).lastRejected = head := by
        show (rejectedHead s (inState t σ) ctx σ.artifacts).getD σ.lastRejected = _
        rw [hrejected]
        rfl
      have hcount : count .mergeRetry (afterRun s tid t ctx σ).artifacts = count .mergeRetry σ.artifacts + 1 :=
        (mergeStageRun_rejected hrejected).1
      rw [hemits, hlast, hcount]
      rcases hsteady.2 head hrejected with hzero | hsame
      · -- the first one that counts
        have hone : LastMeet (· = Rejection.rejected head) 1 (past ++ [.rejected head]) :=
          (LastMeet.zero past).snoc rfl
        refine hone.of_le ?_
        omega
      · rw [← hsame] at hpast
        exact hpast.step (.counted rfl le_rfl)

end Promise

/-! ## Runs of steady steps -/

section Ceilings

variable (s : Settings) (tid : TicketId) (t : Ticket)

/-- Runs of steady steps, with what they emit. -/
abbrev SteadyRun {ε : Type} (emit : PollState → PollEvent → PollState → List ε) (st : State) (l : List PollEvent)
    (σ : PollState) (es : List ε) : Prop :=
  Emits (Guarded (Steady s t) (PollStep s tid t)) emit { state := st } l σ es

variable {s tid t}

theorem SteadyRun.counts {st : State} {l : List PollEvent} {σ : PollState} {os : List (Option Ceiling)}
    (h : SteadyRun s tid t (observations s t) st l σ os) {k : Ceiling} (hretry : k ≠ .mergeRetry) :
    LastMeet (· = some k) (count k σ.artifacts).toNat os := by
  have hstart : LastMeet (· = some k) (count k ({} : Artifacts)).toNat [] := by
    cases k <;> exact .zero []
  exact h.invariant (I := fun past σ => LastMeet (· = some k) (count k σ.artifacts).toNat past)
    (fun past σ e τ hpast hstep => hpast.step (hstep.2.countsStep hretry hstep.1)) hstart

theorem SteadyRun.rejectionsMeet {st : State} {l : List PollEvent} {σ : PollState} {as : List Rejection}
    (h : SteadyRun s tid t (rejections s t) st l σ as) :
    LastMeet (· = .rejected σ.lastRejected) (count .mergeRetry σ.artifacts).toNat as :=
  h.invariant (I := fun past σ => LastMeet (· = .rejected σ.lastRejected) (count .mergeRetry σ.artifacts).toNat past)
    (fun _ _ _ _ hpast hstep => hstep.2.rejectionsMeet hstep.1 hpast) (.zero [])

/-- **A block stands for consecutive polls.** In a run of steady steps, a poll that blocks the ticket at a
    ceiling is the last of as many that observed nothing else; and one that blocks it on rejected merges counts
    merges of one head, all rejected since the ticket was last resumed. -/
theorem ceilings_count_consecutive {st : State} {l : List PollEvent} {σ : PollState} {os : List (Option Ceiling)}
    {as : List Rejection} (hobserved : SteadyRun s tid t (observations s t) st l σ os)
    (hmerges : SteadyRun s tid t (rejections s t) st l σ as) {ctx : MergeStageContext}
    (here : STAGE_FOR_STATE σ.state = some "merge") (hsteady : Steady s t σ (.poll ctx)) :
    (∀ k, BlocksAt s tid (inState t σ) ctx σ.artifacts k →
        LastMeet (· = some k) (ceiling s k) (os ++ observed s (inState t σ) ctx σ.artifacts)) ∧
      ∀ head, Exhausts s tid (inState t σ) ctx σ.artifacts head →
        MERGE_MAX_RETRIES ≤ count .mergeRetry (afterRun s tid t ctx σ).artifacts ∧
          LastMeet (· = .rejected head) (count .mergeRetry (afterRun s tid t ctx σ).artifacts).toNat
            (as ++ [.rejected head]) := by
  constructor
  · intro k hblocks
    have hretry : k ≠ .mergeRetry := by
      rintro rfl
      exact observed_ne_mergeRetry (hblocks.observes ▸ List.mem_singleton_self _)
    have hreached := hblocks.reached here
    rw [hblocks.observes]
    exact ((hobserved.counts hretry).snoc rfl).of_le (by omega)
  · intro head hexhausts
    have hpoll : PollStep s tid t σ (.poll ctx) (afterRun s tid t ctx σ) := .poll ctx here
    have hstep := hpoll.rejectionsMeet hsteady hmerges.rejectionsMeet
    have hcount : count .mergeRetry (afterRun s tid t ctx σ).artifacts = count .mergeRetry σ.artifacts + 1 :=
      (mergeStageRun_rejected hexhausts.rejects).1
    have hreached := (mergeStageRun_rejected hexhausts.rejects).2 hexhausts.blocked
    have hemits : rejections s t σ (.poll ctx) (afterRun s tid t ctx σ) = [.rejected head] := by
      rw [rejections, hexhausts.rejects]
      rfl
    have hlast : (afterRun s tid t ctx σ).lastRejected = head := by
      show (rejectedHead s (inState t σ) ctx σ.artifacts).getD σ.lastRejected = _
      rw [hexhausts.rejects]
      rfl
    rw [hemits, hlast] at hstep
    exact ⟨hreached.trans hcount.ge, hstep⟩

end Ceilings

/-! ## Two polls that are not consecutive -/

def TWO_POLLS : Settings := { greenUnpromotableMaxPolls := 2 }

def POLLED_TICKET : Ticket := { title := "t", state := .implementComplete, createdAt := 0, updatedAt := 0 }

/-- Green checks, and a pull request the forge does not promote. -/
def STUCK_POLL : MergeStageContext where
  approval := {
    prStatus := .found { mergeableState := some "blocked", sha := "h1" }
    checkStatus := .found { conclusion := some "success", jobs := ["build"] } }

/-- Green checks, and a pull request the forge would merge, if it were not busy. -/
def BUSY_POLL : MergeStageContext where
  approval := {
    prStatus := .found { mergeableState := some "clean", sha := "h1" }
    checkStatus := .found { conclusion := some "success", jobs := ["build"] }
    mergePr := .rejected "Base branch was modified" true }

/-- The ticket before its first poll. -/
def UNPOLLED : PollState := { state := .implementComplete }

/-- The ticket after a poll. -/
def polledOnce : PollState := afterRun TWO_POLLS "T" POLLED_TICKET STUCK_POLL UNPOLLED

theorem stuck_poll_steady : Steady TWO_POLLS POLLED_TICKET UNPOLLED (.poll STUCK_POLL) := by
  refine ⟨?_, ?_⟩
  · intro k hk o ho hne
    cases k <;> exact .inl le_rfl
  · intro head hhead
    exact .inl le_rfl

theorem second_stuck_poll_steady : Steady TWO_POLLS POLLED_TICKET polledOnce (.poll STUCK_POLL) := by
  refine ⟨?_, ?_⟩
  · intro k hk o ho hne
    cases k with
    | greenUnpromotable => exact absurd (List.mem_singleton.1 ho) hne
    | prMissing => exact .inl le_rfl
    | emptyRollup => exact .inl le_rfl
    | mergeRetry => exact absurd rfl hk
  · intro head hhead
    cases hhead

/-- The second poll blocks the ticket. -/
theorem second_stuck_poll_blocks : BlocksAt TWO_POLLS "T" (inState POLLED_TICKET polledOnce) STUCK_POLL
    polledOnce.artifacts .greenUnpromotable :=
  ⟨rfl, rfl, fun h => by cases h⟩

/-- Two polls in a row that find green checks and no promotion. -/
theorem two_stuck_polls : LastMeet (· = some Ceiling.greenUnpromotable) (ceiling TWO_POLLS .greenUnpromotable)
    ([some .greenUnpromotable] ++
      observed TWO_POLLS (inState POLLED_TICKET polledOnce) STUCK_POLL polledOnce.artifacts) := by
  have hstep : Guarded (Steady TWO_POLLS POLLED_TICKET) (PollStep TWO_POLLS "T" POLLED_TICKET) UNPOLLED
      (.poll STUCK_POLL) polledOnce := ⟨stuck_poll_steady, .poll STUCK_POLL rfl⟩
  have hobserved : SteadyRun TWO_POLLS "T" POLLED_TICKET (observations TWO_POLLS POLLED_TICKET) .implementComplete
      [.poll STUCK_POLL] polledOnce [some .greenUnpromotable] := .single hstep
  have hmerges : SteadyRun TWO_POLLS "T" POLLED_TICKET (rejections TWO_POLLS POLLED_TICKET) .implementComplete
      [.poll STUCK_POLL] polledOnce [] := .single hstep
  exact (ceilings_count_consecutive hobserved hmerges rfl second_stuck_poll_steady).1 .greenUnpromotable
    second_stuck_poll_blocks

/-- The ticket after a poll, and another one that would merge. -/
def polledTwice : PollState := afterRun TWO_POLLS "T" POLLED_TICKET BUSY_POLL polledOnce

/-- With a mergeable pull request in between, the second such poll blocks the ticket too. -/
theorem ceiling_of_separate_polls :
    ¬ ∀ (s : Settings) (tid : TicketId) (t : Ticket) (st : State) (l : List PollEvent) (σ : PollState)
        (os : List (Option Ceiling)) (ctx : MergeStageContext),
      Emits (PollStep s tid t) (observations s t) { state := st } l σ os →
        STAGE_FOR_STATE σ.state = some "merge" → ∀ k, BlocksAt s tid (inState t σ) ctx σ.artifacts k →
          LastMeet (· = some k) (ceiling s k) (os ++ observed s (inState t σ) ctx σ.artifacts) := by
  intro h
  have hrun : Emits (PollStep TWO_POLLS "T" POLLED_TICKET) (observations TWO_POLLS POLLED_TICKET) UNPOLLED
      [.poll STUCK_POLL, .poll BUSY_POLL] polledTwice [some .greenUnpromotable, none] :=
    .cons (.poll STUCK_POLL rfl) (.cons (.poll BUSY_POLL rfl) (.nil polledTwice))
  have hblocks : BlocksAt TWO_POLLS "T" (inState POLLED_TICKET polledTwice) STUCK_POLL polledTwice.artifacts
      .greenUnpromotable := ⟨rfl, rfl, fun h => by cases h⟩
  have hlast := (h _ _ _ _ _ _ _ _ hrun rfl _ hblocks).forall_drop
  cases hlast none (.head _)

end Stages
end RobotsixMill
