import RobotsixMill.Lib.Runs
import RobotsixMill.Lib.Table
import RobotsixMill.Lib.MinQueue
import Mathlib.Data.Prod.Lex
import Mathlib.Order.Lattice
import Mathlib.Data.Int.Order.Basic

/-!
# `Runtime.Gate` — the admission gate of the global concurrency cap

`PriorityGate` hands out `value` slots, the best-ranked waiter first; `reserved` of them only go to
privileged callers. A call of `acquire` that has to wait owns a future and an entry of `_waiters`.

The event loop runs one task between two awaits, so the gate changes in four kinds of steps:
`acquire` up to its return or its `await`, a `task.cancel()` of a waiting call, the wakeup of a call whose
future is done, and `release`. A waiting call is in one of four phases: its future is pending, cancelled,
or has its result, and in the last case the task may have been told to cancel before it ran again.

With a reservation a free slot and a waiter do exist side by side. What holds instead is
`GateInv.stuck`: no live waiter could be admitted at the current free count.

- `GateInv.step` — every step keeps the invariant.
- `gate_safe` — no slot is lost, no wakeup is lost, the reserve is kept, each slot that is given back
  goes to the best-ranked waiter it may go to, and nobody is passed by.
-/

namespace RobotsixMill
namespace Runtime
open Lib

/-! ## The gate -/

/-- A rank tuple; lower is admitted sooner. -/
abbrev Rank := Int × Int

/-- One call of `acquire`. -/
abbrev CallId := Nat

/-- An entry of `_waiters`: rank, arrival number, the call whose future it carries, `reserved_ok`. -/
structure Waiter where
  rank : Rank
  seq : Nat
  call : CallId
  reservedOk : Bool
deriving DecidableEq, Repr

/-- The order of the heap; `seq` is unique, so the tuple comparison stops there. -/
def Waiter.key (w : Waiter) : Int ×ₗ Int ×ₗ Nat := toLex (w.rank.1, toLex (w.rank.2, w.seq))

/-- The fields of `PriorityGate`. -/
structure PriorityGate where
  value : Int
  reserved : Int
  waiters : List Waiter
  seq : Nat
deriving DecidableEq, Repr

/-- `__init__`. -/
def PriorityGate.new (value reserved : Int) : Except String PriorityGate :=
  if value < 1 then .error "PriorityGate value must be >= 1"
  else if reserved < 0 then .error "PriorityGate reserved must be >= 0"
  else .ok { value := value, reserved := min reserved (value - 1), waiters := [], seq := 0 }

/-- `_can_admit`. -/
def PriorityGate.canAdmit (g : PriorityGate) (reservedOk : Bool) : Bool :=
  if g.value ≤ 0 then false else reservedOk || decide (g.reserved < g.value)

/-- `_admissible_waiter_exists`. -/
def PriorityGate.admissibleWaiterExists (g : PriorityGate) (cancelled : Waiter → Bool) : Bool :=
  g.waiters.any fun w => !cancelled w && g.canAdmit w.reservedOk

/-! ## The gate and its callers -/

/-- A future. -/
inductive Fut
  | pending
  | cancelled
  | result
deriving DecidableEq, Repr

/-- A call of `acquire` that has not raised, until its slot is released. `mustCancel` is the flag
    `task.cancel()` sets when the future is done already. -/
inductive Call
  | awaiting (entry : Waiter) (fut : Fut) (mustCancel : Bool)
  | holding
deriving DecidableEq, Repr

/-- The call has a slot: it holds it, or it was granted one it has not observed yet. -/
def Call.hasSlot : Call → Bool
  | .awaiting _ .result _ => true
  | .awaiting _ _ _ => false
  | .holding => true

/-- The gate and the calls in flight. -/
structure GateSys where
  gate : PriorityGate
  calls : Table CallId Call

/-- A gate nobody has called. -/
def GateSys.start (g : PriorityGate) : GateSys := { gate := g, calls := .empty }

namespace GateSys

/-- `fut.cancelled()` of the future of an entry. -/
def cancelled (σ : GateSys) (w : Waiter) : Bool :=
  match σ.calls.get w.call with
  | some (.awaiting _ .cancelled _) => true
  | _ => false

/-- `fut.set_result(None)` for the future of a call. -/
def setResult (calls : Table CallId Call) (c : CallId) : Table CallId Call :=
  match calls.get c with
  | some (.awaiting w .pending m) => calls.put c (.awaiting w .result m)
  | _ => calls

/-- `acquire`, up to its return or its `await`. -/
def acquire (c : CallId) (rank : Rank) (reservedOk : Bool) (σ : GateSys) : GateSys :=
  if σ.gate.canAdmit reservedOk && !σ.gate.admissibleWaiterExists σ.cancelled then
    { gate := { σ.gate with value := σ.gate.value - 1 }, calls := σ.calls.put c .holding }
  else
    let seq := σ.gate.seq + 1
    let entry : Waiter := { rank := rank, seq := seq, call := c, reservedOk := reservedOk }
    { gate := { σ.gate with waiters := σ.gate.waiters ++ [entry], seq := seq }
      calls := σ.calls.put c (.awaiting entry .pending false) }

/-- `_release_slot`. -/
def releaseSlot (σ : GateSys) : GateSys :=
  let g := { σ.gate with value := σ.gate.value + 1 }
  if g.value ≤ 0 then { σ with gate := g }
  else
    match popUntil Waiter.key σ.cancelled (fun w => g.canAdmit w.reservedOk) g.waiters.length []
        g.waiters with
    | (none, left) => { σ with gate := { g with waiters := left } }
    | (some w, left) =>
      { gate := { g with value := g.value - 1, waiters := left }, calls := setResult σ.calls w.call }

end GateSys

/-- The steps of the event loop that concern the gate. -/
inductive GateAction
  | acquire (c : CallId) (rank : Rank) (reservedOk : Bool)
  | cancel (c : CallId)
  | wake (c : CallId)
  | release (c : CallId)
deriving DecidableEq, Repr

/-- The step, when it can be taken: a call starts once, only waiting calls are cancelled (the
    cancellation of a holder reaches the gate as its `release`), a call wakes when its future is done,
    and a holder releases. -/
def GateAction.run (σ : GateSys) : GateAction → Option GateSys
  | .acquire c rank reservedOk =>
    match σ.calls.get c with
    | some _ => none
    | none => some (σ.acquire c rank reservedOk)
  | .cancel c =>
    match σ.calls.get c with
    | some (.awaiting w .pending m) =>
      some { σ with calls := σ.calls.put c (.awaiting w .cancelled m) }
    | some (.awaiting w fut _) => some { σ with calls := σ.calls.put c (.awaiting w fut true) }
    | _ => none
  | .wake c =>
    match σ.calls.get c with
    | some (.awaiting _ .result false) => some { σ with calls := σ.calls.put c .holding }
    | some (.awaiting _ .result true) =>
      -- granted and cancelled: pass the slot on
      some { σ with calls := σ.calls.erase c }.releaseSlot
    | some (.awaiting w .cancelled _) =>
      some { gate := { σ.gate with waiters := σ.gate.waiters.erase w }, calls := σ.calls.erase c }
    | _ => none
  | .release c =>
    match σ.calls.get c with
    | some .holding => some { σ with calls := σ.calls.erase c }.releaseSlot
    | _ => none

/-- Runs of the gate: any interleaving of its callers. -/
abbrev GateRun (σ : GateSys) (as : List GateAction) (σ' : GateSys) : Prop :=
  Run (fun σ a σ' => a.run σ = some σ') σ as σ'

/-! ## The invariant -/

/-- What holds between any two steps of a gate with `slots` slots, `reserve` of them reserved. -/
structure GateInv (slots reserve : Int) (σ : GateSys) : Prop where
  reserve : σ.gate.reserved = reserve
  free : 0 ≤ σ.gate.value
  slots : σ.gate.value + σ.calls.count Call.hasSlot = slots
  nodup : σ.gate.waiters.Nodup
  /-- An entry belongs to a call that waits for a future without a result. -/
  queued : ∀ w ∈ σ.gate.waiters, ∃ fut m,
    σ.calls.get w.call = some (.awaiting w fut m) ∧ fut ≠ .result
  /-- A call that waits for its result is queued. -/
  waiting : ∀ c w m, σ.calls.get c = some (.awaiting w .pending m) → w ∈ σ.gate.waiters
  own : ∀ c w fut m, σ.calls.get c = some (.awaiting w fut m) → w.call = c
  /-- No live waiter could be admitted. -/
  stuck : ∀ c w m, σ.calls.get c = some (.awaiting w .pending m) →
    σ.gate.canAdmit w.reservedOk = false

theorem canAdmit_eq_false {g : PriorityGate} {ok : Bool} :
    g.canAdmit ok = false ↔ g.value ≤ 0 ∨ (ok = false ∧ g.value ≤ g.reserved) := by
  unfold PriorityGate.canAdmit
  by_cases h : g.value ≤ 0
  · simp [h]
  · cases ok <;> simp [h]

theorem canAdmit_eq_true {g : PriorityGate} {ok : Bool} :
    g.canAdmit ok = true ↔ 0 < g.value ∧ (ok = true ∨ g.reserved < g.value) := by
  unfold PriorityGate.canAdmit
  by_cases h : g.value ≤ 0
  · have : ¬ 0 < g.value := by omega
    simp [h, this]
  · have : 0 < g.value := by omega
    cases ok <;> simp [h, this]

/-- A slot that is taken admits nobody new. -/
theorem canAdmit_mono {g g' : PriorityGate} {ok : Bool} (h : g.canAdmit ok = false)
    (hv : g'.value ≤ g.value) (hr : g'.reserved = g.reserved) : g'.canAdmit ok = false := by
  rw [canAdmit_eq_false] at h ⊢
  rcases h with h | ⟨hok, h⟩
  · left
    omega
  · right
    exact ⟨hok, by omega⟩

section Steps

variable {slots reserve : Int} {σ : GateSys} {c : CallId}

theorem cancelled_of_queued {w : Waiter} {fut : Fut} {m : Bool}
    (h : σ.calls.get w.call = some (.awaiting w fut m)) (hf : fut ≠ .result) :
    σ.cancelled w = false ↔ fut = .pending := by
  unfold GateSys.cancelled
  rw [h]
  cases fut with
  | pending => simp
  | cancelled => simp
  | result => exact absurd rfl hf

/-- **`_release_slot`.** The slot goes to the live waiter with the least key among those it may go to;
    when there is none it stays free. -/
theorem releaseSlot_cases (h : GateInv slots reserve σ) :
    (∃ left, Scanned Waiter.key σ.cancelled
        (fun w => { σ.gate with value := σ.gate.value + 1 }.canAdmit w.reservedOk)
        σ.gate.waiters none left ∧
      σ.releaseSlot =
        { σ with gate := { σ.gate with value := σ.gate.value + 1, waiters := left } }) ∨
    ∃ w left m, Scanned Waiter.key σ.cancelled
        (fun w => { σ.gate with value := σ.gate.value + 1 }.canAdmit w.reservedOk)
        σ.gate.waiters (some w) left ∧
      σ.calls.get w.call = some (.awaiting w .pending m) ∧
      σ.releaseSlot = { gate := { σ.gate with waiters := left }
                        calls := σ.calls.put w.call (.awaiting w .result m) } := by
  have hpos : ¬ σ.gate.value + 1 ≤ 0 := by
    have := h.free
    omega
  have hscan := @popUntil_spec _ _ _ Waiter.key σ.cancelled
    (fun w => { σ.gate with value := σ.gate.value + 1 }.canAdmit w.reservedOk)
    σ.gate.waiters.length [] σ.gate.waiters le_rfl (by simp)
  rw [List.append_nil] at hscan
  unfold GateSys.releaseSlot
  dsimp only
  rw [if_neg hpos]
  revert hscan
  generalize popUntil Waiter.key σ.cancelled
    (fun w => { σ.gate with value := σ.gate.value + 1 }.canAdmit w.reservedOk)
    σ.gate.waiters.length [] σ.gate.waiters = res
  obtain ⟨found, left⟩ := res
  intro hscan
  cases found with
  | none => exact .inl ⟨left, hscan, rfl⟩
  | some w =>
      right
      have hmem : w ∈ σ.gate.waiters := hscan.subperm.subset List.mem_cons_self
      obtain ⟨fut, m, hget, hfut⟩ := h.queued w hmem
      have hpend := (cancelled_of_queued hget hfut).1 (hscan.live w rfl)
      subst hpend
      refine ⟨w, left, m, hscan, hget, ?_⟩
      dsimp only [GateSys.setResult]
      rw [hget, Int.add_sub_cancel]

/-! ### What each step preserves -/

theorem GateInv.start {value reserved : Int} {g : PriorityGate}
    (h : PriorityGate.new value reserved = .ok g) :
    GateInv value (min reserved (value - 1)) (.start g) := by
  unfold PriorityGate.new at h
  split at h
  · cases h
  · rename_i hv
    split at h
    · cases h
    · cases h
      refine ⟨rfl, ?_, ?_, List.nodup_nil, ?_, ?_, ?_, ?_⟩
      · show 0 ≤ value
        omega
      · show value + 0 = value
        omega
      · intro w hw
        cases hw
      · intro c w m hget
        cases hget
      · intro c w fut m hget
        cases hget
      · intro c w m hget
        cases hget

/-- A call without an entry has none under its name. -/
theorem GateInv.notMem_of_get_none (h : GateInv slots reserve σ) (hget : σ.calls.get c = none)
    {w : Waiter} (hw : w ∈ σ.gate.waiters) : w.call ≠ c := by
  rintro rfl
  obtain ⟨fut, m, hget', -⟩ := h.queued w hw
  rw [hget] at hget'
  cases hget'

/-- The fast path is taken at most where no live waiter is passed by, and only past waiters that the
    reservation holds back. -/
theorem GateInv.admissible_none (h : GateInv slots reserve σ) :
    σ.gate.admissibleWaiterExists σ.cancelled = false := by
  unfold PriorityGate.admissibleWaiterExists
  rw [List.any_eq_false]
  intro w hw
  obtain ⟨fut, m, hget, hfut⟩ := h.queued w hw
  cases hc : σ.cancelled w with
  | true => simp
  | false =>
      have hpend := (cancelled_of_queued hget hfut).1 hc
      subst hpend
      simp [h.stuck _ _ _ hget]

theorem GateInv.acquire (h : GateInv slots reserve σ) (hget : σ.calls.get c = none) (rank : Rank)
    (ok : Bool) : GateInv slots reserve (σ.acquire c rank ok) := by
  have hcount := fun call => @Table.count_put _ _ _ Call.hasSlot σ.calls c call
  simp only [hget, Table.tally_none, Table.tally_some] at hcount
  unfold GateSys.acquire
  rw [h.admissible_none]
  split
  · -- fast path
    rename_i hadm
    have hadm : σ.gate.canAdmit ok = true := by simpa using hadm
    have hpos := (canAdmit_eq_true.1 hadm).1
    refine ⟨h.reserve, ?_, ?_, h.nodup, ?_, ?_, ?_, ?_⟩
    · show 0 ≤ σ.gate.value - 1
      omega
    · have := hcount .holding
      have hs := h.slots
      simp only [Call.hasSlot, if_true] at this
      show σ.gate.value - 1 + ((σ.calls.put c .holding).count Call.hasSlot : Int) = slots
      omega
    · intro w hw
      rw [Table.get_put_ne _ _ (h.notMem_of_get_none hget hw)]
      exact h.queued w hw
    · intro c' w m hget'
      by_cases hc : c' = c
      · subst hc
        rw [Table.get_put_self] at hget'
        cases hget'
      · rw [Table.get_put_ne _ _ hc] at hget'
        exact h.waiting c' w m hget'
    · intro c' w fut m hget'
      by_cases hc : c' = c
      · subst hc
        rw [Table.get_put_self] at hget'
        cases hget'
      · rw [Table.get_put_ne _ _ hc] at hget'
        exact h.own c' w fut m hget'
    · intro c' w m hget'
      by_cases hc : c' = c
      · subst hc
        rw [Table.get_put_self] at hget'
        cases hget'
      · rw [Table.get_put_ne _ _ hc] at hget'
        refine canAdmit_mono (h.stuck c' w m hget') ?_ rfl
        show σ.gate.value - 1 ≤ σ.gate.value
        omega
  · -- the call queues because it cannot be admitted itself
    rename_i hadm
    have hadm : σ.gate.canAdmit ok = false := by simpa using hadm
    dsimp only
    generalize hentry : ({ rank := rank, seq := σ.gate.seq + 1, call := c, reservedOk := ok } : Waiter) =
      entry
    have hcall : entry.call = c := by rw [← hentry]
    have hok : entry.reservedOk = ok := by rw [← hentry]
    have hnew : entry ∉ σ.gate.waiters := fun hmem => h.notMem_of_get_none hget hmem hcall
    refine ⟨h.reserve, h.free, ?_, ?_, ?_, ?_, ?_, ?_⟩
    · have := hcount (.awaiting entry .pending false)
      have hs := h.slots
      simp only [Call.hasSlot, Bool.false_eq_true, if_false] at this
      show σ.gate.value + ((σ.calls.put c (.awaiting entry .pending false)).count Call.hasSlot : Int) =
        slots
      omega
    · exact h.nodup.append (List.nodup_singleton _) (by simpa using hnew)
    · intro w hw
      rcases List.mem_append.1 hw with hw | hw
      · rw [Table.get_put_ne _ _ (h.notMem_of_get_none hget hw)]
        exact h.queued w hw
      · rw [List.mem_singleton] at hw
        subst hw
        exact ⟨.pending, false, by rw [hcall]; simp, by simp⟩
    · intro c' w m hget'
      by_cases hc : c' = c
      · subst hc
        rw [Table.get_put_self] at hget'
        cases hget'
        exact List.mem_append_right _ (List.mem_singleton.2 rfl)
      · rw [Table.get_put_ne _ _ hc] at hget'
        exact List.mem_append_left _ (h.waiting c' w m hget')
    · intro c' w fut m hget'
      by_cases hc : c' = c
      · subst hc
        rw [Table.get_put_self] at hget'
        cases hget'
        exact hcall
      · rw [Table.get_put_ne _ _ hc] at hget'
        exact h.own c' w fut m hget'
    · intro c' w m hget'
      by_cases hc : c' = c
      · subst hc
        rw [Table.get_put_self] at hget'
        cases hget'
        rw [hok]
        exact canAdmit_mono hadm le_rfl rfl
      · rw [Table.get_put_ne _ _ hc] at hget'
        exact canAdmit_mono (h.stuck c' w m hget') le_rfl rfl

/-- A call that changes its phase without getting or losing a slot, and not back to pending. -/
theorem GateInv.rephase (h : GateInv slots reserve σ) {w : Waiter} {fut : Fut} {m : Bool} {call : Call}
    (hget : σ.calls.get c = some (.awaiting w fut m))
    (hslot : call.hasSlot = (Call.awaiting w fut m).hasSlot)
    (hcall : (∃ fut' m', call = .awaiting w fut' m' ∧ fut' ≠ .pending) ∨ call = .holding) :
    GateInv slots reserve { σ with calls := σ.calls.put c call } := by
  have hcount := @Table.count_put _ _ _ Call.hasSlot σ.calls c call
  rw [hget, Table.tally_some, Table.tally_some, hslot] at hcount
  have hpend : ∀ c' w' m', (σ.calls.put c call).get c' = some (.awaiting w' .pending m') →
      σ.calls.get c' = some (.awaiting w' .pending m') := by
    intro c' w' m' hget'
    by_cases hc : c' = c
    · subst hc
      rw [Table.get_put_self] at hget'
      rcases hcall with ⟨fut', m'', rfl, hf⟩ | rfl
      · cases hget'
        exact absurd rfl hf
      · cases hget'
    · rwa [Table.get_put_ne _ _ hc] at hget'
  refine ⟨h.reserve, h.free, ?_, h.nodup, ?_, ?_, ?_, ?_⟩
  · have hs := h.slots
    show σ.gate.value + ((σ.calls.put c call).count Call.hasSlot : Int) = slots
    omega
  · intro w' hw'
    obtain ⟨fut', m', hget', hf'⟩ := h.queued w' hw'
    by_cases hc : w'.call = c
    · rw [hc, hget] at hget'
      cases hget'
      rw [hc, Table.get_put_self]
      rcases hcall with ⟨fut'', m'', rfl, -⟩ | rfl
      · refine ⟨fut'', m'', rfl, ?_⟩
        rintro rfl
        cases fut with
        | result => exact hf' rfl
        | pending => cases hslot
        | cancelled => cases hslot
      · cases fut with
        | result => exact absurd rfl hf'
        | pending => cases hslot
        | cancelled => cases hslot
    · rw [Table.get_put_ne _ _ hc]
      exact ⟨fut', m', hget', hf'⟩
  · intro c' w' m' hget'
    exact h.waiting c' w' m' (hpend c' w' m' hget')
  · intro c' w' fut' m' hget'
    by_cases hc : c' = c
    · subst hc
      rw [Table.get_put_self] at hget'
      rcases hcall with ⟨fut'', m'', rfl, -⟩ | rfl
      · cases hget'
        exact h.own _ _ _ _ hget
      · cases hget'
    · rw [Table.get_put_ne _ _ hc] at hget'
      exact h.own c' w' fut' m' hget'
  · intro c' w' m' hget'
    exact h.stuck c' w' m' (hpend c' w' m' hget')

/-- A call that has a slot goes away; the slot is not free yet. -/
theorem GateInv.dropSlot (h : GateInv slots reserve σ) {call : Call} (hget : σ.calls.get c = some call)
    (hslot : call.hasSlot = true) :
    GateInv (slots - 1) reserve { σ with calls := σ.calls.erase c } := by
  have hcount := @Table.count_erase _ _ _ Call.hasSlot σ.calls c
  rw [hget, Table.tally_some, if_pos hslot] at hcount
  refine ⟨h.reserve, h.free, ?_, h.nodup, ?_, ?_, ?_, ?_⟩
  · have hs := h.slots
    show σ.gate.value + ((σ.calls.erase c).count Call.hasSlot : Int) = slots - 1
    omega
  · intro w hw
    obtain ⟨fut, m, hget', hf⟩ := h.queued w hw
    have hne : w.call ≠ c := by
      rintro rfl
      rw [hget] at hget'
      cases hget'
      cases fut with
      | result => exact hf rfl
      | pending => cases hslot
      | cancelled => cases hslot
    rw [Table.get_erase_ne _ hne]
    exact ⟨fut, m, hget', hf⟩
  · intro c' w m hget'
    exact h.waiting c' w m (Table.get_of_get_erase hget').2
  · intro c' w fut m hget'
    exact h.own c' w fut m (Table.get_of_get_erase hget').2
  · intro c' w m hget'
    exact h.stuck c' w m (Table.get_of_get_erase hget').2

/-- A cancelled call leaves the queue. -/
theorem GateInv.leave (h : GateInv slots reserve σ) {w : Waiter} {m : Bool}
    (hget : σ.calls.get c = some (.awaiting w .cancelled m)) :
    GateInv slots reserve
      { gate := { σ.gate with waiters := σ.gate.waiters.erase w }, calls := σ.calls.erase c } := by
  have hcount := @Table.count_erase _ _ _ Call.hasSlot σ.calls c
  rw [hget] at hcount
  have hcall := h.own _ _ _ _ hget
  refine ⟨h.reserve, h.free, ?_, h.nodup.erase w, ?_, ?_, ?_, ?_⟩
  · have hs := h.slots
    simp only [Table.tally_some, Call.hasSlot, Bool.false_eq_true, if_false] at hcount
    show σ.gate.value + ((σ.calls.erase c).count Call.hasSlot : Int) = slots
    omega
  · intro w' hw'
    obtain ⟨hne, hw'⟩ := h.nodup.mem_erase_iff.1 hw'
    obtain ⟨fut, m', hget', hf⟩ := h.queued w' hw'
    have hc : w'.call ≠ c := by
      intro hc
      rw [hc, hget] at hget'
      cases hget'
      exact hne rfl
    rw [Table.get_erase_ne _ hc]
    exact ⟨fut, m', hget', hf⟩
  · intro c' w' m' hget'
    obtain ⟨hc, hgot⟩ := Table.get_of_get_erase hget'
    have hne : w' ≠ w := by
      rintro rfl
      exact hc ((h.own _ _ _ _ hgot).symm.trans hcall)
    exact h.nodup.mem_erase_iff.2 ⟨hne, h.waiting c' w' m' hgot⟩
  · intro c' w' fut m' hget'
    exact h.own c' w' fut m' (Table.get_of_get_erase hget').2
  · intro c' w' m' hget'
    exact canAdmit_mono (h.stuck c' w' m' (Table.get_of_get_erase hget').2) le_rfl rfl

/-- The entries that are left after a scan. -/
theorem GateInv.left (h : GateInv slots reserve σ) {use : Waiter → Bool} {found : Option Waiter}
    {left : List Waiter} (hs : Scanned Waiter.key σ.cancelled use σ.gate.waiters found left) :
    left.Nodup ∧ (∀ w ∈ left, w ∈ σ.gate.waiters ∧ some w ≠ found) ∧
      ∀ c w m, σ.calls.get c = some (.awaiting w .pending m) → some w ≠ found → w ∈ left := by
  obtain ⟨l, hperm, hsub⟩ := hs.subperm
  have hnd : (found.toList ++ left).Nodup := hperm.nodup_iff.1 (h.nodup.sublist hsub)
  refine ⟨(List.nodup_append.1 hnd).2.1, ?_, ?_⟩
  · intro w hw
    refine ⟨hs.subperm.subset (List.mem_append_right _ hw), ?_⟩
    rintro rfl
    exact (List.nodup_append.1 hnd).2.2 w (List.mem_singleton.2 rfl) w hw rfl
  · intro c w m hget hne
    have hmem := h.waiting c w m hget
    have hlive : σ.cancelled w = false := by
      unfold GateSys.cancelled
      rw [h.own c w .pending m hget, hget]
    rcases List.mem_append.1 (hs.kept w hmem hlive) with hf | hl
    · exact absurd (Option.mem_toList.1 hf).symm hne
    · exact hl

theorem GateInv.releaseSlot (h : GateInv (slots - 1) reserve σ) :
    GateInv slots reserve σ.releaseSlot := by
  rcases releaseSlot_cases h with ⟨left, hs, heq⟩ | ⟨w₀, left, m₀, hs, hget₀, heq⟩
  · obtain ⟨hnd, hmem, hkept⟩ := h.left hs
    rw [heq]
    refine ⟨h.reserve, ?_, ?_, hnd, ?_, ?_, h.own, ?_⟩
    · show 0 ≤ σ.gate.value + 1
      have := h.free
      omega
    · show σ.gate.value + 1 + (σ.calls.count Call.hasSlot : Int) = slots
      have := h.slots
      omega
    · exact fun w hw => h.queued w (hmem w hw).1
    · exact fun c w m hget => hkept c w m hget (by simp)
    · intro c w m hget
      have hlive : σ.cancelled w = false := by
        unfold GateSys.cancelled
        rw [h.own c w .pending m hget, hget]
      exact hs.none_usable rfl w (h.waiting c w m hget) hlive
  · obtain ⟨hnd, hmem, hkept⟩ := h.left hs
    have hcount := @Table.count_put _ _ _ Call.hasSlot σ.calls w₀.call (.awaiting w₀ .result m₀)
    rw [hget₀] at hcount
    simp only [Table.tally_some, Call.hasSlot, Bool.false_eq_true, if_false, if_true] at hcount
    have hpend : ∀ c w m,
        (σ.calls.put w₀.call (.awaiting w₀ .result m₀)).get c = some (.awaiting w .pending m) →
        c ≠ w₀.call ∧ σ.calls.get c = some (.awaiting w .pending m) := by
      intro c w m hget
      by_cases hc : c = w₀.call
      · subst hc
        rw [Table.get_put_self] at hget
        cases hget
      · rw [Table.get_put_ne _ _ hc] at hget
        exact ⟨hc, hget⟩
    rw [heq]
    refine ⟨h.reserve, h.free, ?_, hnd, ?_, ?_, ?_, ?_⟩
    · show σ.gate.value + ((σ.calls.put w₀.call (.awaiting w₀ .result m₀)).count Call.hasSlot : Int) =
        slots
      have := h.slots
      omega
    · intro w hw
      obtain ⟨hw, hne⟩ := hmem w hw
      obtain ⟨fut, m, hget, hf⟩ := h.queued w hw
      have hc : w.call ≠ w₀.call := by
        intro hc
        rw [hc, hget₀] at hget
        cases hget
        exact hne rfl
      rw [Table.get_put_ne _ _ hc]
      exact ⟨fut, m, hget, hf⟩
    · intro c w m hget
      obtain ⟨hc, hget⟩ := hpend c w m hget
      refine hkept c w m hget ?_
      rintro ⟨⟩
      exact hc (h.own _ _ _ _ hget).symm
    · intro c w fut m hget
      by_cases hc : c = w₀.call
      · subst hc
        rw [Table.get_put_self] at hget
        cases hget
        rfl
      · rw [Table.get_put_ne _ _ hc] at hget
        exact h.own c w fut m hget
    · intro c w m hget
      exact canAdmit_mono (h.stuck c w m (hpend c w m hget).2) le_rfl rfl

/-! ## One step -/

/-- The step runs `_release_slot`, for the call `c`. -/
def GivesBack (σ : GateSys) (a : GateAction) (c : CallId) : Prop :=
  (a = .wake c ∧ ∃ w, σ.calls.get c = some (.awaiting w .result true)) ∨
    (a = .release c ∧ σ.calls.get c = some .holding)

/-- The steps, by what they do. -/
inductive GateStep (σ : GateSys) : GateAction → GateSys → Prop
  | acquire {c : CallId} {rank : Rank} {ok : Bool} (hget : σ.calls.get c = none) :
      GateStep σ (.acquire c rank ok) (σ.acquire c rank ok)
  | cancel {c : CallId} {w : Waiter} {fut fut' : Fut} {m m' : Bool}
      (hget : σ.calls.get c = some (.awaiting w fut m)) (hdone : fut' ≠ .pending)
      (hresult : fut' = .result ↔ fut = .result) :
      GateStep σ (.cancel c) { σ with calls := σ.calls.put c (.awaiting w fut' m') }
  | observe {c : CallId} {w : Waiter} (hget : σ.calls.get c = some (.awaiting w .result false)) :
      GateStep σ (.wake c) { σ with calls := σ.calls.put c .holding }
  | leave {c : CallId} {w : Waiter} {m : Bool} (hget : σ.calls.get c = some (.awaiting w .cancelled m)) :
      GateStep σ (.wake c)
        { gate := { σ.gate with waiters := σ.gate.waiters.erase w }, calls := σ.calls.erase c }
  | giveBack {a : GateAction} {c : CallId} {call : Call} (hback : GivesBack σ a c)
      (hget : σ.calls.get c = some call) (hslot : call.hasSlot = true) :
      GateStep σ a { σ with calls := σ.calls.erase c }.releaseSlot

theorem gateStep_of_run {a : GateAction} {σ' : GateSys} (h : a.run σ = some σ') :
    GateStep σ a σ' := by
  cases a with
  | acquire c rank ok =>
      simp only [GateAction.run] at h
      split at h
      · cases h
      · cases h
        exact .acquire ‹_›
  | cancel c =>
      simp only [GateAction.run] at h
      split at h
      · cases h
        exact .cancel ‹_› (by simp) (by simp)
      · rename_i w fut m hnot hget
        cases h
        refine .cancel hget ?_ Iff.rfl
        rintro rfl
        exact hnot rfl
      · cases h
  | wake c =>
      simp only [GateAction.run] at h
      split at h
      · cases h
        exact .observe ‹_›
      · rename_i w hget
        cases h
        exact .giveBack (.inl ⟨rfl, w, hget⟩) hget rfl
      · cases h
        exact .leave ‹_›
      · cases h
  | release c =>
      simp only [GateAction.run] at h
      split at h
      · rename_i hget
        cases h
        exact .giveBack (.inr ⟨rfl, hget⟩) hget rfl
      · cases h

/-- **Every step keeps the invariant.** -/
theorem GateInv.step {a : GateAction} {σ' : GateSys} (h : GateInv slots reserve σ)
    (hrun : a.run σ = some σ') : GateInv slots reserve σ' := by
  cases gateStep_of_run hrun with
  | acquire hget => exact h.acquire hget _ _
  | @cancel c w fut fut' m m' hget hdone hresult =>
      refine h.rephase hget ?_ (.inl ⟨fut', m', rfl, hdone⟩)
      cases fut with
      | result => rw [hresult.2 rfl]; rfl
      | pending => cases fut' with
        | result => cases hresult.1 rfl
        | pending => rfl
        | cancelled => rfl
      | cancelled => cases fut' with
        | result => cases hresult.1 rfl
        | pending => rfl
        | cancelled => rfl
  | observe hget => exact h.rephase hget rfl (.inr rfl)
  | leave hget => exact h.leave hget
  | giveBack _ hget hslot => exact (h.dropSlot hget hslot).releaseSlot

/-! ## Safety -/

/-- The call holds a slot or was granted one. -/
def GateSys.HasSlot (σ : GateSys) (c : CallId) : Prop :=
  ∃ call, σ.calls.get c = some call ∧ call.hasSlot = true

/-- The call gets a slot between two states. -/
def Admits (σ σ' : GateSys) (c : CallId) : Prop := ¬ σ.HasSlot c ∧ σ'.HasSlot c

/-- The `reserved_ok` a call has in the step `a`. -/
def GateSys.privileged (σ : GateSys) (a : GateAction) (c : CallId) : Bool :=
  match σ.calls.get c, a with
  | some (.awaiting w _ _), _ => w.reservedOk
  | _, .acquire _ _ ok => ok
  | _, _ => false

/-- A queued call whose future is pending. -/
def GateSys.Live (σ : GateSys) (w : Waiter) : Prop :=
  ∃ m, σ.calls.get w.call = some (.awaiting w .pending m)

/-- A live waiter that may have a slot that has just become free. -/
def GateSys.Eligible (σ : GateSys) (w : Waiter) : Prop :=
  σ.Live w ∧ { σ.gate with value := σ.gate.value + 1 }.canAdmit w.reservedOk = true

/-- A slot given back goes to the eligible waiter with the least rank and arrival number, or becomes
    free. -/
def HandedOn (σ σ' : GateSys) : Prop :=
  (∃ w, σ.Eligible w ∧ (∀ w', σ.Eligible w' → w.key ≤ w'.key) ∧ σ'.gate.value = σ.gate.value ∧
      ∀ c, Admits σ σ' c ↔ c = w.call) ∨
    ((∀ w, ¬ σ.Eligible w) ∧ σ'.gate.value = σ.gate.value + 1 ∧ ∀ c, ¬ Admits σ σ' c)

/-- What a step of a gate with `value` slots, `reserved` of them reserved, never gets wrong. -/
structure StepSafe (value reserved : Int) (σ : GateSys) (a : GateAction) (σ' : GateSys) : Prop where
  reserve_kept : ∀ c, Admits σ σ' c → σ.privileged a c = false → min reserved (value - 1) ≤ σ'.gate.value
  handed_on : ∀ c, GivesBack σ a c → HandedOn σ σ'
  not_passed_by : ∀ c rank ok, a = .acquire c rank ok → σ'.HasSlot c →
    ∀ w, σ.Live w → σ.gate.canAdmit w.reservedOk = false

theorem hasSlot_put {calls : Table CallId Call} {g : PriorityGate} {c c' : CallId} {call : Call} :
    GateSys.HasSlot { gate := g, calls := calls.put c call } c' ↔
      if c' = c then call.hasSlot = true else GateSys.HasSlot { gate := g, calls := calls } c' := by
  unfold GateSys.HasSlot
  by_cases hc : c' = c
  · subst hc
    simp
  · simp [hc]

/-- **A slot given back.** -/
theorem handedOn_releaseSlot (h : GateInv slots reserve σ) {call : Call}
    (hget : σ.calls.get c = some call) (hslot : call.hasSlot = true) :
    HandedOn σ { σ with calls := σ.calls.erase c }.releaseSlot := by
  have hd := h.dropSlot hget hslot
  have hlost : ∀ c', GateSys.HasSlot { σ with calls := σ.calls.erase c } c' → σ.HasSlot c' := by
    rintro c' ⟨call', hget', hs⟩
    exact ⟨call', (Table.get_of_get_erase hget').2, hs⟩
  -- giving the slot back makes no waiter live or dead
  have hlive : ∀ w, σ.Live w →
      w ∈ σ.gate.waiters ∧ GateSys.cancelled { σ with calls := σ.calls.erase c } w = false := by
    rintro w ⟨m, hw⟩
    refine ⟨h.waiting _ _ _ hw, ?_⟩
    have hc : w.call ≠ c := by
      rintro rfl
      rw [hget] at hw
      cases hw
      cases hslot
    unfold GateSys.cancelled
    rw [Table.get_erase_ne _ hc, hw]
  rcases releaseSlot_cases hd with ⟨left, hs, heq⟩ | ⟨w, left, m, hs, hw, heq⟩
  · right
    rw [heq]
    refine ⟨?_, rfl, ?_⟩
    · rintro w ⟨hl, huse⟩
      have := hs.none_usable rfl w (hlive w hl).1 (hlive w hl).2
      rw [huse] at this
      cases this
    · rintro c' ⟨hno, hyes⟩
      exact hno (hlost c' hyes)
  · left
    have hgot := (Table.get_of_get_erase hw).2
    refine ⟨w, ⟨⟨m, hgot⟩, hs.usable w rfl⟩, ?_, ?_, ?_⟩
    · rintro w' ⟨hl, huse⟩
      exact hs.least w rfl w' (hlive w' hl).1 (hlive w' hl).2 huse
    · rw [heq]
    · intro c'
      unfold Admits
      rw [heq, hasSlot_put]
      constructor
      · rintro ⟨hno, hyes⟩
        by_contra hc
        rw [if_neg hc] at hyes
        exact hno (hlost c' hyes)
      · rintro rfl
        rw [if_pos rfl]
        refine ⟨?_, rfl⟩
        rintro ⟨call', hget', hs'⟩
        rw [hgot] at hget'
        cases hget'
        cases hs'

/-- Only `acquire` and a slot given back let anyone in. -/
theorem reserve_of_admits {a : GateAction} {σ' : GateSys} (h : GateInv slots reserve σ)
    (hrun : a.run σ = some σ') (hadm : Admits σ σ' c) (hpriv : σ.privileged a c = false) :
    reserve ≤ σ'.gate.value := by
  obtain ⟨hno, hyes⟩ := hadm
  cases gateStep_of_run hrun with
  | @acquire c₀ rank ok hget =>
      unfold GateSys.acquire at hyes ⊢
      split at hyes
      · rename_i hfast
        rw [if_pos hfast]
        rw [hasSlot_put] at hyes
        by_cases hc : c = c₀
        · subst hc
          have hok : ok = false := by
            unfold GateSys.privileged at hpriv
            rw [hget] at hpriv
            exact hpriv
          obtain ⟨-, hor⟩ := canAdmit_eq_true.1 (Bool.and_eq_true_iff.1 hfast).1
          have := h.reserve
          rw [hok] at hor
          rcases hor with hor | hor
          · cases hor
          · show reserve ≤ σ.gate.value - 1
            omega
        · rw [if_neg hc] at hyes
          exact absurd hyes hno
      · dsimp only at hyes
        rw [hasSlot_put] at hyes
        split at hyes
        · cases hyes
        · exact absurd hyes hno
  | @cancel c₀ w fut fut' m m' hget hdone hresult =>
      rw [hasSlot_put] at hyes
      split at hyes
      · rename_i hc
        subst hc
        refine absurd ⟨_, hget, ?_⟩ hno
        cases fut' with
        | result =>
            rw [hresult.1 rfl]
            rfl
        | pending => cases hyes
        | cancelled => cases hyes
      · exact absurd hyes hno
  | @observe c₀ w hget =>
      rw [hasSlot_put] at hyes
      split at hyes
      · rename_i hc
        subst hc
        exact absurd ⟨_, hget, rfl⟩ hno
      · exact absurd hyes hno
  | leave hget =>
      obtain ⟨call, hc, hs⟩ := hyes
      exact absurd ⟨call, (Table.get_of_get_erase hc).2, hs⟩ hno
  | giveBack _ hget hslot =>
      rcases handedOn_releaseSlot h hget hslot with ⟨w, ⟨⟨m, hw⟩, huse⟩, -, hval, hiff⟩ | ⟨-, -, hnone⟩
      · have hc : c = w.call := (hiff c).1 ⟨hno, hyes⟩
        subst hc
        unfold GateSys.privileged at hpriv
        rw [hw] at hpriv
        obtain ⟨-, hor⟩ := canAdmit_eq_true.1 huse
        have hres := h.reserve
        rw [hval]
        rcases hor with hor | hor
        · dsimp only at hpriv
          rw [hpriv] at hor
          cases hor
        · dsimp only at hor
          omega
      · exact absurd ⟨hno, hyes⟩ (hnone c)

end Steps

/-- **The admission gate.** In every interleaving of callers, cancellations and releases: free slots and
    slots held or granted add up to `value`; every live waiter is queued and cannot be admitted; an
    unprivileged admission leaves the reserve free; a slot given back goes to the best-ranked waiter
    eligible for it; and a newcomer is admitted past no waiter that could be. -/
theorem gate_safe {value reserved : Int} {g : PriorityGate} {as : List GateAction} {σ : GateSys}
    (hnew : PriorityGate.new value reserved = .ok g) (hrun : GateRun (.start g) as σ) :
    σ.gate.value + σ.calls.count Call.hasSlot = value ∧
    (∀ c w m, σ.calls.get c = some (.awaiting w .pending m) →
      w ∈ σ.gate.waiters ∧ σ.gate.canAdmit w.reservedOk = false) ∧
    ∀ a σ', a.run σ = some σ' → StepSafe value reserved σ a σ' := by
  have h : GateInv value (min reserved (value - 1)) σ :=
    hrun.invariant (fun _ _ _ hs hstep => hs.step hstep) (GateInv.start hnew)
  refine ⟨h.slots, fun c w m hget => ⟨h.waiting c w m hget, h.stuck c w m hget⟩, ?_⟩
  intro a σ' hstep
  refine ⟨fun c hadm hpriv => reserve_of_admits h hstep hadm hpriv, ?_, ?_⟩
  · intro c hback
    have hrel : ∃ call, σ.calls.get c = some call ∧ call.hasSlot = true ∧
        σ' = GateSys.releaseSlot { σ with calls := σ.calls.erase c } := by
      rcases hback with ⟨rfl, w, hget⟩ | ⟨rfl, hget⟩
      · simp only [GateAction.run, hget] at hstep
        exact ⟨_, hget, rfl, (Option.some.inj hstep).symm⟩
      · simp only [GateAction.run, hget] at hstep
        exact ⟨_, hget, rfl, (Option.some.inj hstep).symm⟩
    obtain ⟨call, hget, hslot, rfl⟩ := hrel
    exact handedOn_releaseSlot h hget hslot
  · rintro c rank ok rfl - w ⟨m, hw⟩
    exact h.stuck _ w m hw

/-- Two slots, one of them reserved: an unprivileged caller waits while the reserved slot is free, a
    privileged one takes it. -/
theorem gate_safe_reserved_slot : ∃ σ,
    GateRun (.start { value := 2, reserved := 1, waiters := [], seq := 0 })
      [.acquire 0 (1, 99) false, .acquire 1 (0, 3) false, .acquire 2 (0, 5) true, .cancel 1, .wake 1,
        .release 0] σ ∧
    σ.gate.value = 1 ∧ σ.gate.value + σ.calls.count Call.hasSlot = 2 ∧
    ∀ a σ', a.run σ = some σ' → StepSafe 2 1 σ a σ' := by
  have hrun : GateRun (.start { value := 2, reserved := 1, waiters := [], seq := 0 })
      [.acquire 0 (1, 99) false, .acquire 1 (0, 3) false, .acquire 2 (0, 5) true, .cancel 1, .wake 1,
        .release 0] _ :=
    .cons rfl (.cons rfl (.cons rfl (.cons rfl (.cons rfl (.cons rfl (.nil _))))))
  have hsafe := @gate_safe 2 1 _ _ _ rfl hrun
  exact ⟨_, hrun, rfl, hsafe.1, hsafe.2.2⟩

end Runtime
end RobotsixMill
