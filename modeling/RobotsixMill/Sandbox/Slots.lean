import RobotsixMill.Lib.MinQueue
import RobotsixMill.Lib.Runs
import Mathlib.Data.Prod.Lex
import Mathlib.Data.Int.Order.Basic
import Mathlib.Data.List.Nodup
import Mathlib.Data.List.Range

/-!
# `Sandbox.Slots` — the slot gate of the sandboxes

`PrioritySlots` hands out `cap` slots to threads, the best-ranked waiter first. Everything happens with the condition's
lock held, which a caller of `acquire` gives up in `wait` alone, so the gate moves in three kinds of steps:

- `acquire` — a call, up to its return or its first `wait`;
- `wake` — a caller leaves `wait`, because it was notified, ran out of time or woke up for no reason, and goes on to its
  return or its next `wait`;
- `release` — by the holder of a slot.

Whether the time is up, and what the `abandoned` predicate does when it is polled, is arbitrary at every pass.

- `SlotsInv.step` — every step keeps the invariant;
- `slots_safe` — the ceiling, the order of the grants, and that no waiter sleeps through a slot that it may have.
-/

namespace RobotsixMill
namespace Sandbox
open Lib

/-! ## The gate -/

/-- An entry of `_waiting`. -/
structure Entry where
  rank : Int × Int
  seq : Nat
deriving DecidableEq, Repr

/-- The order of the heap; `seq` is unique, so comparison never ties. -/
def Entry.key (e : Entry) : Int ×ₗ Int ×ₗ Nat := toLex (e.rank.1, toLex (e.rank.2, e.seq))

/-- The fields of `PrioritySlots`. -/
structure PrioritySlots where
  cap : Int
  inUse : Int
  waiting : List Entry
  seq : Nat
deriving DecidableEq, Repr

/-- `__init__`. -/
def PrioritySlots.new (cap : Int) : Except String PrioritySlots :=
  if cap < 1 then .error "PrioritySlots cap must be >= 1"
  else .ok { cap := cap, inUse := 0, waiting := [], seq := 0 }

/-- What a poll of the `abandoned` predicate does, if there is one. -/
inductive Abandoned
  | absent
  | answers (gaveUp : Bool)
  | raises
deriving DecidableEq, Repr

/-! ## The gate and its callers -/

/-- The gate and the threads that use it. The last three fields record what happened. -/
structure SlotSys where
  slots : PrioritySlots
  /-- The callers in `wait` that no notification is on its way to, by arrival number. -/
  asleep : Nat → Bool
  /-- The entries whose `acquire` returned `True`, until their slot is released. -/
  holding : List Entry
  /-- The removals from `_waiting`. -/
  removed : List Entry
  acquired : Nat
  released : Nat

/-- A gate nobody has called. -/
def SlotSys.start (s : PrioritySlots) : SlotSys :=
  { slots := s, asleep := fun _ => false, holding := [], removed := [], acquired := 0, released := 0 }

/-- What a step ends with. -/
inductive Outcome
  | granted (e : Entry)
  | refused (e : Entry)
  | raised
  | waits
  | released
deriving DecidableEq, Repr

namespace SlotSys

/-- `_cv.notify_all()`. -/
def notifyAll (σ : SlotSys) : SlotSys := { σ with asleep := fun _ => false }

/-- `heappush`, and the notification that follows it. -/
def push (e : Entry) (σ : SlotSys) : SlotSys :=
  { σ with slots := { σ.slots with waiting := σ.slots.waiting ++ [e], seq := e.seq } }.notifyAll

/-- `_drop`. -/
def drop (e : Entry) (σ : SlotSys) : SlotSys :=
  if e ∈ σ.slots.waiting then
    { σ with slots := { σ.slots with waiting := σ.slots.waiting.erase e }, removed := e :: σ.removed }.notifyAll
  else σ

/-- The branch that takes a slot; `rest` is what `heappop` leaves. -/
def take (e : Entry) (rest : List Entry) (σ : SlotSys) : SlotSys :=
  { σ with
    slots := { σ.slots with waiting := rest, inUse := σ.slots.inUse + 1 }
    holding := e :: σ.holding
    removed := e :: σ.removed
    acquired := σ.acquired + 1 }.notifyAll

/-- The rest of a pass that takes no slot: time up, abandoned, or on to `wait`. -/
def giveUpOrWait (e : Entry) (expired : Bool) (abandoned : Abandoned) (σ : SlotSys) : SlotSys × Outcome :=
  if expired then (σ.drop e, .refused e)
  else
    match abandoned with
    | .answers true => (σ.drop e, .refused e)
    -- the `except` drops the entry before the exception goes on
    | .raises => (σ.drop e, .raised)
    | _ => ({ σ with asleep := fun n => if n = e.seq then true else σ.asleep n }, .waits)

/-- One pass of the loop of `acquire`. -/
def pass (e : Entry) (expired : Bool) (abandoned : Abandoned) (σ : SlotSys) : SlotSys × Outcome :=
  if σ.slots.inUse < σ.slots.cap then
    match popMin Entry.key σ.slots.waiting with
    | none => (σ.drop e, .raised)
    | some (head, rest) =>
      if head = e then (σ.take e rest, .granted e) else σ.giveUpOrWait e expired abandoned
  else σ.giveUpOrWait e expired abandoned

/-- `release`. -/
def release (e : Entry) (σ : SlotSys) : SlotSys × Outcome :=
  if σ.slots.inUse ≤ 0 then (σ, .raised)
  else
    ({ σ with
      slots := { σ.slots with inUse := σ.slots.inUse - 1 }
      holding := σ.holding.erase e
      released := σ.released + 1 }.notifyAll, .released)

end SlotSys

/-- The steps. -/
inductive SlotAction
  | acquire (rank : Int × Int) (expired : Bool) (abandoned : Abandoned)
  | wake (e : Entry) (expired : Bool) (abandoned : Abandoned)
  | release (e : Entry)

/-- The step, when it can be taken: a caller that waits wakes up, a slot that is held is released. -/
def SlotAction.run (σ : SlotSys) : SlotAction → Option (SlotSys × Outcome)
  | .acquire rank expired abandoned =>
    let e : Entry := ⟨rank, σ.slots.seq + 1⟩
    some ((σ.push e).pass e expired abandoned)
  | .wake e expired abandoned =>
    if e ∈ σ.slots.waiting then
      some ({ σ with asleep := fun n => if n = e.seq then false else σ.asleep n }.pass e expired abandoned)
    else none
  | .release e => if e ∈ σ.holding then some (σ.release e) else none

/-- The entry of the call that takes the step. -/
def SlotAction.caller (σ : SlotSys) : SlotAction → Option Entry
  | .acquire rank _ _ => some ⟨rank, σ.slots.seq + 1⟩
  | .wake e _ _ => some e
  | .release _ => none

/-- One step as a relation. -/
def SlotStep (σ : SlotSys) (a : SlotAction) (σ' : SlotSys) : Prop := ∃ o, a.run σ = some (σ', o)

/-! ## The invariant -/

/-- What holds between two steps. -/
structure SlotsInv (cap : Int) (σ : SlotSys) : Prop where
  cap_eq : σ.slots.cap = cap
  inUse_le : σ.slots.inUse ≤ cap
  /-- The slots in use are those that are held, -/
  inUse_eq : σ.slots.inUse = σ.holding.length
  /-- and those acquired and not released. -/
  acquired_eq : σ.acquired = σ.holding.length + σ.released
  /-- Every entry that came is waiting, or has left the list, once. -/
  entries : ((σ.slots.waiting ++ σ.removed).map Entry.seq).Perm (List.range' 1 σ.slots.seq)
  /-- The head of the list is awake while a slot is free. -/
  announced : ∀ head rest, popMin Entry.key σ.slots.waiting = some (head, rest) → σ.slots.inUse < σ.slots.cap →
    σ.asleep head.seq = false

section Step

variable {cap : Int} {σ σ' : SlotSys} {e : Entry} {rest : List Entry}

theorem slotsInv_start {s : PrioritySlots} (h : PrioritySlots.new cap = .ok s) : SlotsInv cap (.start s) := by
  unfold PrioritySlots.new at h
  split at h
  · cases h
  · rename_i hcap
    cases h
    exact ⟨rfl, by show (0 : Int) ≤ cap; omega, rfl, rfl, List.Perm.refl _, fun _ _ _ _ => rfl⟩

/-- Where an entry is looked for by its number. -/
theorem SlotsInv.nodup_seq (h : SlotsInv cap σ) : ((σ.slots.waiting ++ σ.removed).map Entry.seq).Nodup :=
  h.entries.nodup_iff.2 List.nodup_range'

/-- Waking one caller keeps the invariant. -/
theorem SlotsInv.wake (h : SlotsInv cap σ) (e : Entry) :
    SlotsInv cap { σ with asleep := fun n => if n = e.seq then false else σ.asleep n } where
  __ := h
  announced head rest hhead hfree := by
    show (if head.seq = e.seq then false else σ.asleep head.seq) = false
    split
    · rfl
    · exact h.announced head rest hhead hfree

theorem SlotsInv.push (h : SlotsInv cap σ) (rank : Int × Int) :
    SlotsInv cap (σ.push ⟨rank, σ.slots.seq + 1⟩) where
  cap_eq := h.cap_eq
  inUse_le := h.inUse_le
  inUse_eq := h.inUse_eq
  acquired_eq := h.acquired_eq
  entries := by
    show ((σ.slots.waiting ++ [(⟨rank, σ.slots.seq + 1⟩ : Entry)] ++ σ.removed).map Entry.seq).Perm
      (List.range' 1 (σ.slots.seq + 1))
    have hlast : List.range' 1 (σ.slots.seq + 1) = List.range' 1 σ.slots.seq ++ [σ.slots.seq + 1] := by
      rw [List.range'_concat, Nat.one_mul, Nat.add_comm]
    rw [hlast, List.append_assoc, List.singleton_append]
    refine (List.perm_middle.map Entry.seq).trans ?_
    rw [List.map_cons]
    exact (h.entries.cons _).trans (List.perm_append_singleton ..).symm
  announced _ _ _ _ := rfl

theorem SlotsInv.drop (h : SlotsInv cap σ) (e : Entry) : SlotsInv cap (σ.drop e) := by
  unfold SlotSys.drop
  split
  · rename_i hmem
    -- the notification has just woken everybody
    refine ⟨h.cap_eq, h.inUse_le, h.inUse_eq, h.acquired_eq, ?_, fun _ _ _ _ => rfl⟩
    have hperm : (σ.slots.waiting.erase e ++ e :: σ.removed).Perm (σ.slots.waiting ++ σ.removed) :=
      List.perm_middle.trans ((List.perm_cons_erase hmem).symm.append_right σ.removed)
    exact (hperm.map Entry.seq).trans h.entries
  · exact h

theorem SlotsInv.take (h : SlotsInv cap σ) (hfree : σ.slots.inUse < σ.slots.cap)
    (hpop : popMin Entry.key σ.slots.waiting = some (e, rest)) : SlotsInv cap (σ.take e rest) where
  cap_eq := h.cap_eq
  inUse_le := by
    have := h.cap_eq
    show σ.slots.inUse + 1 ≤ cap
    omega
  inUse_eq := by
    show σ.slots.inUse + 1 = ((e :: σ.holding).length : Int)
    rw [h.inUse_eq, List.length_cons]
    rfl
  acquired_eq := by
    show σ.acquired + 1 = (e :: σ.holding).length + σ.released
    rw [h.acquired_eq, List.length_cons]
    omega
  entries := by
    have hperm : (rest ++ e :: σ.removed).Perm (σ.slots.waiting ++ σ.removed) :=
      List.perm_middle.trans ((perm_of_popMin hpop).append_right σ.removed)
    exact (hperm.map Entry.seq).trans h.entries
  announced _ _ _ _ := rfl

theorem SlotsInv.release (h : SlotsInv cap σ) (hmem : e ∈ σ.holding) : SlotsInv cap (σ.release e).1 := by
  have hpos : 0 < σ.holding.length := List.length_pos_of_mem hmem
  have hlength : (σ.holding.erase e).length + 1 = σ.holding.length := by
    rw [List.length_erase_of_mem hmem]
    omega
  have hinUse := h.inUse_eq
  have hacquired := h.acquired_eq
  have hle := h.inUse_le
  unfold SlotSys.release
  rw [if_neg (by omega)]
  refine ⟨h.cap_eq, ?_, ?_, ?_, h.entries, fun _ _ _ _ => rfl⟩
  · show σ.slots.inUse - 1 ≤ cap
    omega
  · show σ.slots.inUse - 1 = ((σ.holding.erase e).length : Int)
    omega
  · show σ.acquired = (σ.holding.erase e).length + (σ.released + 1)
    omega

/-- Falling asleep is harmless for a caller that may not go. -/
theorem SlotsInv.giveUpOrWait (h : SlotsInv cap σ) (expired : Bool) (abandoned : Abandoned)
    (hnot : ∀ head rest, popMin Entry.key σ.slots.waiting = some (head, rest) → σ.slots.inUse < σ.slots.cap →
      head.seq ≠ e.seq) : SlotsInv cap (σ.giveUpOrWait e expired abandoned).1 := by
  have hwait : SlotsInv cap { σ with asleep := fun n => if n = e.seq then true else σ.asleep n } := by
    refine ⟨h.cap_eq, h.inUse_le, h.inUse_eq, h.acquired_eq, h.entries, fun head rest hhead hfree => ?_⟩
    show (if head.seq = e.seq then true else σ.asleep head.seq) = false
    rw [if_neg (hnot head rest hhead hfree)]
    exact h.announced head rest hhead hfree
  unfold SlotSys.giveUpOrWait
  split
  · exact h.drop e
  · split
    · exact h.drop e
    · exact h.drop e
    · exact hwait

/-- Two waiting entries with one number are the same. -/
theorem SlotsInv.eq_of_seq (h : SlotsInv cap σ) {w : Entry} (hw : w ∈ σ.slots.waiting) (he : e ∈ σ.slots.waiting)
    (hseq : w.seq = e.seq) : w = e :=
  List.inj_on_of_nodup_map h.nodup_seq (List.mem_append_left _ hw) (List.mem_append_left _ he) hseq

/-- **A pass keeps the invariant.** -/
theorem SlotsInv.pass (h : SlotsInv cap σ) (hmem : e ∈ σ.slots.waiting) (expired : Bool) (abandoned : Abandoned) :
    SlotsInv cap (σ.pass e expired abandoned).1 := by
  unfold SlotSys.pass
  split
  · rename_i hfree
    cases hpop : popMin Entry.key σ.slots.waiting with
    | none => exact h.drop e
    | some found =>
      obtain ⟨head, rest⟩ := found
      dsimp only
      by_cases hhead : head = e
      · rw [if_pos hhead]
        exact h.take hfree (hhead ▸ hpop)
      · -- somebody else is the head, and stays awake
        rw [if_neg hhead]
        refine h.giveUpOrWait expired abandoned fun head' rest' hpop' _ hseq => ?_
        obtain ⟨rfl, rfl⟩ := Prod.mk.inj (Option.some.inj (hpop.symm.trans hpop'))
        exact hhead (h.eq_of_seq ((perm_of_popMin hpop).subset List.mem_cons_self) hmem hseq)
  · -- no slot is free, so no notification is owed
    rename_i hfull
    exact h.giveUpOrWait expired abandoned fun _ _ _ hfree => absurd hfree hfull

/-- **Every step keeps the invariant.** -/
theorem SlotsInv.step {a : SlotAction} (h : SlotsInv cap σ) (hstep : SlotStep σ a σ') : SlotsInv cap σ' := by
  obtain ⟨o, hrun⟩ := hstep
  cases a with
  | acquire rank expired abandoned =>
    have hpass := (h.push rank).pass (List.mem_append_right _ (List.mem_singleton_self _)) expired abandoned
    rw [show _ = σ' from congrArg Prod.fst (Option.some.inj hrun)] at hpass
    exact hpass
  | wake e expired abandoned =>
    by_cases hmem : e ∈ σ.slots.waiting
    · rw [SlotAction.run, if_pos hmem] at hrun
      have hpass := (h.wake e).pass hmem expired abandoned
      rw [show _ = σ' from congrArg Prod.fst (Option.some.inj hrun)] at hpass
      exact hpass
    · rw [SlotAction.run, if_neg hmem] at hrun
      cases hrun
  | release e =>
    by_cases hmem : e ∈ σ.holding
    · rw [SlotAction.run, if_pos hmem] at hrun
      have hrelease := h.release hmem
      rw [show _ = σ' from congrArg Prod.fst (Option.some.inj hrun)] at hrelease
      exact hrelease
    · rw [SlotAction.run, if_neg hmem] at hrun
      cases hrun

/-! ## Safety -/

/-- `e` is the entry of the waiting list with the smallest rank and number. -/
def IsHead (σ : SlotSys) (e : Entry) : Prop :=
  e ∈ σ.slots.waiting ∧ ∀ w ∈ σ.slots.waiting, e.key ≤ w.key

/-- What the gate guarantees in a state, and for the steps that can follow. -/
structure SlotsSafe (cap : Int) (σ : SlotSys) : Prop where
  inUse_le : σ.slots.inUse ≤ cap
  inUse_eq : σ.slots.inUse = (σ.acquired : Int) - σ.released
  /-- Every entry that came is waiting or has left the list, one time. -/
  leaves_once : ∀ n, 1 ≤ n → n ≤ σ.slots.seq → ((σ.slots.waiting ++ σ.removed).map Entry.seq).count n = 1
  /-- A call that ends, however it ends, has taken its entry out of the list; one that goes on to wait has not. -/
  leaves : ∀ (a : SlotAction) σ' o e, a.run σ = some (σ', o) → a.caller σ = some e →
    (o = .waits → e ∈ σ'.slots.waiting) ∧ (o ≠ .waits → e ∉ σ'.slots.waiting ∧ e ∈ σ'.removed)
  /-- While a slot is free, a notification is on its way to the head, -/
  notified : ∀ e, IsHead σ e → σ.slots.inUse < cap → σ.asleep e.seq = false
  /-- and the head takes the slot when it wakes up. -/
  entitled : ∀ e, IsHead σ e → σ.slots.inUse < cap → ∀ expired abandoned,
    ∃ σ', (SlotAction.wake e expired abandoned).run σ = some (σ', .granted e)
  /-- A slot goes to the smallest of the entries that are waiting then. -/
  best : ∀ (a : SlotAction) σ' e, a.run σ = some (σ', .granted e) →
    (e ∈ σ.slots.waiting ∨ e.seq = σ.slots.seq + 1) ∧ ∀ w ∈ σ.slots.waiting, e.key ≤ w.key
  released : ∀ e ∈ σ.holding, ∃ σ', (SlotAction.release e).run σ = some (σ', .released)

theorem Entry.key_inj {e w : Entry} (h : e.key = w.key) : e = w := by
  obtain ⟨⟨a, b⟩, n⟩ := e
  obtain ⟨⟨c, d⟩, m⟩ := w
  obtain ⟨rfl, h⟩ := Prod.mk.inj (toLex_inj.1 h)
  obtain ⟨rfl, rfl⟩ := Prod.mk.inj (toLex_inj.1 h)
  rfl

/-- The heap's top is the head. -/
theorem popMin_of_isHead (h : IsHead σ e) : ∃ rest, popMin Entry.key σ.slots.waiting = some (e, rest) := by
  cases hpop : popMin Entry.key σ.slots.waiting with
  | none => exact absurd (popMin_eq_none hpop ▸ h.1) List.not_mem_nil
  | some found =>
    obtain ⟨top, rest⟩ := found
    have hmem := (perm_of_popMin hpop).subset List.mem_cons_self
    obtain rfl := Entry.key_inj (le_antisymm (h.2 top hmem) (le_of_popMin hpop e h.1))
    exact ⟨rest, rfl⟩

theorem pass_of_isHead (h : IsHead σ e) (hfree : σ.slots.inUse < σ.slots.cap) (expired : Bool)
    (abandoned : Abandoned) : ∃ σ', σ.pass e expired abandoned = (σ', .granted e) := by
  obtain ⟨rest, hpop⟩ := popMin_of_isHead h
  refine ⟨σ.take e rest, ?_⟩
  unfold SlotSys.pass
  rw [if_pos hfree, hpop]
  exact if_pos rfl

theorem not_granted_giveUpOrWait {w : Entry} (expired : Bool) (abandoned : Abandoned) :
    (σ.giveUpOrWait e expired abandoned).2 ≠ .granted w := by
  unfold SlotSys.giveUpOrWait
  split
  · exact fun h => by cases h
  · split <;> exact fun h => by cases h

/-- A pass that takes a slot is the head's. -/
theorem isHead_of_granted {w : Entry} {expired : Bool} {abandoned : Abandoned}
    (h : (σ.pass e expired abandoned).2 = .granted w) : w = e ∧ IsHead σ e := by
  unfold SlotSys.pass at h
  split at h
  · cases hpop : popMin Entry.key σ.slots.waiting with
    | none =>
      rw [hpop] at h
      cases h
    | some found =>
      obtain ⟨head, rest⟩ := found
      rw [hpop] at h
      dsimp only at h
      by_cases hhead : head = e
      · rw [if_pos hhead] at h
        cases h
        subst hhead
        exact ⟨rfl, (perm_of_popMin hpop).subset List.mem_cons_self, le_of_popMin hpop⟩
      · rw [if_neg hhead] at h
        exact absurd h (not_granted_giveUpOrWait expired abandoned)
  · exact absurd h (not_granted_giveUpOrWait expired abandoned)

theorem best_of_granted {a : SlotAction} (hrun : a.run σ = some (σ', .granted e)) :
    (e ∈ σ.slots.waiting ∨ e.seq = σ.slots.seq + 1) ∧ ∀ w ∈ σ.slots.waiting, e.key ≤ w.key := by
  cases a with
  | acquire rank expired abandoned =>
    obtain ⟨rfl, -, hleast⟩ := isHead_of_granted (congrArg Prod.snd (Option.some.inj hrun))
    exact ⟨.inr rfl, fun w hw => hleast w (List.mem_append_left _ hw)⟩
  | wake w expired abandoned =>
    by_cases hmem : w ∈ σ.slots.waiting
    · rw [SlotAction.run, if_pos hmem] at hrun
      obtain ⟨rfl, -, hleast⟩ := isHead_of_granted (congrArg Prod.snd (Option.some.inj hrun))
      exact ⟨.inl hmem, hleast⟩
    · rw [SlotAction.run, if_neg hmem] at hrun
      cases hrun
  | release w =>
    by_cases hmem : w ∈ σ.holding
    · rw [SlotAction.run, if_pos hmem] at hrun
      have hout : (σ.release w).2 = .granted e := congrArg Prod.snd (Option.some.inj hrun)
      unfold SlotSys.release at hout
      split at hout <;> cases hout
    · rw [SlotAction.run, if_neg hmem] at hrun
      cases hrun

/-! ### The end of a call -/

theorem SlotsInv.nodup_waiting (h : SlotsInv cap σ) : σ.slots.waiting.Nodup :=
  (h.nodup_seq.of_map _).of_append_left

theorem SlotsInv.leaves_drop (h : SlotsInv cap σ) (hmem : e ∈ σ.slots.waiting) :
    e ∉ (σ.drop e).slots.waiting ∧ e ∈ (σ.drop e).removed := by
  rw [SlotSys.drop, if_pos hmem]
  exact ⟨h.nodup_waiting.not_mem_erase, List.mem_cons_self⟩

theorem SlotsInv.leaves_take (h : SlotsInv cap σ) (hpop : popMin Entry.key σ.slots.waiting = some (e, rest)) :
    e ∉ (σ.take e rest).slots.waiting ∧ e ∈ (σ.take e rest).removed := by
  have hnodup : (e :: rest).Nodup := (perm_of_popMin hpop).nodup_iff.2 h.nodup_waiting
  exact ⟨(List.nodup_cons.1 hnodup).1, List.mem_cons_self⟩

theorem SlotsInv.leaves_giveUpOrWait (h : SlotsInv cap σ) (hmem : e ∈ σ.slots.waiting) (expired : Bool)
    (abandoned : Abandoned) :
    ((σ.giveUpOrWait e expired abandoned).2 = .waits → e ∈ (σ.giveUpOrWait e expired abandoned).1.slots.waiting) ∧
    ((σ.giveUpOrWait e expired abandoned).2 ≠ .waits →
      e ∉ (σ.giveUpOrWait e expired abandoned).1.slots.waiting ∧
      e ∈ (σ.giveUpOrWait e expired abandoned).1.removed) := by
  unfold SlotSys.giveUpOrWait
  split
  · exact ⟨nofun, fun _ => h.leaves_drop hmem⟩
  · split
    · exact ⟨nofun, fun _ => h.leaves_drop hmem⟩
    · exact ⟨nofun, fun _ => h.leaves_drop hmem⟩
    · exact ⟨fun _ => hmem, fun hends => absurd rfl hends⟩

/-- A pass that ends the call takes its entry out of the list. -/
theorem SlotsInv.leaves_pass (h : SlotsInv cap σ) (hmem : e ∈ σ.slots.waiting) (expired : Bool)
    (abandoned : Abandoned) :
    ((σ.pass e expired abandoned).2 = .waits → e ∈ (σ.pass e expired abandoned).1.slots.waiting) ∧
    ((σ.pass e expired abandoned).2 ≠ .waits →
      e ∉ (σ.pass e expired abandoned).1.slots.waiting ∧ e ∈ (σ.pass e expired abandoned).1.removed) := by
  unfold SlotSys.pass
  split
  · cases hpop : popMin Entry.key σ.slots.waiting with
    | none => exact absurd (popMin_eq_none hpop ▸ hmem) List.not_mem_nil
    | some found =>
      obtain ⟨head, rest⟩ := found
      dsimp only
      by_cases hhead : head = e
      · rw [if_pos hhead]
        subst hhead
        exact ⟨nofun, fun _ => h.leaves_take hpop⟩
      · rw [if_neg hhead]
        exact h.leaves_giveUpOrWait hmem expired abandoned
  · exact h.leaves_giveUpOrWait hmem expired abandoned

theorem SlotsInv.leaves_run (h : SlotsInv cap σ) {a : SlotAction} {o : Outcome} (hrun : a.run σ = some (σ', o))
    (hcaller : a.caller σ = some e) :
    (o = .waits → e ∈ σ'.slots.waiting) ∧ (o ≠ .waits → e ∉ σ'.slots.waiting ∧ e ∈ σ'.removed) := by
  cases a with
  | acquire rank expired abandoned =>
    obtain rfl := Option.some.inj hcaller
    have hpass := (h.push rank).leaves_pass (List.mem_append_right _ (List.mem_singleton_self _)) expired abandoned
    rw [show _ = (σ', o) from Option.some.inj hrun] at hpass
    exact hpass
  | wake w expired abandoned =>
    obtain rfl := Option.some.inj hcaller
    by_cases hmem : w ∈ σ.slots.waiting
    · rw [SlotAction.run, if_pos hmem] at hrun
      have hpass := (h.wake w).leaves_pass hmem expired abandoned
      rw [show _ = (σ', o) from Option.some.inj hrun] at hpass
      exact hpass
    · rw [SlotAction.run, if_neg hmem] at hrun
      cases hrun
  | release w => cases hcaller

theorem SlotsInv.safe (h : SlotsInv cap σ) : SlotsSafe cap σ where
  inUse_le := h.inUse_le
  inUse_eq := by
    have hinUse := h.inUse_eq
    have hacquired := h.acquired_eq
    omega
  leaves_once n hlow hhigh := by
    rw [h.entries.count_eq]
    exact List.count_eq_one_of_mem List.nodup_range' (List.mem_range'_1.2 ⟨hlow, by omega⟩)
  leaves _ _ _ _ hrun hcaller := h.leaves_run hrun hcaller
  notified e he hfree := by
    obtain ⟨rest, hpop⟩ := popMin_of_isHead he
    exact h.announced e rest hpop (h.cap_eq ▸ hfree)
  entitled e he hfree expired abandoned := by
    rw [SlotAction.run, if_pos he.1]
    obtain ⟨σ', hσ'⟩ := @pass_of_isHead { σ with asleep := fun n => if n = e.seq then false else σ.asleep n } e he
      (h.cap_eq ▸ hfree) expired abandoned
    exact ⟨σ', congrArg some hσ'⟩
  best _ _ _ hrun := best_of_granted hrun
  released e he := by
    have hinUse := h.inUse_eq
    have hpos : 0 < σ.holding.length := List.length_pos_of_mem he
    rw [SlotAction.run, if_pos he, SlotSys.release, if_neg (by omega)]
    exact ⟨_, rfl⟩

/-- **The slot gate is safe**, however its callers are interleaved: the ceiling holds, every entry leaves the waiting
    list once, each slot goes to the best waiter, and none sleeps through a free slot that it may have. -/
theorem slots_safe (cap : Int) (s : PrioritySlots) (as : List SlotAction) (σ : SlotSys)
    (hnew : PrioritySlots.new cap = .ok s) (hrun : Run SlotStep (.start s) as σ) : SlotsSafe cap σ :=
  SlotsInv.safe (hrun.invariant (fun _ _ _ hinv hstep => hinv.step hstep) (slotsInv_start hnew))

end Step

/-- Of two callers for one slot the second waits, and is woken by the release. -/
def twoCallers : List SlotAction :=
  [.acquire (1, 99) false .absent, .acquire (0, 11) false (.answers false), .release ⟨(1, 99), 1⟩]

/-- A gate with one slot. -/
def oneSlot : PrioritySlots := { cap := 1, inUse := 0, waiting := [], seq := 0 }

theorem slots_safe_two_callers : ∃ σ, Run SlotStep (.start oneSlot) twoCallers σ ∧ SlotsSafe 1 σ := by
  have hrun : ∃ σ, Run SlotStep (.start oneSlot) twoCallers σ :=
    ⟨_, .cons ⟨_, rfl⟩ (.cons ⟨_, rfl⟩ (.cons ⟨_, rfl⟩ (.nil _)))⟩
  obtain ⟨σ, hσ⟩ := hrun
  exact ⟨σ, hσ, slots_safe 1 oneSlot twoCallers σ rfl hσ⟩

end Sandbox
end RobotsixMill
