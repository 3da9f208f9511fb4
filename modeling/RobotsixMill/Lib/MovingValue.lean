import Mathlib.Data.List.Basic

/-!
# `Lib.MovingValue` — reads of a value that others write

A process reads one value several times, each time under a key of its own, and others write the value between
the reads. What is written before a read may depend on the value the read before it saw. All reads see one value
exactly if what is written since the first of them leaves that value behind (`valueAt_eq_iff`).
-/

namespace RobotsixMill
namespace Lib

variable {α κ : Type*}

/-- The value after some writes. -/
def written (v : α) (ws : List α) : α := ws.getLast?.getD v

/-- The writes leave the value as it was: there are none, or the last one writes it again. -/
def Leaves (v : α) (ws : List α) : Prop := ws = [] ∨ ws.getLast? = some v

@[simp] theorem written_nil (v : α) : written v [] = v := rfl

theorem written_append (v : α) (ws vs : List α) : written v (ws ++ vs) = written (written v ws) vs := by
  unfold written
  rw [List.getLast?_append]
  cases vs.getLast? with
  | none => rfl
  | some u => rfl

theorem written_eq_iff {v : α} {ws : List α} : written v ws = v ↔ Leaves v ws := by
  unfold written Leaves
  cases hlast : ws.getLast? with
  | none =>
    rw [List.getLast?_eq_none_iff] at hlast
    simp [hlast]
  | some u =>
    have hne : ws ≠ [] := by
      rintro rfl
      cases hlast
    simp [hne]

section Reads

variable [DecidableEq κ] (gap : κ → α → List α)

/-- All that is written before the read `k`, when the reads `ks` begin at the value `v`. -/
def writesBefore : α → List κ → κ → List α
  | _, [], _ => []
  | v, c :: rest, k => gap c v ++ if c = k then [] else writesBefore (written v (gap c v)) rest k

/-- What the read `k` sees. -/
def valueAt (v : α) (ks : List κ) (k : κ) : α := written v (writesBefore gap v ks k)

/-- The first read. -/
theorem valueAt_head (v : α) (ks : List κ) (k : κ) : valueAt gap v (k :: ks) k = written v (gap k v) := by
  rw [valueAt, writesBefore, if_pos rfl, List.append_nil]

/-- A later one begins where the first one was. -/
theorem valueAt_tail {k c : κ} (h : k ≠ c) (v : α) (ks : List κ) :
    valueAt gap v (k :: ks) c = valueAt gap (valueAt gap v (k :: ks) k) ks c := by
  rw [valueAt_head, valueAt, writesBefore, if_neg h, written_append]
  rfl

/-- **A later read sees what the first one saw exactly if the writes since then leave it.** -/
theorem valueAt_eq_iff {k c : κ} (h : k ≠ c) (v : α) (ks : List κ) :
    valueAt gap v (k :: ks) c = valueAt gap v (k :: ks) k ↔
      Leaves (valueAt gap v (k :: ks) k) (writesBefore gap (valueAt gap v (k :: ks) k) ks c) := by
  rw [valueAt_tail gap h]
  exact written_eq_iff

end Reads

end Lib
end RobotsixMill
