import Mathlib.Logic.Function.Iterate
import RobotsixMill.Lib.Runs

/-!
# `Lib.SharedCell` — loops over one cell

Several loops keep their progress in one cell, each as if it had the cell to itself. `Shared` is their joint state:
the cell, the loops, and beside them what each loop has written last. A step is `Unaffected` when what it finds in
the cell makes no difference to what the loop has left there itself.

- `advance`, `alone` — a step of one of the loops, and of a loop that has a cell of its own;
- `asAlone_of_unaffected` — after an interleaving of unaffected steps every loop is where it would be alone.
-/

namespace RobotsixMill
namespace Lib

/-- A step of a loop: its next state, and what it writes to the cell, if anything. -/
abbrev CellStep (L C : Type*) := L → C → L × Option C

/-- Loops over one cell. -/
structure Shared (ι L C : Type*) where
  cell : C
  loops : ι → L
  /-- What each loop has written last. -/
  own : ι → C

section Interleaving

variable {ι L C : Type*} [DecidableEq ι] (step : ι → CellStep L C) (final : L → Prop)

/-- Loop `i` takes a step. -/
def Shared.advance (σ : Shared ι L C) (i : ι) : Shared ι L C :=
  let r := step i (σ.loops i) σ.cell
  { cell := r.2.getD σ.cell
    loops := Function.update σ.loops i r.1
    own := Function.update σ.own i (r.2.getD (σ.own i)) }

def Shared.Step (σ : Shared ι L C) (i : ι) (σ' : Shared ι L C) : Prop := σ' = σ.advance step i

theorem Shared.run_schedule (σ : Shared ι L C) (schedule : List ι) :
    Run (Shared.Step step) σ schedule (schedule.foldl (Shared.advance step) σ) := by
  induction schedule generalizing σ with
  | nil => exact .nil σ
  | cons i schedule ih => exact .cons rfl (ih (σ.advance step i))

/-- A loop that has the cell to itself takes a step. -/
def alone (step : CellStep L C) (p : L × C) : L × C :=
  let r := step p.1 p.2
  (r.1, r.2.getD p.2)

/-- The loop goes on from `c` as from `c'`; what it writes last does not matter. -/
def Unaffected (step : CellStep L C) (final : L → Prop) (l : L) (c c' : C) : Prop :=
  (step l c).1 = (step l c').1 ∧ (final (step l c).1 ∨ (step l c).2 = (step l c').2)

/-- Loop `i` is where a loop that is alone is. -/
def AsAlone (σ : Shared ι L C) (i : ι) (p : L × C) : Prop :=
  σ.loops i = p.1 ∧ (final p.1 ∨ σ.own i = p.2)

variable {step final}

theorem AsAlone.step_self {σ : Shared ι L C} {i : ι} {p : L × C} (hfinal : ∀ l c, final l → step i l c = (l, none))
    (h : AsAlone final σ i p) (hun : Unaffected (step i) final (σ.loops i) σ.cell (σ.own i)) :
    AsAlone final (σ.advance step i) i (alone (step i) p) := by
  obtain ⟨hloop, hcell⟩ := h
  unfold AsAlone Shared.advance alone
  simp only [Function.update_self]
  rcases hcell with hdone | hown
  · rw [hloop, hfinal p.1 σ.cell hdone, hfinal p.1 p.2 hdone]
    exact ⟨rfl, .inl hdone⟩
  · obtain ⟨hnext, hwrite⟩ := hun
    rw [← hloop, ← hown]
    refine ⟨hnext, hwrite.imp (fun hdone => hnext ▸ hdone) fun heq => ?_⟩
    rw [heq]

theorem AsAlone.step_ne {σ : Shared ι L C} {i j : ι} {p : L × C} (h : AsAlone final σ i p) (hij : i ≠ j) :
    AsAlone final (σ.advance step j) i p := by
  unfold AsAlone Shared.advance
  simp only [Function.update_of_ne hij]
  exact h

/-- **No loop is affected by the others.** -/
theorem asAlone_of_unaffected (hfinal : ∀ i l c, final l → step i l c = (l, none)) {σ₀ σ : Shared ι L C} {l : List ι}
    (h : Run (Guarded (fun σ i => Unaffected (step i) final (σ.loops i) σ.cell (σ.own i)) (Shared.Step step)) σ₀ l σ)
    (i : ι) {p : L × C} (hp : AsAlone final σ₀ i p) : AsAlone final σ i ((alone (step i))^[l.count i] p) := by
  induction h generalizing p with
  | nil σ => exact hp
  | @cons σ σ' u j l hs hrun ih =>
    obtain ⟨hun, rfl⟩ := hs
    by_cases hij : i = j
    · subst hij
      rw [List.count_cons_self, Function.iterate_succ_apply]
      exact ih (hp.step_self (hfinal i) hun)
    · rw [List.count_cons_of_ne (Ne.symm hij)]
      exact ih (hp.step_ne hij)

end Interleaving

end Lib
end RobotsixMill
