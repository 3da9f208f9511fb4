import Mathlib.Data.List.Basic

/-!
# `Lib.GuardChain` — checks run in order until one reports

A preflight is a list of named checks. Each may change the state it looks at, and may report; the first
report ends the chain, and the checks behind it never run.

- `hit_of_runGuards` — a report comes from a check of the chain, run in a state the invariant holds of;
- `runGuards_append` — a chain in two parts;
- `isSome_runGuards_of_idle` — a chain of checks that change nothing unless they report;
- `not_hit_of_runGuards` — a check that cannot report in such a state is not the one that reported.
-/

namespace RobotsixMill
namespace Lib

/-- A named check over states `σ`, with reports `ε`. -/
structure Guard (τ σ ε : Type*) where
  tag : τ
  check : σ → σ × Option ε

namespace Guard

variable {τ σ ε : Type*}

/-- A check that only reads. -/
def reading (tag : τ) (report : σ → Option ε) : Guard τ σ ε where
  tag := tag
  check s := (s, report s)

/-- Run the checks in order, up to the first report. -/
def runGuards : List (Guard τ σ ε) → σ → σ × Option (τ × ε)
  | [], s => (s, none)
  | g :: gs, s =>
    match g.check s with
    | (s', some e) => (s', some (g.tag, e))
    | (s', none) => runGuards gs s'

/-- The check keeps `Inv` whenever it lets the chain go on. -/
def Keeps (Inv : σ → Prop) (g : Guard τ σ ε) : Prop :=
  ∀ s, Inv s → (g.check s).2 = none → Inv (g.check s).1

/-- The check never reports while `Inv` holds. -/
def Silent (Inv : σ → Prop) (g : Guard τ σ ε) : Prop :=
  ∀ s, Inv s → (g.check s).2 = none

/-- A reading check keeps everything. -/
theorem keeps_reading {Inv : σ → Prop} (tag : τ) (report : σ → Option ε) :
    Keeps Inv (reading tag report) := fun _ hs _ => hs

section Chain

variable {Inv : σ → Prop} {gs : List (Guard τ σ ε)} {s s' : σ} {t : τ} {e : ε}

theorem runGuards_cons_none {g : Guard τ σ ε} (h : (g.check s).2 = none) :
    runGuards (g :: gs) s = runGuards gs (g.check s).1 := by
  cases hg : g.check s with
  | mk s₁ o =>
    rw [hg] at h
    dsimp only at h
    subst h
    simp only [runGuards, hg]

theorem runGuards_cons_some {g : Guard τ σ ε} (h : (g.check s).2 = some e) :
    runGuards (g :: gs) s = ((g.check s).1, some (g.tag, e)) := by
  cases hg : g.check s with
  | mk s₁ o =>
    rw [hg] at h
    dsimp only at h
    subst h
    simp only [runGuards, hg]

/-- A chain in two parts: the second runs in the state the first leaves, if that reports nothing. -/
theorem runGuards_append (gs hs : List (Guard τ σ ε)) (s : σ) :
    runGuards (gs ++ hs) s =
      match runGuards gs s with
      | (s₁, some r) => (s₁, some r)
      | (s₁, none) => runGuards hs s₁ := by
  induction gs generalizing s with
  | nil => rfl
  | cons g gs ih =>
      cases hg : (g.check s).2 with
      | some e => rw [List.cons_append, runGuards_cons_some hg, runGuards_cons_some hg]
      | none =>
          rw [List.cons_append, runGuards_cons_none hg, runGuards_cons_none hg]
          exact ih _

/-- **Who reported, and in which state**: every check before it passed and kept the invariant. -/
theorem hit_of_runGuards (hkeep : ∀ g ∈ gs, Keeps Inv g) (hs : Inv s)
    (h : (runGuards gs s).2 = some (t, e)) :
    ∃ g ∈ gs, ∃ s₁, Inv s₁ ∧ g.tag = t ∧ (g.check s₁).2 = some e := by
  induction gs generalizing s with
  | nil => cases h
  | cons g gs ih =>
    cases hg : (g.check s).2 with
    | some e' =>
      rw [runGuards_cons_some hg] at h
      cases h
      exact ⟨g, List.mem_cons_self, s, hs, rfl, hg⟩
    | none =>
      rw [runGuards_cons_none hg] at h
      have hs₁ : Inv (g.check s).1 := hkeep g List.mem_cons_self s hs hg
      obtain ⟨g', hg', rest⟩ := ih (fun g' hg' => hkeep g' (List.mem_cons_of_mem _ hg')) hs₁ h
      exact ⟨g', List.mem_cons_of_mem _ hg', rest⟩

/-- A report carries the tag of a check. -/
theorem tag_mem_of_runGuards (h : (runGuards gs s).2 = some (t, e)) : ∃ g ∈ gs, g.tag = t := by
  have hkeep : ∀ g ∈ gs, Keeps (fun _ => True) g := fun _ _ _ _ _ => trivial
  obtain ⟨g, hg, -, -, htag, -⟩ := hit_of_runGuards hkeep trivial h
  exact ⟨g, hg, htag⟩

/-- **A silent check is not the one that reported.** -/
theorem not_hit_of_runGuards (hkeep : ∀ g ∈ gs, Keeps Inv g) (hs : Inv s)
    (hsilent : ∀ g ∈ gs, g.tag = t → Silent Inv g) : (runGuards gs s).2 ≠ some (t, e) := by
  intro h
  obtain ⟨g, hg, s₁, hs₁, htag, hrep⟩ := hit_of_runGuards hkeep hs h
  rw [hsilent g hg htag s₁ hs₁] at hrep
  cases hrep

/-! ### Checks that change nothing unless they report -/

/-- The check leaves the state as it is whenever it lets the chain go on. -/
def Idle (g : Guard τ σ ε) : Prop := ∀ s, (g.check s).2 = none → (g.check s).1 = s

theorem idle_reading (tag : τ) (report : σ → Option ε) : Idle (reading tag report) := fun _ _ => rfl

/-- A chain of idle checks passes the state on unchanged. -/
theorem fst_runGuards_of_idle (hidle : ∀ g ∈ gs, Idle g) (h : (runGuards gs s).2 = none) :
    (runGuards gs s).1 = s := by
  induction gs with
  | nil => rfl
  | cons g gs ih =>
      cases hg : (g.check s).2 with
      | some e => rw [runGuards_cons_some hg] at h; cases h
      | none =>
          have hsame := hidle g List.mem_cons_self s hg
          rw [runGuards_cons_none hg, hsame] at h ⊢
          exact ih (fun g' hg' => hidle g' (List.mem_cons_of_mem _ hg')) h

/-- **A chain of idle checks reports just if one of them would**, asked in the first state. -/
theorem isSome_runGuards_of_idle (hidle : ∀ g ∈ gs, Idle g) :
    (runGuards gs s).2.isSome = gs.any fun g => (g.check s).2.isSome := by
  induction gs with
  | nil => rfl
  | cons g gs ih =>
      rw [List.any_cons]
      cases hg : (g.check s).2 with
      | some e => rw [runGuards_cons_some hg]; rfl
      | none =>
          rw [runGuards_cons_none hg, hidle g List.mem_cons_self s hg]
          exact ih fun g' hg' => hidle g' (List.mem_cons_of_mem _ hg')

end Chain

end Guard
end Lib
end RobotsixMill
