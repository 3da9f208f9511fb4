import Mathlib.Tactic.TypeStar
import Mathlib.Logic.Basic

/-!
# `Lib.Runs` — finite runs of a labelled transition system

A system is a relation `step s a t` ("from `s` the label `a` may lead to `t`"). A `Run` strings steps
together. The two rules every development over runs needs:

- `Run.invariant`: what every step preserves, every run preserves;
- `Run.mono`: a run of a restricted system is a run of the wider one;
- `Run.always_iff_guarded`: a predicate that exactly the guarded steps keep holds all along exactly the
  guarded runs; `Run.always_iff_guarded_of_invariant` says it beside an invariant;
- `Run.guarded_congr`: guards that agree wherever an invariant holds guard the same runs.

Restricting a system by a condition on its labels and pre-states is `Guarded`. Where the steps are those of a
function, `perform` computes the runs (`of_perform`, `guarded_of_perform`).
-/

namespace RobotsixMill
namespace Lib

variable {σ α : Type*} {step step' : σ → α → σ → Prop}

/-- `Run step s l t`: performing the labels of `l` in order leads from `s` to `t`. -/
inductive Run (step : σ → α → σ → Prop) : σ → List α → σ → Prop
  | nil (s : σ) : Run step s [] s
  | cons {s t u : σ} {a : α} {l : List α} :
      step s a t → Run step t l u → Run step s (a :: l) u

/-- The steps of `step` whose label and pre-state meet `cond`. -/
def Guarded (cond : σ → α → Prop) (step : σ → α → σ → Prop) : σ → α → σ → Prop :=
  fun s a t => cond s a ∧ step s a t

namespace Run

theorem single {s t : σ} {a : α} (h : step s a t) : Run step s [a] t :=
  .cons h (.nil t)

theorem append {s t u : σ} {l m : List α} (h : Run step s l t) (h' : Run step t m u) :
    Run step s (l ++ m) u := by
  induction h with
  | nil s => exact h'
  | cons hs _ ih => exact .cons hs (ih h')

theorem snoc {s t u : σ} {l : List α} {a : α} (h : Run step s l t) (hs : step t a u) :
    Run step s (l ++ [a]) u :=
  h.append (single hs)

/-- **The invariant rule.** A predicate every step preserves holds at the end of every run that
    starts in it. -/
theorem invariant {I : σ → Prop} (hstep : ∀ s a t, I s → step s a t → I t)
    {s t : σ} {l : List α} (h : Run step s l t) (hs : I s) : I t := by
  induction h with
  | nil s => exact hs
  | cons h1 _ ih => exact ih (hstep _ _ _ hs h1)

theorem mono (hsub : ∀ s a t, step s a t → step' s a t)
    {s t : σ} {l : List α} (h : Run step s l t) : Run step' s l t := by
  induction h with
  | nil s => exact .nil s
  | cons h1 _ ih => exact .cons (hsub _ _ _ h1) ih

/-- Forgetting the guard of a guarded run. -/
theorem unguard {cond : σ → α → Prop} {s t : σ} {l : List α}
    (h : Run (Guarded cond step) s l t) : Run step s l t :=
  h.mono (fun _ _ _ hg => hg.2)

/-- The predicate holds in the states that `l` leads to from `s`, the last one and those in between. -/
def Always (step : σ → α → σ → Prop) (I : σ → Prop) (s : σ) (l : List α) : Prop :=
  ∀ pre t, pre <+: l → Run step s pre t → I t

/-- **The exact condition.** When every step of a deterministic system keeps `I` exactly if it meets
    `cond`, the runs along which `I` holds are those whose steps meet `cond`. -/
theorem always_iff_guarded {I : σ → Prop} {cond : σ → α → Prop}
    (hdet : ∀ s a t t', step s a t → step s a t' → t = t')
    (hiff : ∀ s a t, I s → step s a t → (I t ↔ cond s a)) {s t : σ} {l : List α}
    (h : Run step s l t) (hs : I s) :
    Always step I s l ↔ Run (Guarded cond step) s l t := by
  induction h with
  | nil s =>
      constructor
      · intro _
        exact .nil s
      · intro _ pre t hpre hrun
        have hnil := List.prefix_nil.1 hpre
        subst hnil
        cases hrun
        exact hs
  | @cons s t u a l hstep hrest ih =>
      constructor
      · intro halways
        have ht : I t := halways [a] t ⟨l, rfl⟩ (single hstep)
        refine .cons ⟨(hiff s a t hs hstep).1 ht, hstep⟩ ((ih ht).1 ?_)
        intro pre v hpre hrun
        exact halways (a :: pre) v ((List.prefix_cons_inj a).2 hpre) (.cons hstep hrun)
      · intro hg
        cases hg with
        | @cons _ t' _ _ _ hgs hgrest =>
            have htt : t' = t := hdet s a t' t hgs.2 hstep
            subst htt
            have ht : I t' := (hiff s a t' hs hstep).2 hgs.1
            intro pre v hpre hrun
            cases hrun with
            | nil => exact hs
            | @cons _ w _ b pre' hb hrun' =>
                obtain ⟨hba, hpre'⟩ := List.cons_prefix_cons.1 hpre
                subst hba
                have hwt : w = t' := hdet s b w t' hb hstep
                subst hwt
                exact (ih ht).2 hgrest pre' v hpre' hrun'

/-- The exact condition, for steps of which it only has to be known where an invariant holds. -/
theorem always_iff_guarded_of_invariant {J I : σ → Prop} {cond : σ → α → Prop}
    (hdet : ∀ s a t t', step s a t → step s a t' → t = t')
    (hinv : ∀ s a t, J s → step s a t → J t)
    (hiff : ∀ s a t, J s → I s → step s a t → (I t ↔ cond s a)) {s t : σ} {l : List α}
    (h : Run step s l t) (hJ : J s) (hs : I s) :
    Always step I s l ↔ Run (Guarded cond step) s l t := by
  have hboth : Always step (fun s => J s ∧ I s) s l ↔ Run (Guarded cond step) s l t := by
    apply always_iff_guarded hdet
    · intro s a t hs hstep
      rw [← hiff s a t hs.1 hs.2 hstep]
      exact and_iff_right (hinv s a t hs.1 hstep)
    · exact h
    · exact ⟨hJ, hs⟩
  rw [← hboth]
  constructor
  · intro halways pre t hpre hrun
    exact ⟨hrun.invariant hinv hJ, halways pre t hpre hrun⟩
  · intro halways pre t hpre hrun
    exact (halways pre t hpre hrun).2

/-- Two guards that agree wherever an invariant of the guarded runs holds have the same runs. -/
theorem guarded_congr {I : σ → Prop} {cond cond' : σ → α → Prop}
    (hstep : ∀ s a t, I s → cond s a → step s a t → I t) (hiff : ∀ s a, I s → (cond s a ↔ cond' s a))
    {s t : σ} {l : List α} (hs : I s) : Run (Guarded cond step) s l t ↔ Run (Guarded cond' step) s l t := by
  constructor
  · intro h
    induction h with
    | nil s => exact .nil s
    | @cons s _ _ a _ h1 _ ih => exact .cons ⟨(hiff s a hs).1 h1.1, h1.2⟩ (ih (hstep _ _ _ hs h1.1 h1.2))
  · intro h
    induction h with
    | nil s => exact .nil s
    | @cons s _ _ a _ h1 _ ih =>
        have hcond := (hiff s a hs).2 h1.1
        exact .cons ⟨hcond, h1.2⟩ (ih (hstep _ _ _ hs hcond h1.2))

/-! ### Runs that can be computed -/

/-- Perform the labels one after the other, if every one is possible. -/
def perform (apply : σ → α → Option σ) : σ → List α → Option σ
  | s, [] => some s
  | s, a :: l => (apply s a).bind fun t => perform apply t l

theorem of_perform {apply : σ → α → Option σ} {s t : σ} {l : List α} (h : perform apply s l = some t) :
    Run (fun s a t => apply s a = some t) s l t := by
  induction l generalizing s with
  | nil =>
      obtain rfl := Option.some.inj h
      exact .nil _
  | cons a l ih =>
      obtain ⟨u, hu, hrest⟩ := Option.bind_eq_some_iff.1 h
      exact .cons hu (ih hrest)

theorem guarded_of_perform {apply : σ → α → Option σ} {cond : σ → α → Prop} [∀ s a, Decidable (cond s a)] {s t : σ}
    {l : List α} (h : perform (fun s a => if cond s a then apply s a else none) s l = some t) :
    Run (Guarded cond fun s a t => apply s a = some t) s l t := by
  refine (of_perform h).mono ?_
  intro s a t hstep
  split at hstep
  · rename_i hcond
    exact ⟨hcond, hstep⟩
  · cases hstep

end Run
end Lib
end RobotsixMill
