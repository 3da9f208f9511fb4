import RobotsixMill.Lib.Runs

/-!
# `Lib.Emissions` — what a run emits, and how much of it there can be

Each step of a labelled system emits a list of values; `Emits` is a run together with the concatenation of
what its steps emit.

- **Invariant.** What ties the state to all that was emitted, and every step keeps (`Emits.invariant`).
- **Budget.** When every step pays for what it emits out of a natural number that no step refills,
  a run emits at most what the number was at its start (`Emits.length_add_le`).
- **Pump.** When a run that emits something can be started from every state of a set, and ends in the set
  again, the emissions of the runs from it are unbounded (`Emits.pump`).
-/

namespace RobotsixMill
namespace Lib

variable {σ α ε : Type*} {step step' : σ → α → σ → Prop} {emit : σ → α → σ → List ε}

/-- `Emits step emit s l t es`: the labels of `l` lead from `s` to `t`, and emit `es` on the way. -/
inductive Emits (step : σ → α → σ → Prop) (emit : σ → α → σ → List ε) : σ → List α → σ → List ε → Prop
  | nil (s : σ) : Emits step emit s [] s []
  | cons {s t u : σ} {a : α} {l : List α} {es : List ε} :
      step s a t → Emits step emit t l u es → Emits step emit s (a :: l) u (emit s a t ++ es)

namespace Emits

theorem single {s t : σ} {a : α} (h : step s a t) : Emits step emit s [a] t (emit s a t) := by
  have hone : Emits step emit s [a] t (emit s a t ++ []) := .cons h (.nil t)
  rwa [List.append_nil] at hone

theorem append {s t u : σ} {l m : List α} {es fs : List ε} (h : Emits step emit s l t es)
    (h' : Emits step emit t m u fs) : Emits step emit s (l ++ m) u (es ++ fs) := by
  induction h with
  | nil s => exact h'
  | cons hs _ ih =>
      rw [List.append_assoc]
      exact .cons hs (ih h')

/-- What every step emits, the run emits. -/
theorem forall_mem {P : ε → Prop} {s t : σ} {l : List α} {es : List ε} (h : Emits step emit s l t es)
    (hstep : ∀ s a t, step s a t → ∀ e ∈ emit s a t, P e) : ∀ e ∈ es, P e := by
  induction h with
  | nil s => intro e he; cases he
  | cons hs _ ih =>
      intro e he
      obtain hhead | htail := List.mem_append.1 he
      · exact hstep _ _ _ hs e hhead
      · exact ih e htail

/-- **The invariant rule.** What ties the state to everything emitted so far is kept by a run, if every step
    keeps it. -/
theorem invariant {I : List ε → σ → Prop}
    (hstep : ∀ past s a t, I past s → step s a t → I (past ++ emit s a t) t) {s t : σ} {l : List α}
    {es : List ε} (h : Emits step emit s l t es) {past : List ε} (hs : I past s) : I (past ++ es) t := by
  induction h generalizing past with
  | nil s =>
      rw [List.append_nil]
      exact hs
  | cons h1 _ ih =>
      rw [← List.append_assoc]
      exact ih (hstep _ _ _ _ hs h1)

/-- **The budget rule.** Steps that pay for their emissions out of `fuel`. -/
theorem length_add_le {fuel : σ → Nat} {s t : σ} {l : List α} {es : List ε}
    (h : Emits step emit s l t es)
    (hpay : ∀ s a t, step s a t → (emit s a t).length + fuel t ≤ fuel s) :
    es.length + fuel t ≤ fuel s := by
  induction h with
  | nil s => simp
  | @cons s t u a l es hst _ hrest =>
      have hone := hpay s a t hst
      rw [List.length_append]
      omega

/-- **The pump.** A set of states, from each of which some run emits something and comes back to the
    set. -/
theorem pump {I : σ → Prop}
    (hback : ∀ s, I s → ∃ l t es, Emits step emit s l t es ∧ I t ∧ es ≠ []) {s : σ} (hs : I s) (n : Nat) :
    ∃ l t es, Emits step emit s l t es ∧ I t ∧ n ≤ es.length := by
  induction n with
  | zero => exact ⟨[], s, [], .nil s, hs, Nat.zero_le _⟩
  | succ n ih =>
      obtain ⟨l, t, es, hrun, ht, hlen⟩ := ih
      obtain ⟨m, u, fs, hmore, hu, hne⟩ := hback t ht
      refine ⟨l ++ m, u, es ++ fs, hrun.append hmore, hu, ?_⟩
      have hpos : 0 < fs.length := List.length_pos_iff.2 hne
      rw [List.length_append]
      omega

end Emits
end Lib
end RobotsixMill
