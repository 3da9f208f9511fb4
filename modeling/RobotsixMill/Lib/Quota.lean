import Mathlib.Logic.Relation
import Mathlib.Algebra.GroupWithZero.Nat
import Mathlib.Algebra.BigOperators.Group.List.Basic
import Mathlib.Algebra.Order.BigOperators.Group.List
import Mathlib.Tactic.Ring

/-!
# `Lib.Quota` — a capped count that several parties read before they add to it

A party reads the count when it comes, and from then on adds at most what it saw missing to the cap. What others add in
the meantime it does not see, so the count can go over the cap, by a cap for each further party at work.

- `Quota`, `QuotaStep` — the count with the allowances of the parties at work, and what can happen to them;
- `Quota.count_le` — how far the count can go.
-/

namespace RobotsixMill
namespace Lib

/-- The count, and how much each party at work may still add. -/
structure Quota where
  count : Nat
  allowances : List Nat

/-- With at most so many parties at work at once. -/
inductive QuotaStep (cap parties : Nat) : Quota → Quota → Prop
  | join {n : Nat} {as : List Nat} : as.length < parties → QuotaStep cap parties ⟨n, as⟩ ⟨n, as ++ [cap - n]⟩
  /-- What is added is taken off the allowance; a part of it may be given up. -/
  | spend {n m a b i : Nat} {as : List Nat} : as[i]? = some a → b ≤ a → m + b ≤ n + a →
      QuotaStep cap parties ⟨n, as⟩ ⟨m, as.set i b⟩
  | leave {n i : Nat} {as : List Nat} : QuotaStep cap parties ⟨n, as⟩ ⟨n, as.eraseIdx i⟩
  | drop {n m : Nat} {as : List Nat} : m ≤ n → QuotaStep cap parties ⟨n, as⟩ ⟨m, as⟩

namespace Quota

/-- The count with everything still to be added stays within the bound. -/
structure Within (cap bound : Nat) (q : Quota) : Prop where
  total : q.count + q.allowances.sum ≤ bound
  each : ∀ a ∈ q.allowances, a ≤ cap

theorem sum_set_add {as : List Nat} {i a : Nat} (h : as[i]? = some a) (b : Nat) :
    (as.set i b).sum + a = as.sum + b := by
  induction as generalizing i with
  | nil => cases h
  | cons x as ih =>
    cases i with
    | zero =>
      obtain rfl := Option.some.inj h
      rw [List.set_cons_zero, List.sum_cons, List.sum_cons]
      ring
    | succ i =>
      have hrest := ih h
      rw [List.set_cons_succ, List.sum_cons, List.sum_cons]
      omega

theorem Within.step {cap parties start : Nat} {q q' : Quota}
    (h : Within cap (max start cap + (parties - 1) * cap) q) (hstep : QuotaStep cap parties q q') :
    Within cap (max start cap + (parties - 1) * cap) q' := by
  cases hstep with
  | @join n as hfree =>
    refine ⟨?_, ?_⟩
    · show n + (as ++ [cap - n]).sum ≤ _
      rw [List.sum_append, List.sum_singleton]
      have htotal : n + as.sum ≤ _ := h.total
      by_cases hfull : cap ≤ n
      · -- nothing is left for the party
        rw [Nat.sub_eq_zero_of_le hfull]
        exact htotal
      · -- the others may add a cap each
        have hothers : as.sum ≤ as.length * cap := List.sum_le_card_nsmul as cap h.each
        have hparties : as.length * cap ≤ (parties - 1) * cap := Nat.mul_le_mul_right cap (Nat.le_sub_one_of_lt hfree)
        have hcap : cap ≤ max start cap := Nat.le_max_right _ _
        omega
    · intro a ha
      obtain hold | hnew := List.mem_append.1 ha
      · exact h.each a hold
      · rw [List.mem_singleton.1 hnew]
        exact Nat.sub_le cap n
  | @spend n m a b i as hi hle hsum =>
    refine ⟨?_, ?_⟩
    · have hset := sum_set_add hi b
      have htotal : n + as.sum ≤ _ := h.total
      show m + (as.set i b).sum ≤ _
      omega
    · intro x hx
      obtain hold | rfl := List.mem_or_eq_of_mem_set hx
      · exact h.each x hold
      · exact hle.trans (h.each a (List.mem_of_getElem? hi))
  | @leave n i as =>
    have hsub : (as.eraseIdx i).Sublist as := List.eraseIdx_sublist as i
    refine ⟨?_, fun a ha => h.each a (hsub.subset ha)⟩
    have hsum : (as.eraseIdx i).sum ≤ as.sum := hsub.sum_le_sum fun _ _ => Nat.zero_le _
    have htotal : n + as.sum ≤ _ := h.total
    show n + (as.eraseIdx i).sum ≤ _
    omega
  | @drop n m as hle =>
    have htotal : n + as.sum ≤ _ := h.total
    exact ⟨(Nat.add_le_add_right hle _).trans htotal, h.each⟩

/-- **The count of a quota**: from where it starts, or from the cap, it goes up by at most a cap for each party at work
    beyond the first. -/
theorem count_le {cap parties start : Nat} {q : Quota}
    (h : Relation.ReflTransGen (QuotaStep cap parties) ⟨start, []⟩ q) :
    q.count ≤ max start cap + (parties - 1) * cap := by
  have hwithin : Within cap (max start cap + (parties - 1) * cap) q := by
    induction h with
    | refl =>
      refine ⟨?_, fun a ha => absurd ha List.not_mem_nil⟩
      exact (Nat.le_max_left start cap).trans (Nat.le_add_right _ _)
    | tail _ hstep ih => exact ih.step hstep
  exact (Nat.le_add_right _ _).trans hwithin.total

end Quota

end Lib
end RobotsixMill
