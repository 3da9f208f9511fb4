import Mathlib.Algebra.Order.Monoid.Defs
import Mathlib.Data.List.Basic

/-!
# `Lib.TimeWindow` — how often something happens within a retention time

A program remembers when it acted last, for a limited time, and acts again only after a pause and up to a number
of times. `Spaced` says what that buys: a budget for every window of the retention time, and a pause between two
actions in one window.

- `retained` — how many of the actions are still within the retention time;
- `Spaced.concat` — one more action, if the retained ones leave room for it.
-/

namespace RobotsixMill
namespace Lib

variable {T : Type*} [AddCommMonoid T] [LinearOrder T]

/-- At most `max` of the times lie in a window of length `ttl`, and two of them that do are `sep` apart. -/
structure Spaced (ttl sep : T) (max : Nat) (times : List T) : Prop where
  budget : ∀ t, times.countP (fun u => decide (t ≤ u) && decide (u ≤ t + ttl)) ≤ max
  apart : times.Pairwise fun u v => v ≤ u + ttl → u + sep ≤ v

/-- The times that are not older than `ttl`. -/
def retained (ttl now : T) (times : List T) : Nat := times.countP fun u => decide (now ≤ u + ttl)

variable {ttl sep now now' : T} {max : Nat} {times : List T}

theorem retained_anti (h : now ≤ now') : retained ttl now' times ≤ retained ttl now times := by
  refine List.countP_mono_left fun u _ hu => ?_
  rw [decide_eq_true_eq] at hu ⊢
  exact h.trans hu

theorem retained_eq_zero (h : ∀ u ∈ times, u + ttl < now) : retained ttl now times = 0 := by
  rw [retained, List.countP_eq_zero]
  intro u hu
  rw [decide_eq_true_eq, not_le]
  exact h u hu

theorem retained_concat_le (u : T) : retained ttl now (times ++ [u]) ≤ retained ttl now times + 1 := by
  rw [retained, List.countP_append]
  exact Nat.add_le_add_left List.countP_le_length _

namespace Spaced

theorem nil : Spaced ttl sep max [] := ⟨fun _ => Nat.zero_le _, .nil⟩

variable [IsOrderedAddMonoid T]

/-- A window that reaches up to now holds retained times only. -/
theorem window_le_retained {t : T} (h : now ≤ t + ttl) :
    times.countP (fun u => decide (t ≤ u) && decide (u ≤ t + ttl)) ≤ retained ttl now times := by
  refine List.countP_mono_left fun u _ hu => ?_
  rw [Bool.and_eq_true, decide_eq_true_eq] at hu
  rw [decide_eq_true_eq]
  exact h.trans (add_le_add_left hu.1 ttl)

/-- **One more action**, now. -/
theorem concat (h : Spaced ttl sep max times) (hroom : retained ttl now times < max)
    (hpause : ∀ u ∈ times, now ≤ u + ttl → u + sep ≤ now) : Spaced ttl sep max (times ++ [now]) := by
  constructor
  · intro t
    rw [List.countP_append]
    by_cases hin : t ≤ now ∧ now ≤ t + ttl
    · have hwindow := @window_le_retained T _ _ ttl now times _ t hin.2
      have hone : [now].countP (fun u => decide (t ≤ u) && decide (u ≤ t + ttl)) ≤ 1 := List.countP_le_length
      omega
    · have hnone : [now].countP (fun u => decide (t ≤ u) && decide (u ≤ t + ttl)) = 0 := by
        rw [List.countP_eq_zero]
        intro u hu
        rw [List.mem_singleton.1 hu, Bool.and_eq_true, decide_eq_true_eq, decide_eq_true_eq]
        exact hin
      rw [hnone, Nat.add_zero]
      exact h.budget t
  · rw [List.pairwise_append]
    refine ⟨h.apart, List.pairwise_singleton .., ?_⟩
    intro u hu v hv
    rw [List.mem_singleton.1 hv]
    exact hpause u hu

end Spaced
end Lib
end RobotsixMill
