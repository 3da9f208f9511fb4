import Mathlib.Data.List.Basic
import Mathlib.Data.List.DropRight
import Mathlib.Order.Basic

/-!
# `Lib.Streak` — counters of consecutive observations

A run emits observations, and a counter is meant to say how many of the last ones were of one kind.
`LastMeet p n es` is what such a counter promises when it reads `n`.

- `LastMeet.snoc`, `LastMeet.of_le` — one observation more, and a smaller counter;
- `LastMeet.step` — a step that counts one observation of the kind, or clears the counter, keeps the promise.

`streak p es` is the number such a counter is about: how many of the last observations are of the kind, and the one
before them is not.
-/

namespace RobotsixMill
namespace Lib

/-- How many observations at the end of `es` are of the kind `p`. -/
def streak {ε : Type*} (p : ε → Bool) (es : List ε) : Nat := (es.rtakeWhile p).length

section Streak
variable {ε : Type*} {p : ε → Bool} {es : List ε} {e : ε}

@[simp] theorem streak_nil : streak p [] = 0 := by
  rw [streak, List.rtakeWhile_nil, List.length_nil]

theorem streak_snoc_of_pos (h : p e = true) : streak p (es ++ [e]) = streak p es + 1 := by
  rw [streak, List.rtakeWhile_concat_pos p es e h, List.length_append]
  rfl

theorem streak_snoc_of_neg (h : p e = false) : streak p (es ++ [e]) = 0 := by
  rw [streak, List.rtakeWhile_concat_neg p es e (by rw [h]; exact Bool.false_ne_true)]
  rfl

end Streak

variable {ε : Type*} {p : ε → Prop}

/-- There are `n` observations at the end of `es`, all of them of the kind `p`. -/
def LastMeet (p : ε → Prop) (n : Nat) (es : List ε) : Prop :=
  ∃ before last, es = before ++ last ∧ last.length = n ∧ ∀ e ∈ last, p e

namespace LastMeet

theorem zero (es : List ε) : LastMeet p 0 es :=
  ⟨es, [], (List.append_nil es).symm, rfl, fun _ he => absurd he List.not_mem_nil⟩

theorem snoc {n : Nat} {es : List ε} {e : ε} (h : LastMeet p n es) (he : p e) :
    LastMeet p (n + 1) (es ++ [e]) := by
  obtain ⟨before, last, rfl, hlen, hall⟩ := h
  refine ⟨before, last ++ [e], by rw [List.append_assoc], by rw [List.length_append, hlen]; rfl, ?_⟩
  intro e' he'
  rcases List.mem_append.1 he' with hlast | hnew
  · exact hall e' hlast
  · rwa [List.mem_singleton.1 hnew]

theorem of_le {m n : Nat} {es : List ε} (h : LastMeet p n es) (hle : m ≤ n) : LastMeet p m es := by
  obtain ⟨before, last, rfl, hlen, hall⟩ := h
  refine ⟨before ++ last.take (n - m), last.drop (n - m), ?_, ?_, ?_⟩
  · rw [List.append_assoc, List.take_append_drop]
  · rw [List.length_drop, hlen]
    omega
  · intro e he
    exact hall e (List.mem_of_mem_drop he)

/-- What it says of the list itself. -/
theorem forall_drop {n : Nat} {es : List ε} (h : LastMeet p n es) : ∀ e ∈ es.drop (es.length - n), p e := by
  obtain ⟨before, last, rfl, hlen, hall⟩ := h
  have hcut : (before ++ last).length - n = before.length := by
    rw [List.length_append, hlen]
    omega
  rw [hcut, List.drop_left]
  exact hall

end LastMeet

/-- What one step may do to a counter that reads `m` before and `n` after, when it emits `es`: leave it alone
    or lower it while it emits nothing, count one observation of the kind, or leave it at zero. -/
inductive CountsStep (p : ε → Prop) (m n : Int) : List ε → Prop
  | quiet (le : n ≤ m) : CountsStep p m n []
  | counted {e : ε} (kind : p e) (le : n ≤ m + 1) : CountsStep p m n [e]
  | cleared {es : List ε} (le : n ≤ 0) : CountsStep p m n es

theorem LastMeet.step {m n : Int} {es new : List ε} (h : LastMeet p m.toNat es) (hstep : CountsStep p m n new) :
    LastMeet p n.toNat (es ++ new) := by
  cases hstep with
  | quiet hle =>
      rw [List.append_nil]
      exact h.of_le (Int.toNat_le_toNat hle)
  | counted hkind hle => exact (h.snoc hkind).of_le (by omega)
  | cleared hle =>
      have hzero : n.toNat = 0 := by omega
      rw [hzero]
      exact .zero _

end Lib
end RobotsixMill
