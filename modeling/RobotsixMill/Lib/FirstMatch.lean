import Mathlib.Data.List.Basic

/-!
# `Lib.FirstMatch` — the first element that meets a test

`List.find?` on a list put together from several sources: duplicates do not matter
(`find?_eraseDups`), and in a sorted list the result depends on the matching elements alone
(`find?_congr_of_sorted`).
-/

namespace RobotsixMill
namespace Lib

variable {α : Type*} {p q : α → Bool}

/-- Dropping later duplicates moves no first match. -/
theorem find?_eraseDups [BEq α] [LawfulBEq α] (l : List α) : l.eraseDups.find? p = l.find? p := by
  induction hn : l.length using Nat.strongRecOn generalizing l with
  | _ n ih =>
    cases l with
    | nil => rfl
    | cons a l =>
        rw [List.eraseDups_cons, List.find?_cons, List.find?_cons]
        cases ha : p a with
        | true => rfl
        | false =>
            have hlen : (l.filter fun b => !b == a).length < n := by
              have hle : (l.filter fun b => !b == a).length ≤ l.length := List.length_filter_le _ _
              rw [← hn, List.length_cons]
              omega
            dsimp only
            rw [ih _ hlen _ rfl, List.find?_filter]
            -- the dropped copies of `a` do not match
            congr 1
            funext b
            by_cases hb : b = a
            · subst hb; simp [ha]
            · simp [hb]

/-- In a sorted list the first match is below every match. -/
theorem le_of_find?_sorted {r : α → α → Prop} (hrefl : ∀ a, r a a) {l : List α} (hl : l.Pairwise r)
    {x z : α} (hx : l.find? p = some x) (hz : z ∈ l) (hpz : p z = true) : r x z := by
  induction l with
  | nil => cases hz
  | cons a l ih =>
      obtain ⟨ha, hl⟩ := List.pairwise_cons.1 hl
      rw [List.find?_cons] at hx
      cases hpa : p a with
      | true =>
          rw [hpa] at hx
          cases hx
          rcases List.mem_cons.1 hz with rfl | hz
          · exact hrefl _
          · exact ha z hz
      | false =>
          rw [hpa] at hx
          rcases List.mem_cons.1 hz with rfl | hz
          · rw [hpa] at hpz; cases hpz
          · exact ih hl hx hz

/-- **Two sorted lists with the same matches have the same first match.** -/
theorem find?_congr_of_sorted {r : α → α → Prop} (hrefl : ∀ a, r a a)
    (hanti : ∀ a b, r a b → r b a → a = b) {l l' : List α} (hl : l.Pairwise r) (hl' : l'.Pairwise r)
    (h : ∀ x, p x = true → (x ∈ l ↔ x ∈ l')) : l.find? p = l'.find? p := by
  cases hx : l.find? p with
  | none =>
      symm
      rw [List.find?_eq_none]
      intro y hy hpy
      exact List.find?_eq_none.1 hx y ((h y hpy).2 hy) hpy
  | some x =>
      have hpx : p x = true := List.find?_some hx
      have hxl' : x ∈ l' := (h x hpx).1 (List.mem_of_find?_eq_some hx)
      cases hy : l'.find? p with
      | none => exact absurd hpx (List.find?_eq_none.1 hy x hxl')
      | some y =>
          have hpy : p y = true := List.find?_some hy
          have hyl : y ∈ l := (h y hpy).2 (List.mem_of_find?_eq_some hy)
          have hxy := le_of_find?_sorted hrefl hl hx hyl hpy
          have hyx := le_of_find?_sorted hrefl hl' hy hxl' hpx
          rw [hanti x y hxy hyx]

/-- A stricter test that the first match still meets. -/
theorem find?_of_imp (himp : ∀ a, q a = true → p a = true) {l : List α} {x : α} (hx : l.find? p = some x)
    (hqx : q x = true) : l.find? q = some x := by
  induction l with
  | nil => cases hx
  | cons a l ih =>
      rw [List.find?_cons] at hx ⊢
      cases hpa : p a with
      | true =>
          rw [hpa] at hx
          cases hx
          rw [hqx]
      | false =>
          rw [hpa] at hx
          have hqa : q a = false := by
            rw [Bool.eq_false_iff]
            intro h
            rw [himp a h] at hpa
            cases hpa
          rw [hqa]
          exact ih hx

/-- In another sorted list a stricter test finds the same element, if it is in that list and meets the test. -/
theorem find?_of_sorted_imp {r : α → α → Prop} (hrefl : ∀ a, r a a) (hanti : ∀ a b, r a b → r b a → a = b)
    {l l' : List α} (hl : l.Pairwise r) (hl' : l'.Pairwise r) (himp : ∀ a, q a = true → p a = true ∧ a ∈ l) {x : α}
    (hx : l.find? p = some x) (hmem : x ∈ l') (hqx : q x = true) : l'.find? q = some x := by
  cases hy : l'.find? q with
  | none => exact absurd hqx (List.find?_eq_none.1 hy x hmem)
  | some y =>
      obtain ⟨hpy, hyl⟩ := himp y (List.find?_some hy)
      have hxy := le_of_find?_sorted hrefl hl hx hyl hpy
      have hyx := le_of_find?_sorted hrefl hl' hy hmem hqx
      rw [hanti x y hxy hyx]

end Lib
end RobotsixMill
