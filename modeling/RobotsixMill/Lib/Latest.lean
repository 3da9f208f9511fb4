import Mathlib.Data.List.Basic
import Mathlib.Order.Lattice

/-!
# `Lib.Latest` — the latest of a list, by a key

`latest beats` goes through a list from the end; `beats a b` says that `b`, listed after `a`, is the later of
the two. Which of two with equal keys is the later depends on `beats`, the rest only on the keys.

- `latest_mem`, `latest_ge` — the latest is in the list, and none has a greater key;
- `latest_perm` — with distinct keys the order of the list does not matter;
- `filter_mergeSort` — a stable sort commutes with filtering;
- `getLast?_filter_mergeSort` — the last of a stable sort is the latest, a later listed one first.
-/

namespace RobotsixMill
namespace Lib

variable {α κ : Type*}

/-- The latest of a list. -/
def latest (beats : α → α → Bool) : List α → Option α
  | [] => none
  | a :: l =>
    match latest beats l with
    | none => some a
    | some b => if beats a b then some b else some a

theorem latest_eq_none_iff {beats : α → α → Bool} {l : List α} : latest beats l = none ↔ l = [] := by
  cases l with
  | nil => exact ⟨fun _ => rfl, fun _ => rfl⟩
  | cons a l =>
      refine ⟨fun h => ?_, fun h => by cases h⟩
      rw [latest] at h
      cases hl : latest beats l with
      | none =>
          rw [hl] at h
          cases h
      | some b =>
          rw [hl] at h
          dsimp only at h
          split at h <;> cases h

theorem latest_mem {beats : α → α → Bool} {l : List α} {r : α} (h : latest beats l = some r) : r ∈ l := by
  induction l generalizing r with
  | nil => cases h
  | cons a l ih =>
      rw [latest] at h
      cases hl : latest beats l with
      | none =>
          rw [hl] at h
          obtain rfl := Option.some.inj h
          exact List.mem_cons_self
      | some b =>
          rw [hl] at h
          dsimp only at h
          split at h
          · obtain rfl := Option.some.inj h
            exact List.mem_cons_of_mem a (ih hl)
          · obtain rfl := Option.some.inj h
            exact List.mem_cons_self

variable [LinearOrder κ] {key : α → κ} {beats : α → α → Bool}

/-- `beats` goes by the key. -/
structure ByKey (key : α → κ) (beats : α → α → Bool) : Prop where
  of_lt : ∀ a b, key a < key b → beats a b = true
  le : ∀ a b, beats a b = true → key a ≤ key b
  mono : ∀ a b c, beats a b = true → key b ≤ key c → beats a c = true

theorem byKey_le : ByKey key fun a b => decide (key a ≤ key b) where
  of_lt _ _ h := decide_eq_true (le_of_lt h)
  le _ _ h := of_decide_eq_true h
  mono _ _ _ h hle := decide_eq_true (le_trans (of_decide_eq_true h) hle)

theorem byKey_lt : ByKey key fun a b => decide (key a < key b) where
  of_lt _ _ h := decide_eq_true h
  le _ _ h := le_of_lt (of_decide_eq_true h)
  mono _ _ _ h hle := decide_eq_true (lt_of_lt_of_le (of_decide_eq_true h) hle)

theorem latest_ge (hbeats : ByKey key beats) {l : List α} {r : α} (h : latest beats l = some r) :
    ∀ a ∈ l, key a ≤ key r := by
  induction l generalizing r with
  | nil => cases h
  | cons b l ih =>
      rw [latest] at h
      rw [List.forall_mem_cons]
      cases hl : latest beats l with
      | none =>
          rw [hl] at h
          obtain rfl := Option.some.inj h
          rw [latest_eq_none_iff.1 hl]
          exact ⟨le_refl _, fun a ha => absurd ha List.not_mem_nil⟩
      | some c =>
          rw [hl] at h
          dsimp only at h
          split at h
          · rename_i hbc
            obtain rfl := Option.some.inj h
            exact ⟨hbeats.le b c hbc, ih hl⟩
          · rename_i hbc
            obtain rfl := Option.some.inj h
            have hle : key c ≤ key b := not_lt.1 fun hlt => hbc (hbeats.of_lt b c hlt)
            exact ⟨le_refl _, fun a ha => le_trans (ih hl a ha) hle⟩

/-- The latest is also the latest of a part of the list that it is in. -/
theorem latest_filter (hbeats : ByKey key beats) {p : α → Bool} {l : List α} {r : α} (h : latest beats l = some r)
    (hp : p r = true) : latest beats (l.filter p) = some r := by
  induction l generalizing r with
  | nil => cases h
  | cons a l ih =>
      rw [latest] at h
      cases hl : latest beats l with
      | none =>
          rw [hl] at h
          obtain rfl := Option.some.inj h
          rw [latest_eq_none_iff.1 hl, List.filter_cons_of_pos hp]
          rfl
      | some b =>
          rw [hl] at h
          dsimp only at h
          split at h
          · rename_i hab
            obtain rfl := Option.some.inj h
            have hrest := ih hl hp
            cases hpa : p a with
            | false => rw [List.filter_cons_of_neg (by simp [hpa]), hrest]
            | true =>
                rw [List.filter_cons_of_pos hpa, latest, hrest]
                dsimp only
                rw [if_pos hab]
          · rename_i hab
            obtain rfl := Option.some.inj h
            rw [List.filter_cons_of_pos hp, latest]
            cases hrest : latest beats (l.filter p) with
            | none => rfl
            | some c =>
                have hcb := latest_ge hbeats hl c (List.mem_of_mem_filter (latest_mem hrest))
                dsimp only
                rw [if_neg fun hac => hab (hbeats.mono a c b hac hcb)]

/-- **With distinct keys the order of the list does not matter.** -/
theorem latest_perm {beats' : α → α → Bool} (hbeats : ByKey key beats) (hbeats' : ByKey key beats') {l l' : List α}
    (hmem : ∀ a, a ∈ l ↔ a ∈ l') (hkeys : ∀ a ∈ l, ∀ b ∈ l, key a = key b → a = b) :
    latest beats l = latest beats' l' := by
  cases h : latest beats l with
  | none =>
      have hnil := latest_eq_none_iff.1 h
      have hnil' : l' = [] := by
        apply List.eq_nil_iff_forall_not_mem.2
        intro a ha
        have := (hmem a).2 ha
        rw [hnil] at this
        exact List.not_mem_nil this
      rw [hnil']
      rfl
  | some r =>
      cases h' : latest beats' l' with
      | none =>
          have hr := (hmem r).1 (latest_mem h)
          rw [latest_eq_none_iff.1 h'] at hr
          exact absurd hr List.not_mem_nil
      | some r' =>
          have hr := latest_mem h
          have hr' := (hmem r').2 (latest_mem h')
          have hle := latest_ge hbeats h r' hr'
          have hge := latest_ge hbeats' h' r ((hmem r).1 hr)
          rw [hkeys r hr r' hr' (le_antisymm hge hle)]

/-- **Filtering a stable sort** is sorting what the filter leaves. -/
theorem filter_mergeSort {le : α → α → Bool} (htrans : ∀ a b c : α, le a b = true → le b c = true → le a c = true)
    (htotal : ∀ a b : α, (le a b || le b a) = true) (p : α → Bool) (l : List α) :
    (l.mergeSort le).filter p = (l.filter p).mergeSort le := by
  -- both sides put `a` where the elements it is to stand before begin
  have hsplit : ∀ (a : α) (l₁ l₂ : List α), (∀ b ∈ l₁, (!le a b) = true) → (l₁ ++ a :: l₂).Pairwise (fun a b => le a b) →
      (l₁ ++ l₂).takeWhile (fun b => !le a b) = l₁ ∧ (l₁ ++ l₂).dropWhile (fun b => !le a b) = l₂ := by
    intro a l₁ l₂ hbefore hsorted
    have hafter : ∀ b ∈ l₂, le a b = true := (List.pairwise_cons.1 (List.pairwise_append.1 hsorted).2.1).1
    rw [List.takeWhile_append_of_pos hbefore, List.dropWhile_append_of_pos hbefore]
    cases l₂ with
    | nil => exact ⟨List.append_nil l₁, rfl⟩
    | cons b l₂ =>
        have hb : ¬ (!le a b) = true := by simp [hafter b List.mem_cons_self]
        rw [List.takeWhile_cons_of_neg (p := fun b => !le a b) hb, List.dropWhile_cons_of_neg (p := fun b => !le a b) hb]
        exact ⟨List.append_nil l₁, rfl⟩
  induction l with
  | nil => simp
  | cons a l ih =>
      obtain ⟨l₁, l₂, hcons, hrest, hbefore⟩ := List.mergeSort_cons htrans htotal a l
      have hsorted := List.pairwise_mergeSort htrans htotal (a :: l)
      rw [hcons] at hsorted ⊢
      rw [hrest, List.filter_append] at ih
      rw [List.filter_append]
      cases hpa : p a with
      | false => rw [List.filter_cons_of_neg (by simp [hpa]), List.filter_cons_of_neg (by simp [hpa]), ih]
      | true =>
          rw [List.filter_cons_of_pos hpa, List.filter_cons_of_pos hpa]
          obtain ⟨m₁, m₂, hcons', hrest', hbefore'⟩ := List.mergeSort_cons htrans htotal a (l.filter p)
          have hsorted' := List.pairwise_mergeSort htrans htotal (a :: l.filter p)
          rw [hcons'] at hsorted' ⊢
          rw [hrest'] at ih
          have hfiltered : (l₁.filter p ++ a :: l₂.filter p).Pairwise (fun a b => le a b) := by
            have h := hsorted.filter p
            rw [List.filter_append, List.filter_cons_of_pos hpa] at h
            exact h
          have hleft := hsplit a _ _ (fun b hb => hbefore b (List.mem_of_mem_filter hb)) hfiltered
          have hright := hsplit a _ _ hbefore' hsorted'
          rw [ih] at hleft
          rw [← hleft.1.symm.trans hright.1, ← hleft.2.symm.trans hright.2]

/-- **The last of a stable sort is the latest.** -/
theorem getLast?_filter_mergeSort (key : α → κ) (p : α → Bool) (l : List α) :
    ((l.mergeSort fun a b => decide (key a ≤ key b)).filter p).getLast? =
      latest (fun a b => decide (key a ≤ key b)) (l.filter p) := by
  have htrans : ∀ a b c : α, decide (key a ≤ key b) = true → decide (key b ≤ key c) = true →
      decide (key a ≤ key c) = true := by
    intro a b c hab hbc
    exact decide_eq_true (le_trans (of_decide_eq_true hab) (of_decide_eq_true hbc))
  have htotal : ∀ a b : α, (decide (key a ≤ key b) || decide (key b ≤ key a)) = true := by
    intro a b
    rw [Bool.or_eq_true, decide_eq_true_iff, decide_eq_true_iff]
    exact le_total _ _
  induction l with
  | nil => simp [latest]
  | cons a l ih =>
      -- `a` goes in after all that are before it, and after no equal one
      obtain ⟨l₁, l₂, hcons, hrest, hbefore⟩ := List.mergeSort_cons htrans htotal a l
      have hsorted := List.pairwise_mergeSort htrans htotal (a :: l)
      rw [hcons] at hsorted ⊢
      rw [hrest, List.filter_append] at ih
      rw [List.filter_append]
      cases hpa : p a with
      | false => rw [List.filter_cons_of_neg (by simp [hpa]), List.filter_cons_of_neg (by simp [hpa]), ih]
      | true =>
          rw [List.filter_cons_of_pos hpa, List.filter_cons_of_pos hpa, latest, ← ih]
          cases hlast : (l₂.filter p).getLast? with
          | none =>
              rw [List.getLast?_eq_none_iff] at hlast
              rw [hlast, List.append_nil, List.getLast?_append]
              cases hfirst : (l₁.filter p).getLast? with
              | none => rfl
              | some b =>
                  have hb := hbefore b (List.mem_of_mem_filter (List.mem_of_getLast? hfirst))
                  dsimp only
                  rw [if_neg (by simpa using hb)]
                  rfl
          | some b =>
              have hb : b ∈ l₂ := List.mem_of_mem_filter (List.mem_of_getLast? hlast)
              have hab : decide (key a ≤ key b) = true :=
                (List.pairwise_cons.1 (List.pairwise_append.1 hsorted).2.1).1 b hb
              rw [List.getLast?_append, List.getLast?_append, List.getLast?_cons, hlast]
              simp only [Option.getD_some, Option.some_or, if_pos hab]

end Lib
end RobotsixMill
