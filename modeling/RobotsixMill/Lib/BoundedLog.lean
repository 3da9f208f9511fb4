import Mathlib.Data.List.DropRight
import Mathlib.Tactic.TypeStar

/-!
# `Lib.BoundedLog` — a log that sheds its oldest records

Records are appended, changed in place while they are open, and shed from the front when the log is full.
`Keeps full kept` says that `kept` is what is left of `full`, and that nothing was lost that counts: no open
record, and no good one unless a good one is left.

- `Keeps.snoc`, `Keeps.shed`, `Keeps.map` — one rule for each thing that happens to a log;
- `Keeps.newest_eq` — the newest good record of the log is that of the full one.
-/

namespace RobotsixMill
namespace Lib

variable {α : Type*}

/-- The newest record with a property. -/
def newest (good : α → Bool) (l : List α) : Option α := l.reverse.find? good

theorem newest_append (good : α → Bool) (l m : List α) : newest good (l ++ m) = (newest good m).or (newest good l) := by
  rw [newest, List.reverse_append, List.find?_append]
  rfl

theorem newest_eq_none_iff {good : α → Bool} {l : List α} : newest good l = none ↔ ∀ a ∈ l, good a = false := by
  simp only [newest, List.find?_eq_none, List.mem_reverse, Bool.not_eq_true]

theorem newest_filter (key good : α → Bool) (l : List α) :
    newest good (l.filter key) = newest (fun a => key a && good a) l := by
  rw [newest, ← List.filter_reverse, List.find?_filter, newest]
  congr 1
  funext a
  rw [Bool.decide_and, Bool.decide_eq_true, Bool.decide_eq_true]

/-- What is left of a log, when nothing was shed that counts. -/
def Keeps (isOpen good : α → Bool) (full kept : List α) : Prop :=
  ∃ lost, full = lost ++ kept ∧ (∀ a ∈ lost, isOpen a = false) ∧
    ((∃ a ∈ lost, good a = true) → ∃ a ∈ kept, good a = true)

namespace Keeps

variable {isOpen good : α → Bool} {full kept : List α}

theorem refl (l : List α) : Keeps isOpen good l l := by
  refine ⟨[], rfl, fun a ha => absurd ha List.not_mem_nil, ?_⟩
  rintro ⟨a, ha, -⟩
  exact absurd ha List.not_mem_nil

theorem snoc (h : Keeps isOpen good full kept) (a : α) : Keeps isOpen good (full ++ [a]) (kept ++ [a]) := by
  obtain ⟨lost, hfull, hopen, hgood⟩ := h
  refine ⟨lost, by rw [hfull, List.append_assoc], hopen, fun hlost => ?_⟩
  obtain ⟨b, hb, hgb⟩ := hgood hlost
  exact ⟨b, List.mem_append_left [a] hb, hgb⟩

/-- Records may go that are closed, the good ones of them only if a good one stays. -/
theorem shed {out rest : List α} (h : Keeps isOpen good full (out ++ rest)) (hopen : ∀ a ∈ out, isOpen a = false)
    (hgood : (∃ a ∈ out, good a = true) → ∃ a ∈ rest, good a = true) : Keeps isOpen good full rest := by
  obtain ⟨lost, hfull, hlostopen, hlostgood⟩ := h
  refine ⟨lost ++ out, by rw [hfull, List.append_assoc], ?_, ?_⟩
  · intro a ha
    obtain ha | ha := List.mem_append.1 ha
    · exact hlostopen a ha
    · exact hopen a ha
  · rintro ⟨a, ha, hga⟩
    obtain ha | ha := List.mem_append.1 ha
    · obtain ⟨b, hb, hgb⟩ := hlostgood ⟨a, ha, hga⟩
      obtain hb | hb := List.mem_append.1 hb
      · exact hgood ⟨b, hb, hgb⟩
      · exact ⟨b, hb, hgb⟩
    · exact hgood ⟨a, ha, hga⟩

/-- A change that only open records undergo; good ones are closed. -/
theorem map (h : Keeps isOpen good full kept) {f : α → α} (hf : ∀ a ∈ full, isOpen a = false → f a = a)
    (hclosed : ∀ a, good a = true → isOpen a = false) : Keeps isOpen good (full.map f) (kept.map f) := by
  obtain ⟨lost, rfl, hopen, hgood⟩ := h
  have hlost : lost.map f = lost := by
    refine (List.map_congr_left fun a ha => ?_).trans (List.map_id lost)
    exact hf a (List.mem_append_left kept ha) (hopen a ha)
  refine ⟨lost, by rw [List.map_append, hlost], hopen, fun hlostgood => ?_⟩
  obtain ⟨b, hb, hgb⟩ := hgood hlostgood
  have hfb : f b = b := hf b (List.mem_append_right lost hb) (hclosed b hgb)
  exact ⟨b, List.mem_map.2 ⟨b, hb, hfb⟩, hgb⟩

/-- **Nothing is lost to the search for the newest good record.** -/
theorem newest_eq (h : Keeps isOpen good full kept) : newest good full = newest good kept := by
  obtain ⟨lost, rfl, -, hgood⟩ := h
  rw [newest_append]
  cases hkept : newest good kept with
  | some a => rfl
  | none =>
      show newest good lost = none
      rw [newest_eq_none_iff] at hkept ⊢
      intro a ha
      by_contra hga
      obtain ⟨b, hb, hgb⟩ := hgood ⟨a, ha, by simpa using hga⟩
      rw [hkept b hb] at hgb
      cases hgb

end Keeps

end Lib
end RobotsixMill
