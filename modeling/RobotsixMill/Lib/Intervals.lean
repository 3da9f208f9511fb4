import Mathlib.Data.List.Sort
import Mathlib.Order.MinMax
import Mathlib.Algebra.Order.Group.Int

/-!
# `Lib.Intervals` — lists of inclusive intervals of integers, merged

`mergeIntervals` sorts the intervals and goes through them once; an interval that overlaps the current one, or
touches it, is merged into it.

- `CoveredBy` — an integer in one of the intervals;
- `Apart` — every interval ends more than one before the next begins, so they are sorted, disjoint and not adjacent;
- `coveredBy_mergeIntervals`, `apart_mergeIntervals` — the merged intervals cover what the others did, and are apart.
-/

namespace RobotsixMill
namespace Lib

/-- The integers from the first to the second, both included. -/
abbrev Interval := Int × Int

/-- The integer lies in one of the intervals. -/
def CoveredBy (rs : List Interval) (x : Int) : Prop := ∃ r ∈ rs, r.1 ≤ x ∧ x ≤ r.2

/-- Each interval ends more than one before those behind it begin. -/
def Apart (rs : List Interval) : Prop := rs.Pairwise fun a b => a.2 + 1 < b.1

/-- The order of pairs. -/
def LexLE (a b : Interval) : Prop := a.1 < b.1 ∨ a.1 = b.1 ∧ a.2 ≤ b.2

instance : DecidableRel LexLE := fun a b => inferInstanceAs (Decidable (a.1 < b.1 ∨ a.1 = b.1 ∧ a.2 ≤ b.2))

instance : Std.Total LexLE := ⟨fun a b => by unfold LexLE; omega⟩

instance : IsTrans Interval LexLE := ⟨fun a b c hab hbc => by unfold LexLE at *; omega⟩

theorem LexLE.fst_le {a b : Interval} (h : LexLE a b) : a.1 ≤ b.1 := by
  rcases h with h | h
  · exact Int.le_of_lt h
  · exact Int.le_of_eq h.1

/-- Merging into the interval `cur` what overlaps or touches it. -/
def mergeInto (cur : Interval) : List Interval → List Interval
  | [] => [cur]
  -- they touch if no integer lies between them
  | r :: rest => if r.1 ≤ cur.2 + 1 then mergeInto (cur.1, max cur.2 r.2) rest else cur :: mergeInto r rest

def mergeIntervals (rs : List Interval) : List Interval :=
  match rs.insertionSort LexLE with
  | [] => []
  | r :: rest => mergeInto r rest

variable {rs : List Interval} {cur : Interval}

theorem coveredBy_cons {r : Interval} {x : Int} : CoveredBy (r :: rs) x ↔ (r.1 ≤ x ∧ x ≤ r.2) ∨ CoveredBy rs x := by
  unfold CoveredBy
  rw [List.exists_mem_cons_iff]

/-- The union is kept, if the intervals come in order. -/
theorem coveredBy_mergeInto (hsorted : (cur :: rs).Pairwise fun a b => a.1 ≤ b.1) {x : Int} :
    CoveredBy (mergeInto cur rs) x ↔ CoveredBy (cur :: rs) x := by
  induction rs generalizing cur with
  | nil => rfl
  | cons r rs ih =>
    obtain ⟨hcur, hrest⟩ := List.pairwise_cons.1 hsorted
    have hle : cur.1 ≤ r.1 := hcur r List.mem_cons_self
    rw [mergeInto]
    split
    · rename_i htouch
      have hsorted' : ((cur.1, max cur.2 r.2) :: rs).Pairwise fun a b : Interval => a.1 ≤ b.1 :=
        List.pairwise_cons.2 ⟨fun b hb => hcur b (List.mem_cons_of_mem _ hb), (List.pairwise_cons.1 hrest).2⟩
      rw [ih hsorted', coveredBy_cons, coveredBy_cons, coveredBy_cons, ← or_assoc]
      refine or_congr_left ?_
      -- no integer lies between two intervals that touch
      dsimp only
      rw [le_max_iff]
      omega
    · rw [coveredBy_cons, ih hrest, ← coveredBy_cons]

/-- What is merged in order is apart, and begins no earlier than the current interval. -/
theorem apart_mergeInto (hsorted : (cur :: rs).Pairwise fun a b => a.1 ≤ b.1) :
    Apart (mergeInto cur rs) ∧ ∀ r ∈ mergeInto cur rs, cur.1 ≤ r.1 := by
  induction rs generalizing cur with
  | nil => exact ⟨List.pairwise_singleton _ _, fun r hr => by rw [List.mem_singleton.1 hr]⟩
  | cons r rs ih =>
    obtain ⟨hcur, hrest⟩ := List.pairwise_cons.1 hsorted
    have hle : cur.1 ≤ r.1 := hcur r List.mem_cons_self
    rw [mergeInto]
    split
    · exact @ih (cur.1, max cur.2 r.2)
        (List.pairwise_cons.2 ⟨fun b hb => hcur b (List.mem_cons_of_mem _ hb), (List.pairwise_cons.1 hrest).2⟩)
    · rename_i hgap
      obtain ⟨hapart, hfrom⟩ := ih hrest
      -- `cur` is done: all that is merged behind it begins at `r` or later
      refine ⟨List.pairwise_cons.2 ⟨fun b hb => ?_, hapart⟩, fun b hb => ?_⟩
      · have hb := hfrom b hb
        omega
      · rcases List.mem_cons.1 hb with rfl | hb
        · exact le_rfl
        · exact hle.trans (hfrom b hb)

/-- A merged interval begins where one of the intervals does, and ends where one does. -/
theorem mem_mergeInto {r : Interval} (h : r ∈ mergeInto cur rs) :
    (∃ a ∈ cur :: rs, r.1 = a.1) ∧ (∃ b ∈ cur :: rs, r.2 = b.2) := by
  induction rs generalizing cur with
  | nil =>
    obtain rfl := List.mem_singleton.1 h
    exact ⟨⟨_, List.mem_cons_self, rfl⟩, ⟨_, List.mem_cons_self, rfl⟩⟩
  | cons s rs ih =>
    rw [mergeInto] at h
    split at h
    · obtain ⟨⟨a, ha, hlo⟩, b, hb, hhi⟩ := ih h
      constructor
      · rcases List.mem_cons.1 ha with rfl | ha
        · exact ⟨cur, List.mem_cons_self, hlo⟩
        · exact ⟨a, List.mem_cons_of_mem _ (List.mem_cons_of_mem _ ha), hlo⟩
      · rcases List.mem_cons.1 hb with rfl | hb
        · -- the joined interval ends where the longer of the two does
          rcases max_choice cur.2 s.2 with hmax | hmax
          · exact ⟨cur, List.mem_cons_self, hhi.trans hmax⟩
          · exact ⟨s, List.mem_cons_of_mem _ List.mem_cons_self, hhi.trans hmax⟩
        · exact ⟨b, List.mem_cons_of_mem _ (List.mem_cons_of_mem _ hb), hhi⟩
    · rcases List.mem_cons.1 h with rfl | h
      · exact ⟨⟨_, List.mem_cons_self, rfl⟩, ⟨_, List.mem_cons_self, rfl⟩⟩
      · obtain ⟨⟨a, ha, hlo⟩, b, hb, hhi⟩ := ih h
        exact ⟨⟨a, List.mem_cons_of_mem _ ha, hlo⟩, b, List.mem_cons_of_mem _ hb, hhi⟩

/-- Merging leaves no interval empty, if none was. -/
theorem nonempty_mergeInto (hne : ∀ r ∈ cur :: rs, r.1 ≤ r.2) : ∀ r ∈ mergeInto cur rs, r.1 ≤ r.2 := by
  induction rs generalizing cur with
  | nil => exact hne
  | cons s rs ih =>
    rw [mergeInto]
    split
    · refine ih fun r hr => ?_
      rcases List.mem_cons.1 hr with rfl | hr
      · exact (hne cur List.mem_cons_self).trans (le_max_left _ _)
      · exact hne r (List.mem_cons_of_mem _ (List.mem_cons_of_mem _ hr))
    · intro r hr
      rcases List.mem_cons.1 hr with rfl | hr
      · exact hne _ List.mem_cons_self
      · exact ih (fun r hr => hne r (List.mem_cons_of_mem _ hr)) r hr

theorem sorted_of_insertionSort {r : Interval} {rest : List Interval} (h : rs.insertionSort LexLE = r :: rest) :
    (r :: rest).Pairwise fun a b => a.1 ≤ b.1 := by
  rw [← h]
  exact (List.pairwise_insertionSort LexLE rs).imp fun h => h.fst_le

/-- **The union is kept.** -/
theorem coveredBy_mergeIntervals {x : Int} : CoveredBy (mergeIntervals rs) x ↔ CoveredBy rs x := by
  have hperm : ∀ r, r ∈ rs.insertionSort LexLE ↔ r ∈ rs := fun r => List.mem_insertionSort _
  -- sorting does not change the union
  have hcovered : CoveredBy (rs.insertionSort LexLE) x ↔ CoveredBy rs x :=
    exists_congr fun r => and_congr_left' (hperm r)
  rw [← hcovered, mergeIntervals]
  cases hsort : rs.insertionSort LexLE with
  | nil => rfl
  | cons r rest => exact coveredBy_mergeInto (sorted_of_insertionSort hsort)

/-- **What is merged is apart.** -/
theorem apart_mergeIntervals (rs : List Interval) : Apart (mergeIntervals rs) := by
  rw [mergeIntervals]
  cases hsort : rs.insertionSort LexLE with
  | nil => exact List.Pairwise.nil
  | cons r rest => exact (apart_mergeInto (sorted_of_insertionSort hsort)).1

theorem mem_mergeIntervals {r : Interval} (h : r ∈ mergeIntervals rs) :
    (∃ a ∈ rs, r.1 = a.1) ∧ (∃ b ∈ rs, r.2 = b.2) := by
  have hperm : ∀ r, r ∈ rs.insertionSort LexLE ↔ r ∈ rs := fun r => List.mem_insertionSort _
  rw [mergeIntervals] at h
  cases hsort : rs.insertionSort LexLE with
  | nil =>
    rw [hsort] at h
    cases h
  | cons s rest =>
    rw [hsort] at h
    obtain ⟨⟨a, ha, hlo⟩, b, hb, hhi⟩ := mem_mergeInto h
    rw [← hsort, hperm] at ha hb
    exact ⟨⟨a, ha, hlo⟩, b, hb, hhi⟩

theorem nonempty_mergeIntervals (hne : ∀ r ∈ rs, r.1 ≤ r.2) : ∀ r ∈ mergeIntervals rs, r.1 ≤ r.2 := by
  have hsorted : ∀ r ∈ rs.insertionSort LexLE, r.1 ≤ r.2 := fun r hr => hne r ((List.mem_insertionSort _).1 hr)
  rw [mergeIntervals]
  cases hsort : rs.insertionSort LexLE with
  | nil => exact List.forall_mem_nil _
  | cons r rest =>
    rw [hsort] at hsorted
    exact nonempty_mergeInto hsorted

end Lib
end RobotsixMill
