import RobotsixMill.Lib.Acyclic
import Mathlib.Data.List.Sort
import Mathlib.Order.Extension.Linear

/-!
# `Lib.TopologicalOrder` — orders of the vertices of a graph

An edge `r a b` says that `b` has to come before `a`.

- `Topological r nodes order` — the order lists every vertex once, and no vertex before one it has an edge to;
- `exists_topological` — an acyclic graph has such an order;
- `topological_forces_iff` — two vertices stand one before the other in all of them exactly if a path leads from the
  later one to the earlier one.
-/

namespace RobotsixMill
namespace Lib
open Relation

variable {α : Type*} {r : α → α → Prop} {nodes order : List α}

/-- There is a cycle. -/
def Cyclic (r : α → α → Prop) : Prop := ∃ a, TransGen r a a

theorem not_cyclic_iff : ¬Cyclic r ↔ Acyclic r := not_exists

/-- With one more edge `r b a`, a path that is not an old one goes over it. -/
theorem transGen_addEdge {a b x y : α} (h : TransGen (fun u v => r u v ∨ (u = b ∧ v = a)) x y) :
    TransGen r x y ∨ (ReflTransGen r x b ∧ ReflTransGen r a y) := by
  induction h with
  | single hedge =>
    rcases hedge with hold | ⟨rfl, rfl⟩
    · exact .inl (.single hold)
    · exact .inr ⟨.refl, .refl⟩
  | tail _ hedge ih =>
    rcases hedge with hold | ⟨rfl, rfl⟩
    · rcases ih with hpath | ⟨hxb, hay⟩
      · exact .inl (hpath.tail hold)
      · exact .inr ⟨hxb, hay.tail hold⟩
    · rcases ih with hpath | ⟨hxb, _⟩
      · exact .inr ⟨hpath.to_reflTransGen, .refl⟩
      · exact .inr ⟨hxb, .refl⟩

/-- An edge that no path runs against closes no cycle. -/
theorem Acyclic.addEdge {a b : α} (h : Acyclic r) (hab : a ≠ b) (hpath : ¬TransGen r a b) :
    Acyclic fun u v => r u v ∨ (u = b ∧ v = a) := by
  intro x hx
  rcases transGen_addEdge hx with hold | ⟨hxb, hax⟩
  · exact h x hold
  · rcases reflTransGen_iff_eq_or_transGen.1 (hax.trans hxb) with heq | hlong
    · exact hab heq.symm
    · exact hpath hlong

variable [DecidableEq α]

/-- The order lists every vertex once, each after those it has an edge to. -/
structure Topological (r : α → α → Prop) (nodes order : List α) : Prop where
  nodup : order.Nodup
  mem : ∀ a, a ∈ order ↔ a ∈ nodes
  before : ∀ a b, r a b → order.idxOf b < order.idxOf a

theorem Topological.before_of_path (h : Topological r nodes order) {a b : α} (hpath : TransGen r a b) :
    order.idxOf b < order.idxOf a := by
  induction hpath with
  | single hedge => exact h.before _ _ hedge
  | tail _ hedge ih => exact (h.before _ _ hedge).trans ih

theorem Topological.acyclic (h : Topological r nodes order) : Acyclic r :=
  fun _ ha => lt_irrefl _ (h.before_of_path ha)

/-- An order of fewer edges. -/
theorem Topological.mono {r' : α → α → Prop} (h : Topological r nodes order) (hsub : ∀ a b, r' a b → r a b) :
    Topological r' nodes order where
  nodup := h.nodup
  mem := h.mem
  before a b hab := h.before a b (hsub a b hab)

/-- **An acyclic graph has an order.** -/
theorem exists_topological (h : Acyclic r) (hnodes : ∀ a b, r a b → a ∈ nodes ∧ b ∈ nodes) :
    ∃ order, Topological r nodes order := by
  classical
  -- the paths are a partial order, whose linear extension sorts the vertices
  let below : α → α → Prop := fun x y => ReflTransGen r y x
  have hantisymm : ∀ x y, below x y → below y x → x = y := by
    intro x y hxy hyx
    rcases reflTransGen_iff_eq_or_transGen.1 hxy with heq | hpath
    · exact heq
    · exact absurd (hpath.trans_left hyx) (h y)
  have hpartial : IsPartialOrder α below :=
    { refl := fun x => ReflTransGen.refl
      trans := fun x y z hxy hyz => hyz.trans hxy
      antisymm := hantisymm }
  obtain ⟨le, hlinear, hle⟩ := extend_partialOrder below
  have hsorted := List.pairwise_insertionSort le nodes.dedup
  have hperm := List.perm_insertionSort le nodes.dedup
  generalize List.insertionSort le nodes.dedup = order at hsorted hperm
  have hmem : ∀ a, a ∈ order ↔ a ∈ nodes := fun a => hperm.mem_iff.trans List.mem_dedup
  refine ⟨order, hperm.nodup_iff.2 nodes.nodup_dedup, hmem, fun a b hab => ?_⟩
  obtain ⟨ha, hb⟩ := hnodes a b hab
  have hne : a ≠ b := by
    rintro rfl
    exact h a (.single hab)
  by_contra hnot
  have hidx : order.idxOf a < order.idxOf b := by
    refine lt_of_le_of_ne (not_lt.1 hnot) fun heq => hne ?_
    exact (List.idxOf_inj ((hmem a).2 ha)).1 heq
  have hlast := List.idxOf_lt_length_iff.2 ((hmem b).2 hb)
  have hab' := List.pairwise_iff_getElem.1 hsorted _ _ (hidx.trans hlast) hlast hidx
  rw [List.getElem_idxOf, List.getElem_idxOf] at hab'
  exact hne (hlinear.antisymm a b hab' (hle b a (.single hab)))

/-- **The pairs that every order lists one way round.** -/
theorem topological_forces_iff (h : Acyclic r) (hnodes : ∀ a b, r a b → a ∈ nodes ∧ b ∈ nodes) {a b : α}
    (ha : a ∈ nodes) (hb : b ∈ nodes) (hab : a ≠ b) :
    (∀ order, Topological r nodes order → order.idxOf b < order.idxOf a) ↔ TransGen r a b := by
  constructor
  · intro hforced
    by_contra hpath
    have hends : ∀ u v, (r u v ∨ (u = b ∧ v = a)) → u ∈ nodes ∧ v ∈ nodes := by
      intro u v huv
      rcases huv with hold | ⟨rfl, rfl⟩
      · exact hnodes u v hold
      · exact ⟨hb, ha⟩
    obtain ⟨order, horder⟩ := exists_topological (h.addEdge hab hpath) hends
    have hforward := horder.before b a (.inr ⟨rfl, rfl⟩)
    exact lt_asymm hforward (hforced order (horder.mono fun u v huv => .inl huv))
  · exact fun hpath order horder => horder.before_of_path hpath

end Lib
end RobotsixMill
