import Mathlib.Data.List.Dedup
import Mathlib.Logic.Relation

/-!
# `Lib.CommitDag` — commits and their histories

A commit names its parents, and a height drops along parent links, so that no commit is its own ancestor.
`history c` lists `c` and its ancestors, by recursion on the height; `range base tip` is what the history
of `tip` has over the one of `base`.

- `mem_history_iff` — the history of a commit is what parent links lead to;
- `history_subset` — an ancestor's history is part of the history;
- `mem_range` — membership in a range.
-/

namespace RobotsixMill
namespace Lib

/-- A graph of commits. -/
structure CommitDag (κ : Type*) where
  parents : κ → List κ
  height : κ → Nat
  /-- A parent is older. -/
  height_lt : ∀ {c p : κ}, p ∈ parents c → height p < height c

namespace CommitDag

variable {κ : Type*} (g : CommitDag κ)

/-- A commit and what up to `n` parent links lead to. -/
def historyTo : Nat → κ → List κ
  | 0, c => [c]
  | n + 1, c => c :: (g.parents c).flatMap (historyTo n)

/-- A commit and its ancestors. -/
def history (c : κ) : List κ := g.historyTo (g.height c) c

/-- The commits of `tip` that are not in the history of `base`. -/
def range [DecidableEq κ] (base tip : κ) : List κ :=
  (g.history tip).dedup.filter fun c => c ∉ g.history base

/-- `git merge-base --is-ancestor a b`. -/
def isAncestor [DecidableEq κ] (a b : κ) : Bool := decide (a ∈ g.history b)

variable {g}

theorem mem_historyTo_of_leads {n : Nat} {c a : κ} (hn : g.height c ≤ n)
    (h : Relation.ReflTransGen (fun x p => p ∈ g.parents x) c a) : a ∈ g.historyTo n c := by
  induction n generalizing c with
  | zero =>
      rcases Relation.ReflTransGen.cases_head h with rfl | ⟨p, hp, -⟩
      · exact List.mem_singleton_self c
      · have := g.height_lt hp
        omega
  | succ n ih =>
      rw [historyTo]
      rcases Relation.ReflTransGen.cases_head h with rfl | ⟨p, hp, hrest⟩
      · exact List.mem_cons_self
      · have hlt := g.height_lt hp
        refine List.mem_cons_of_mem c (List.mem_flatMap.2 ⟨p, hp, ?_⟩)
        exact ih (by omega) hrest

theorem leads_of_mem_historyTo {n : Nat} {c a : κ} (h : a ∈ g.historyTo n c) :
    Relation.ReflTransGen (fun x p => p ∈ g.parents x) c a := by
  induction n generalizing c with
  | zero =>
      rw [historyTo, List.mem_singleton] at h
      rw [h]
  | succ n ih =>
      rw [historyTo] at h
      rcases List.mem_cons.1 h with rfl | h
      · exact .refl
      · obtain ⟨p, hp, ha⟩ := List.mem_flatMap.1 h
        exact .head hp (ih ha)

/-- **The history is what parent links lead to.** -/
theorem mem_history_iff {c a : κ} :
    a ∈ g.history c ↔ Relation.ReflTransGen (fun x p => p ∈ g.parents x) c a :=
  ⟨leads_of_mem_historyTo, mem_historyTo_of_leads (Nat.le_refl _)⟩

theorem self_mem_history (c : κ) : c ∈ g.history c := mem_history_iff.2 .refl

/-- The history of an ancestor is part of the history. -/
theorem history_subset {c a : κ} (h : a ∈ g.history c) : g.history a ⊆ g.history c := by
  intro b hb
  rw [mem_history_iff] at h hb ⊢
  exact h.trans hb

variable [DecidableEq κ]

theorem mem_range {base tip c : κ} : c ∈ g.range base tip ↔ c ∈ g.history tip ∧ c ∉ g.history base := by
  rw [range, List.mem_filter, List.mem_dedup, decide_eq_true_iff]

@[simp] theorem isAncestor_iff {a b : κ} : g.isAncestor a b = true ↔ a ∈ g.history b := by
  rw [isAncestor, decide_eq_true_iff]

end CommitDag
end Lib
end RobotsixMill
