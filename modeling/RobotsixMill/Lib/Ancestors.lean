import Mathlib.Data.List.Basic
import Mathlib.Data.List.Nodup
import Mathlib.Data.List.Perm.Subperm
import Mathlib.Logic.Relation

/-!
# `Lib.Ancestors` — up and down along parent links

`climb` follows parent links upwards until it meets a key with the sought property, with a list of the
keys seen before as the guard against cycles and a fuel for the recursion. `Climbs` is what it decides:

- `climbs_of_climb`: what the walk finds is an ancestor;
- `climb_of_climbs`: with fuel for every key that has a parent it misses none.

`chainEnd` follows the links to the last key, within a number of steps; no cycle has one.

`collectBelow` lists what lies below a key, breadth first. It needs one unit of fuel for each key it
lists (`collectBelow_fuel`), and where every key has one parent it lists each key once
(`nodup_collectBelow`).
-/

namespace RobotsixMill
namespace Lib

variable {κ : Type*} (parent : κ → Option κ) (goal : κ → Bool)

/-- Walk upwards from a key; a key seen before ends the walk. -/
def climb [DecidableEq κ] : Nat → List κ → Option κ → Bool
  | 0, _, _ => false
  | _ + 1, _, none => false
  | fuel + 1, seen, some k =>
    if k ∈ seen then false
    else if goal k then true
    else climb fuel (k :: seen) (parent k)

/-- `ClimbsIn n k`: the nearest goal at or above `k` is `n` links up. -/
inductive ClimbsIn : Nat → κ → Prop
  | here {k : κ} : goal k = true → ClimbsIn 0 k
  | up {n : Nat} {k p : κ} : goal k = false → parent k = some p → ClimbsIn n p → ClimbsIn (n + 1) k

/-- Some goal lies at or above `k`. -/
def Climbs (k : κ) : Prop := ∃ n, ClimbsIn parent goal n k

variable {parent goal}

/-- The distance to the nearest goal is determined. -/
theorem ClimbsIn.unique {n m : Nat} {k : κ} (h : ClimbsIn parent goal n k)
    (h' : ClimbsIn parent goal m k) : n = m := by
  induction h generalizing m with
  | here hg =>
      cases h' with
      | here _ => rfl
      | up hg' _ _ => rw [hg] at hg'; cases hg'
  | up hg hp _ ih =>
      cases h' with
      | here hg' => rw [hg] at hg'; cases hg'
      | up _ hp' h'' =>
          rw [hp] at hp'
          cases hp'
          rw [ih h'']

/-- The keys below the nearest goal are as many as the distance, all different, and all have parents. -/
theorem ClimbsIn.exists_path {n : Nat} {k : κ} (h : ClimbsIn parent goal n k) :
    ∃ path : List κ, path.length = n ∧ path.Nodup ∧ ∀ x ∈ path, parent x ≠ none := by
  have key : ∃ path : List κ, path.length = n ∧ path.Nodup ∧
      ∀ x ∈ path, parent x ≠ none ∧ ∃ m ≤ n, ClimbsIn parent goal m x := by
    induction h with
    | here _ => exact ⟨[], rfl, List.nodup_nil, by simp⟩
    | @up n k p hg hp hclimb ih =>
        obtain ⟨path, hlen, hnd, hpath⟩ := ih
        have hk : ClimbsIn parent goal (n + 1) k := .up hg hp hclimb
        refine ⟨k :: path, by simp [hlen], List.nodup_cons.2 ⟨?_, hnd⟩, ?_⟩
        · -- `k` is farther from the goal than every key of the path
          intro hmem
          obtain ⟨-, m, hm, hcl⟩ := hpath k hmem
          have := hk.unique hcl
          omega
        · intro x hx
          rcases List.mem_cons.1 hx with rfl | hx
          · exact ⟨by simp [hp], n + 1, Nat.le_refl _, hk⟩
          · obtain ⟨hpar, m, hm, hcl⟩ := hpath x hx
            exact ⟨hpar, m, by omega, hcl⟩
  obtain ⟨path, hlen, hnd, hpath⟩ := key
  exact ⟨path, hlen, hnd, fun x hx => (hpath x hx).1⟩

/-- The distance is bounded by any list of the keys that have parents. -/
theorem ClimbsIn.le_length {n : Nat} {k : κ} (h : ClimbsIn parent goal n k) {S : List κ}
    (hS : ∀ x, parent x ≠ none → x ∈ S) : n ≤ S.length := by
  obtain ⟨path, hlen, hnd, hpath⟩ := h.exists_path
  have hsub : path ⊆ S := fun x hx => hS x (hpath x hx)
  rw [← hlen]
  exact (List.subperm_of_subset hnd hsub).length_le

section Walk

variable [DecidableEq κ]

/-- **Soundness of the walk.** -/
theorem climbs_of_climb {fuel : Nat} {seen : List κ} {k : κ}
    (h : climb parent goal fuel seen (some k) = true) : Climbs parent goal k := by
  induction fuel generalizing seen k with
  | zero => cases h
  | succ fuel ih =>
      unfold climb at h
      split at h
      · cases h
      · by_cases hg : goal k = true
        · exact ⟨0, .here hg⟩
        · rw [if_neg hg] at h
          have hg' : goal k = false := by simpa using hg
          cases hp : parent k with
          | none =>
              rw [hp] at h
              cases fuel <;> cases h
          | some p =>
              rw [hp] at h
              obtain ⟨n, hn⟩ := ih h
              exact ⟨n + 1, .up hg' hp hn⟩

/-- The walk finds a goal `n` links up if it has fuel for them and has seen only keys farther off. -/
theorem climb_of_climbsIn {n fuel : Nat} {seen : List κ} {k : κ} (h : ClimbsIn parent goal n k)
    (hfuel : n < fuel) (hseen : ∀ s ∈ seen, ∀ m, ClimbsIn parent goal m s → n < m) :
    climb parent goal fuel seen (some k) = true := by
  induction h generalizing fuel seen with
  | @here k hg =>
      obtain ⟨fuel, rfl⟩ : ∃ f, fuel = f + 1 := ⟨fuel - 1, by omega⟩
      have hk : k ∉ seen := by
        intro hk
        have := hseen k hk 0 (.here hg)
        omega
      unfold climb
      rw [if_neg hk, if_pos hg]
  | @up n k p hg hp hclimb ih =>
      obtain ⟨fuel, rfl⟩ : ∃ f, fuel = f + 1 := ⟨fuel - 1, by omega⟩
      have hself : ClimbsIn parent goal (n + 1) k := .up hg hp hclimb
      have hk : k ∉ seen := by
        intro hk
        have := hseen k hk (n + 1) hself
        omega
      unfold climb
      rw [if_neg hk, if_neg (by simp [hg]), hp]
      refine ih (by omega) ?_
      intro s hs m hm
      rcases List.mem_cons.1 hs with rfl | hs
      · have := hself.unique hm
        omega
      · have := hseen s hs m hm
        omega

/-- **Completeness of the walk** from the parent `p` of a key `c` that is no goal itself. -/
theorem climb_of_climbs {S : List κ} (hS : ∀ x, parent x ≠ none → x ∈ S) {c p : κ}
    (hc : goal c = false) (hp : parent c = some p) (h : Climbs parent goal p) :
    climb parent goal (S.length + 1) [c] (some p) = true := by
  obtain ⟨n, hn⟩ := h
  refine climb_of_climbsIn hn (Nat.lt_succ_of_le (hn.le_length hS)) ?_
  intro s hs m hm
  rw [List.mem_singleton] at hs
  subst hs
  have := (ClimbsIn.up hc hp hn).unique hm
  omega

end Walk

/-! ## The end of a chain -/

/-- The key without a parent at most `n` links up. -/
def chainEnd (parent : κ → Option κ) : Nat → κ → Option κ
  | n, k =>
    match n, parent k with
    | _, none => some k
    | 0, some _ => none
    | n + 1, some p => chainEnd parent n p

theorem chainEnd_of_none {n : Nat} {k : κ} (h : parent k = none) : chainEnd parent n k = some k := by
  unfold chainEnd
  cases n <;> simp [h]

theorem chainEnd_zero_of_some {k p : κ} (h : parent k = some p) : chainEnd parent 0 k = none := by
  simp [chainEnd, h]

theorem chainEnd_succ_of_some {n : Nat} {k p : κ} (h : parent k = some p) :
    chainEnd parent (n + 1) k = chainEnd parent n p := by
  conv_lhs => unfold chainEnd
  simp [h]

/-- A key on a cycle has no end. -/
theorem chainEnd_of_cycle {k : κ} (h : Relation.TransGen (fun a b => parent a = some b) k k) (n : Nat) :
    chainEnd parent n k = none := by
  induction n generalizing k with
  | zero =>
      obtain ⟨p, hp, -⟩ := Relation.TransGen.head'_iff.1 h
      exact chainEnd_zero_of_some hp
  | succ n ih =>
      obtain ⟨p, hp, hback⟩ := Relation.TransGen.head'_iff.1 h
      rw [chainEnd_succ_of_some hp]
      exact ih (Relation.TransGen.tail'_iff.2 ⟨k, hback, hp⟩)

/-- The end of a chain is reached by its links. -/
theorem reach_of_chainEnd {n : Nat} {k e : κ} (h : chainEnd parent n k = some e) :
    Relation.ReflTransGen (fun a b => parent a = some b) k e := by
  induction n generalizing k with
  | zero =>
      cases hp : parent k with
      | none => rw [chainEnd_of_none hp] at h; exact Option.some.inj h ▸ .refl
      | some p => rw [chainEnd_zero_of_some hp] at h; cases h
  | succ n ih =>
      cases hp : parent k with
      | none => rw [chainEnd_of_none hp] at h; exact Option.some.inj h ▸ .refl
      | some p =>
          rw [chainEnd_succ_of_some hp] at h
          exact .head hp (ih h)

/-- Links that agree along a chain lead to the same end. -/
theorem chainEnd_congr {next : κ → Option κ} {n : Nat} {k : κ}
    (h : ∀ t, Relation.ReflTransGen (fun a b => parent a = some b) k t → next t = parent t) :
    chainEnd next n k = chainEnd parent n k := by
  induction n generalizing k with
  | zero =>
      have hk := h k .refl
      cases hp : parent k with
      | none => rw [chainEnd_of_none hp, chainEnd_of_none (hk.trans hp)]
      | some p => rw [chainEnd_zero_of_some hp, chainEnd_zero_of_some (hk.trans hp)]
  | succ n ih =>
      have hk := h k .refl
      cases hp : parent k with
      | none => rw [chainEnd_of_none hp, chainEnd_of_none (hk.trans hp)]
      | some p =>
          rw [chainEnd_succ_of_some hp, chainEnd_succ_of_some (hk.trans hp)]
          exact ih fun t ht => h t (.head hp ht)

/-! ## Collecting what lies below -/

section Below

variable (children : κ → List κ)

/-- The growing list of a breadth-first search: `queue` is the part of `found` that is yet to be
    expanded. -/
def collectBelow : Nat → List κ → List κ → Option (List κ)
  | _, found, [] => some found
  | 0, _, _ :: _ => none
  | fuel + 1, found, k :: queue => collectBelow fuel (found ++ children k) (queue ++ children k)

/-- `x` lies at or below `root`. -/
inductive Below (root : κ) : κ → Prop
  | root : Below root root
  | child {p x : κ} : Below root p → x ∈ children p → Below root x

variable {children}

/-- What is listed after the start is the children of what was queued and of what is listed. -/
theorem collectBelow_eq {fuel : Nat} {found queue res : List κ}
    (h : collectBelow children fuel found queue = some res) :
    ∃ ext, res = found ++ ext ∧ ext = (queue ++ ext).flatMap children := by
  induction fuel generalizing found queue with
  | zero =>
      cases queue with
      | nil => cases h; exact ⟨[], by simp, rfl⟩
      | cons k queue => cases h
  | succ fuel ih =>
      cases queue with
      | nil => cases h; exact ⟨[], by simp, rfl⟩
      | cons k queue =>
          obtain ⟨ext, rfl, hext⟩ := ih h
          refine ⟨children k ++ ext, by simp, ?_⟩
          rw [List.cons_append, List.flatMap_cons, ← List.append_assoc queue, ← hext]

/-- One unit of fuel for each key that is expanded is enough. -/
theorem collectBelow_fuel {fuel fuel' : Nat} {found queue ext : List κ}
    (h : collectBelow children fuel found queue = some (found ++ ext))
    (hfuel : queue.length + ext.length ≤ fuel') :
    collectBelow children fuel' found queue = some (found ++ ext) := by
  induction fuel generalizing fuel' found queue ext with
  | zero =>
      cases queue with
      | nil => cases fuel' <;> exact h
      | cons k queue => cases h
  | succ fuel ih =>
      cases queue with
      | nil => cases fuel' <;> exact h
      | cons k queue =>
          have hrest : collectBelow children fuel (found ++ children k) (queue ++ children k) =
              some (found ++ ext) := h
          obtain ⟨ext', heq, -⟩ := collectBelow_eq hrest
          have hext : ext = children k ++ ext' := by
            rw [List.append_assoc] at heq
            exact List.append_cancel_left heq
          subst hext
          rw [List.length_cons, List.length_append] at hfuel
          obtain ⟨f, rfl⟩ : ∃ f, fuel' = f + 1 := ⟨fuel' - 1, by omega⟩
          have hstep : collectBelow children f (found ++ children k) (queue ++ children k) =
              some (found ++ children k ++ ext') := by
            refine ih ?_ ?_
            · rw [List.append_assoc]
              exact hrest
            · rw [List.length_append]
              omega
          rw [List.append_assoc] at hstep
          exact hstep

/-- Everything listed lies below the root. -/
theorem below_of_collectBelow {root : κ} {fuel : Nat} {found queue res : List κ}
    (h : collectBelow children fuel found queue = some res) (hfound : ∀ x ∈ found, Below children root x)
    (hqueue : ∀ x ∈ queue, Below children root x) : ∀ x ∈ res, Below children root x := by
  induction fuel generalizing found queue with
  | zero =>
      cases queue with
      | nil => cases h; exact hfound
      | cons k queue => cases h
  | succ fuel ih =>
      cases queue with
      | nil => cases h; exact hfound
      | cons k queue =>
          have hchild : ∀ x ∈ children k, Below children root x :=
            fun x hx => .child (hqueue k List.mem_cons_self) hx
          refine ih h ?_ ?_
          · intro x hx
            exact (List.mem_append.1 hx).elim (hfound x) (hchild x)
          · intro x hx
            exact (List.mem_append.1 hx).elim (fun hx => hqueue x (List.mem_cons_of_mem _ hx)) (hchild x)

/-- **The search lists exactly what lies at or below its root.** -/
theorem mem_collectBelow {root : κ} {fuel : Nat} {res : List κ}
    (h : collectBelow children fuel [root] [root] = some res) {x : κ} :
    x ∈ res ↔ Below children root x := by
  constructor
  · intro hx
    have hstart : ∀ y ∈ [root], Below children root y := by
      intro y hy
      rw [List.mem_singleton.1 hy]
      exact .root
    exact below_of_collectBelow h hstart hstart x hx
  · intro hx
    obtain ⟨ext, rfl, hext⟩ := collectBelow_eq h
    induction hx with
    | root => exact List.mem_append_left _ (List.mem_singleton_self root)
    | child _ hchild ih =>
        -- the children of what is listed are listed
        apply List.mem_append_right
        rw [hext]
        exact List.mem_flatMap.2 ⟨_, ih, hchild⟩

section Count

variable [DecidableEq κ]

/-- With one parent for each key, a key occurs among the children of a list as often as its parent
    occurs in the list. -/
theorem count_flatMap_children (hnd : ∀ k, (children k).Nodup)
    (hpar : ∀ x p q, x ∈ children p → x ∈ children q → p = q) {x p : κ} (hx : x ∈ children p)
    (l : List κ) : (l.flatMap children).count x = l.count p := by
  induction l with
  | nil => rfl
  | cons y l ih =>
      rw [List.flatMap_cons, List.count_append, ih, List.count_cons]
      by_cases hy : y = p
      · subst hy
        rw [List.count_eq_one_of_mem (hnd y) hx]
        simp [Nat.add_comm]
      · have hnot : x ∉ children y := fun h => hy (hpar x y p h hx)
        rw [List.count_eq_zero_of_not_mem hnot]
        simp [hy]

/-- **Each key is listed once**, unless the search runs into a cycle and does not end. -/
theorem nodup_collectBelow (hnd : ∀ k, (children k).Nodup)
    (hpar : ∀ x p q, x ∈ children p → x ∈ children q → p = q) {root : κ} {fuel : Nat} {res : List κ}
    (h : collectBelow children fuel [root] [root] = some res) : res.Nodup := by
  have hstart : ∀ x ∈ [root], Below children root x := by
    intro x hx
    rw [List.mem_singleton] at hx
    subst hx
    exact .root
  have hbelow := below_of_collectBelow h hstart hstart
  obtain ⟨ext, hres, hext⟩ := collectBelow_eq h
  have hcount : ∀ x, res.count x = (if root = x then 1 else 0) + (res.flatMap children).count x := by
    intro x
    have : res = root :: res.flatMap children := by
      rw [← hres] at hext
      rw [← hext, hres]
      rfl
    conv_lhs => rw [this, List.count_cons]
    by_cases hx : root = x <;> simp [hx, Nat.add_comm]
  have hall : ∀ x, Below children root x → res.count x = res.count root := by
    intro x hx
    induction hx with
    | root => rfl
    | @child p x _ hx ih =>
        by_cases hroot : root = x
        · rw [hroot]
        · rw [hcount x, if_neg hroot, count_flatMap_children hnd hpar hx, ih, Nat.zero_add]
  -- a root that occurred among its descendants would occur once more than it does
  have hroot : res.count root = 1 := by
    by_cases hp : ∃ p, root ∈ children p
    · obtain ⟨p, hp⟩ := hp
      have heq := hcount root
      rw [if_pos rfl, count_flatMap_children hnd hpar hp] at heq
      by_cases hmem : p ∈ res
      · rw [hall p (hbelow p hmem)] at heq
        omega
      · rw [List.count_eq_zero_of_not_mem hmem] at heq
        exact heq
    · have hnot : root ∉ res.flatMap children := by
        intro hmem
        obtain ⟨p, -, hp'⟩ := List.mem_flatMap.1 hmem
        exact hp ⟨p, hp'⟩
      rw [hcount root, if_pos rfl, List.count_eq_zero_of_not_mem hnot]
  rw [List.nodup_iff_count_le_one]
  intro x
  by_cases hx : x ∈ res
  · exact Nat.le_of_eq ((hall x (hbelow x hx)).trans hroot)
  · rw [List.count_eq_zero_of_not_mem hx]
    exact Nat.zero_le 1

end Count

end Below

end Lib
end RobotsixMill
