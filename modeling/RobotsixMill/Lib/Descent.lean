import RobotsixMill.Lib.Ancestors

/-!
# `Lib.Descent` — two breadth-first searches below a key

`collectBelow` keeps no list of the keys that it has seen. Where every key has one parent, the only key that it can meet
twice is its root, so that it ends unless the root lies below itself (`collectBelow_spec`, `collectBelow_of_cycle`).
`descend` keeps such a list and always ends (`descend_spec`).
-/

namespace RobotsixMill
namespace Lib

open Relation

variable {κ : Type*} {children : κ → List κ} {root : κ}

/-- The link from a key to its children. -/
def ChildOf (children : κ → List κ) (p c : κ) : Prop := c ∈ children p

theorem Below.reach {x : κ} (h : Below children root x) : ReflTransGen (ChildOf children) root x := by
  induction h with
  | root => exact .refl
  | child _ hchild ih => exact ih.tail hchild

theorem Below.of_reach {x : κ} (h : ReflTransGen (ChildOf children) root x) : Below children root x := by
  induction h with
  | refl => exact .root
  | tail _ hchild ih => exact .child ih hchild

theorem Below.cycle {p : κ} (h : Below children root p) (hroot : root ∈ children p) :
    TransGen (ChildOf children) root root := TransGen.tail' h.reach hroot

/-! ## Without a list of the keys seen -/

/-- The search has expanded `done` and still has `queue` to expand. -/
structure Expanding (children : κ → List κ) (root : κ) (done queue : List κ) : Prop where
  nodup : (done ++ queue).Nodup
  below : ∀ x ∈ done ++ queue, Below children root x
  origin : ∀ x ∈ done ++ queue, x = root ∨ ∃ p ∈ done, x ∈ children p
  closed : ∀ p ∈ done, ∀ c ∈ children p, c ∈ done ++ queue

theorem Expanding.start : Expanding children root [] [root] where
  nodup := List.nodup_singleton root
  below x hx := by
    rw [List.mem_singleton.1 hx]
    exact .root
  origin x hx := .inl (List.mem_singleton.1 hx)
  closed p hp := absurd hp List.not_mem_nil

section Expanding

variable {done queue : List κ} {k : κ} (hpar : ∀ x p q, x ∈ children p → x ∈ children q → p = q)
  (hcycle : ¬ TransGen (ChildOf children) root root)

include hpar hcycle

/-- The children of the next key are new. -/
theorem Expanding.fresh (h : Expanding children root done (k :: queue)) :
    ∀ c ∈ children k, c ∉ done ++ k :: queue := by
  intro c hc hmem
  have hk : k ∈ done ++ k :: queue := List.mem_append_right _ List.mem_cons_self
  rcases h.origin c hmem with rfl | ⟨p, hp, hcp⟩
  · exact hcycle ((h.below k hk).cycle hc)
  · -- the parent of `c` would be expanded a second time
    obtain rfl := hpar c p k hcp hc
    exact (List.nodup_append.1 h.nodup).2.2 p hp p List.mem_cons_self rfl

theorem Expanding.step (hnd : (children k).Nodup) (h : Expanding children root done (k :: queue)) :
    Expanding children root (done ++ [k]) (queue ++ children k) := by
  have heq : done ++ [k] ++ (queue ++ children k) = done ++ k :: queue ++ children k := by
    rw [List.append_assoc, List.append_assoc, List.singleton_append, List.cons_append]
  have hk : k ∈ done ++ k :: queue := List.mem_append_right _ List.mem_cons_self
  have hfresh := h.fresh hpar hcycle
  refine ⟨?_, ?_, ?_, ?_⟩
  · rw [heq]
    refine List.nodup_append.2 ⟨h.nodup, hnd, ?_⟩
    rintro a ha b hb rfl
    exact hfresh a hb ha
  · rw [heq]
    intro x hx
    rcases List.mem_append.1 hx with hx | hx
    · exact h.below x hx
    · exact .child (h.below k hk) hx
  · rw [heq]
    intro x hx
    rcases List.mem_append.1 hx with hx | hx
    · rcases h.origin x hx with rfl | ⟨p, hp, hxp⟩
      · exact .inl rfl
      · exact .inr ⟨p, List.mem_append_left _ hp, hxp⟩
    · exact .inr ⟨k, List.mem_append_right _ List.mem_cons_self, hx⟩
  · rw [heq]
    intro p hp c hc
    rcases List.mem_append.1 hp with hp | hp
    · exact List.mem_append_left _ (h.closed p hp c hc)
    · rw [List.mem_singleton.1 hp] at hc
      exact List.mem_append_right _ hc

/-- Expanding keeps parents in front of their children. -/
theorem Expanding.ordered_step [DecidableEq κ] (h : Expanding children root done (k :: queue))
    (hord : ∀ p ∈ done, ∀ c ∈ children p, (done ++ k :: queue).idxOf p < (done ++ k :: queue).idxOf c) :
    ∀ p ∈ done ++ [k], ∀ c ∈ children p,
      (done ++ k :: queue ++ children k).idxOf p < (done ++ k :: queue ++ children k).idxOf c := by
  have hk : k ∈ done ++ k :: queue := List.mem_append_right _ List.mem_cons_self
  intro p hp c hc
  rcases List.mem_append.1 hp with hp | hp
  · have hpmem : p ∈ done ++ k :: queue := List.mem_append_left _ hp
    rw [List.idxOf_append_of_mem hpmem, List.idxOf_append_of_mem (h.closed p hp c hc)]
    exact hord p hp c hc
  · obtain rfl := List.mem_singleton.1 hp
    rw [List.idxOf_append_of_mem hk, List.idxOf_append_of_notMem (h.fresh hpar hcycle c hc)]
    exact Nat.lt_of_lt_of_le (List.idxOf_lt_length_of_mem hk) (Nat.le_add_right ..)

/-- The search ends within one round for each key of a list that has all it can meet. -/
theorem Expanding.run [DecidableEq κ] (hnd : ∀ k, (children k).Nodup) {S : List κ}
    (hS : ∀ x, Below children root x → x ∈ S) {fuel : Nat} (h : Expanding children root done queue)
    (hord : ∀ p ∈ done, ∀ c ∈ children p, (done ++ queue).idxOf p < (done ++ queue).idxOf c)
    (hfuel : S.length ≤ fuel + done.length) :
    ∃ res, collectBelow children fuel (done ++ queue) queue = some res ∧ Expanding children root res [] ∧
      ∀ p ∈ res, ∀ c ∈ children p, res.idxOf p < res.idxOf c := by
  induction fuel generalizing done queue with
  | zero =>
    cases queue with
    | nil =>
      rw [List.append_nil] at hord ⊢
      exact ⟨done, rfl, h, hord⟩
    | cons k queue =>
      have hle := (List.subperm_of_subset h.nodup fun x hx => hS x (h.below x hx)).length_le
      rw [List.length_append, List.length_cons] at hle
      omega
  | succ fuel ih =>
    cases queue with
    | nil =>
      rw [List.append_nil] at hord ⊢
      exact ⟨done, rfl, h, hord⟩
    | cons k queue =>
      have heq : done ++ [k] ++ (queue ++ children k) = done ++ k :: queue ++ children k := by
        rw [List.append_assoc, List.append_assoc, List.singleton_append, List.cons_append]
      have hnext := h.ordered_step hpar hcycle hord
      rw [← heq] at hnext
      have hlen : (done ++ [k]).length = done.length + 1 := List.length_append
      obtain ⟨res, hres, hspec⟩ := ih (h.step hpar hcycle (hnd k)) hnext (by omega)
      rw [heq] at hres
      exact ⟨res, hres, hspec⟩

end Expanding

/-- **The search ends** if its root does not lie below itself, and lists parents before their children. -/
theorem collectBelow_spec [DecidableEq κ] (hnd : ∀ k, (children k).Nodup)
    (hpar : ∀ x p q, x ∈ children p → x ∈ children q → p = q)
    (hcycle : ¬ TransGen (ChildOf children) root root) {S : List κ} (hS : ∀ x, Below children root x → x ∈ S) :
    ∃ res, collectBelow children S.length [root] [root] = some res ∧
      ∀ p ∈ res, ∀ c ∈ children p, res.idxOf p < res.idxOf c := by
  obtain ⟨res, hres, -, hord⟩ := Expanding.start.run hpar hcycle hnd hS
    (fun p hp => absurd hp List.not_mem_nil) (Nat.le_add_right ..)
  exact ⟨res, hres, hord⟩

/-- **It does not end** if the root lies below itself. -/
theorem collectBelow_of_cycle [DecidableEq κ] (hnd : ∀ k, (children k).Nodup)
    (hpar : ∀ x p q, x ∈ children p → x ∈ children q → p = q)
    (hcycle : TransGen (ChildOf children) root root) (fuel : Nat) :
    collectBelow children fuel [root] [root] = none := by
  cases hres : collectBelow children fuel [root] [root] with
  | none => rfl
  | some res =>
    obtain ⟨p, hreach, hroot⟩ := TransGen.tail'_iff.1 hcycle
    have hp : p ∈ res := (mem_collectBelow hres).2 (.of_reach hreach)
    have hnodup := nodup_collectBelow hnd hpar hres
    obtain ⟨ext, rfl, hext⟩ := collectBelow_eq hres
    have hmem : root ∈ ext := by
      rw [hext]
      exact List.mem_flatMap.2 ⟨p, hp, hroot⟩
    exact absurd hmem (List.nodup_cons.1 hnodup).1

/-! ## With a list of the keys seen -/

/-- Where the search stands: the keys seen, those listed, and those to expand. -/
structure Visit (κ : Type*) where
  visited : List κ
  result : List κ
  queue : List κ

variable [DecidableEq κ]

/-- List the children that are new, and queue them. -/
def enqueueNew : List κ → Visit κ → Visit κ
  | [], s => s
  | child :: cs, s =>
    if child ∈ s.visited then enqueueNew cs s
    else enqueueNew cs ⟨child :: s.visited, s.result ++ [child], s.queue ++ [child]⟩

/-- The search; `none` when the fuel runs out. -/
def descend (children : κ → List κ) : Nat → Visit κ → Option (List κ)
  | 0, s =>
    match s.queue with
    | [] => some s.result
    | _ :: _ => none
  | fuel + 1, s =>
    match s.queue with
    | [] => some s.result
    | parent :: queue => descend children fuel (enqueueNew (children parent) { s with queue := queue })

/-- What holds between two rounds of the search, or while the children of a key are queued. -/
structure Descending (children : κ → List κ) (root : κ) (s : Visit κ) : Prop where
  nodup : s.visited.Nodup
  mem_iff : ∀ x, x ∈ s.visited ↔ x = root ∨ x ∈ s.result
  fresh : root ∉ s.result
  below : ∀ x ∈ s.visited, Below children root x
  queued : ∀ x ∈ s.queue, x ∈ s.visited

/-- What queueing children does to the lists. -/
structure Enqueued (cs : List κ) (s s' : Visit κ) : Prop where
  visited : ∀ x, x ∈ s'.visited ↔ x ∈ s.visited ∨ x ∈ cs
  queue : ∃ more, s'.queue = s.queue ++ more ∧ s'.visited.length = s.visited.length + more.length ∧
    ∀ x ∈ s'.visited, x ∈ s.visited ∨ x ∈ more

theorem enqueued_enqueueNew (cs : List κ) (s : Visit κ) : Enqueued cs s (enqueueNew cs s) := by
  induction cs generalizing s with
  | nil =>
    refine ⟨fun x => ?_, [], (List.append_nil _).symm, rfl, fun x hx => .inl hx⟩
    simp [enqueueNew]
  | cons child cs ih =>
    rw [enqueueNew]
    by_cases hmem : child ∈ s.visited
    · rw [if_pos hmem]
      refine ⟨fun x => ?_, (ih s).queue⟩
      rw [(ih s).visited, List.mem_cons]
      constructor
      · exact fun hx => hx.imp id .inr
      · rintro (hx | rfl | hx)
        · exact .inl hx
        · exact .inl hmem
        · exact .inr hx
    · rw [if_neg hmem]
      have h := ih ⟨child :: s.visited, s.result ++ [child], s.queue ++ [child]⟩
      obtain ⟨more, hqueue, hlength, hmore⟩ := h.queue
      refine ⟨fun x => ?_, child :: more, ?_, ?_, fun x hx => ?_⟩
      · rw [h.visited, List.mem_cons, List.mem_cons]
        tauto
      · rw [hqueue, List.append_assoc, List.singleton_append]
      · rw [hlength, List.length_cons, List.length_cons]
        omega
      · rcases hmore x hx with hx | hx
        · exact (List.mem_cons.1 hx).elim (fun heq => .inr (heq ▸ List.mem_cons_self)) .inl
        · exact .inr (List.mem_cons_of_mem _ hx)

theorem Descending.enqueueNew {cs : List κ} {s : Visit κ} (h : Descending children root s)
    (hcs : ∀ c ∈ cs, Below children root c) : Descending children root (enqueueNew cs s) := by
  induction cs generalizing s with
  | nil => exact h
  | cons child cs ih =>
    have hrest := fun c hc => hcs c (List.mem_cons_of_mem _ hc)
    rw [Lib.enqueueNew]
    by_cases hmem : child ∈ s.visited
    · rw [if_pos hmem]
      exact ih h hrest
    · rw [if_neg hmem]
      refine ih ⟨List.nodup_cons.2 ⟨hmem, h.nodup⟩, fun x => ?_, fun hroot => ?_, fun x hx => ?_, fun x hx => ?_⟩ hrest
      · rw [List.mem_cons, h.mem_iff, List.mem_append, List.mem_singleton]
        tauto
      · rcases List.mem_append.1 hroot with hroot | hroot
        · exact h.fresh hroot
        · exact hmem ((h.mem_iff child).2 (.inl (List.mem_singleton.1 hroot).symm))
      · rcases List.mem_cons.1 hx with rfl | hx
        · exact hcs x List.mem_cons_self
        · exact h.below x hx
      · rcases List.mem_append.1 hx with hx | hx
        · exact List.mem_cons_of_mem _ (h.queued x hx)
        · rw [List.mem_singleton.1 hx]
          exact List.mem_cons_self

/-- Every key seen is queued or has its children seen. -/
def Closed (children : κ → List κ) (s : Visit κ) : Prop :=
  ∀ p ∈ s.visited, p ∈ s.queue ∨ ∀ c ∈ children p, c ∈ s.visited

theorem Closed.step {parent : κ} {queue : List κ} {s : Visit κ} (h : Closed children s)
    (hqueue : s.queue = parent :: queue) :
    Closed children (enqueueNew (children parent) { s with queue := queue }) := by
  have hnew := enqueued_enqueueNew (children parent) { s with queue := queue }
  obtain ⟨more, hqueue', -, hmore⟩ := hnew.queue
  intro p hp
  rw [hqueue']
  rcases hmore p hp with hp | hp
  · rcases h p hp with hqueued | hclosed
    · rw [hqueue] at hqueued
      rcases List.mem_cons.1 hqueued with rfl | hqueued
      · exact .inr fun c hc => (hnew.visited c).2 (.inr hc)
      · exact .inl (List.mem_append_left _ hqueued)
    · exact .inr fun c hc => (hnew.visited c).2 (.inl (hclosed c hc))
  · exact .inl (List.mem_append_right _ hp)

theorem descend_nil {fuel : Nat} {s : Visit κ} (h : s.queue = []) : descend children fuel s = some s.result := by
  cases fuel <;> (unfold descend; rw [h])

theorem descend_cons {fuel : Nat} {s : Visit κ} {parent : κ} {queue : List κ} (h : s.queue = parent :: queue) :
    descend children (fuel + 1) s =
      descend children fuel (enqueueNew (children parent) { s with queue := queue }) := by
  rw [descend, h]

omit [DecidableEq κ] in
/-- With nothing left to expand, everything below the root is seen. -/
theorem Descending.complete {s : Visit κ} (h : Descending children root s) (hclosed : Closed children s)
    (hqueue : s.queue = []) (x : κ) : x = root ∨ x ∈ s.result ↔ Below children root x := by
  rw [← h.mem_iff]
  constructor
  · exact h.below x
  · intro hx
    induction hx with
    | root => exact (h.mem_iff root).2 (.inl rfl)
    | child _ hchild ih =>
      rcases hclosed _ ih with hqueued | hseen
      · rw [hqueue] at hqueued
        exact absurd hqueued List.not_mem_nil
      · exact hseen _ hchild

theorem Descending.run {S : List κ} (hS : ∀ x, Below children root x → x ∈ S) {fuel : Nat} {s : Visit κ}
    (h : Descending children root s) (hclosed : Closed children s)
    (hfuel : S.length + s.queue.length ≤ fuel + s.visited.length) :
    ∃ res, descend children fuel s = some res ∧ ∀ x, x = root ∨ x ∈ res ↔ Below children root x := by
  have hle := (List.subperm_of_subset h.nodup fun x hx => hS x (h.below x hx)).length_le
  induction fuel generalizing s with
  | zero =>
    cases hqueue : s.queue with
    | nil => exact ⟨_, descend_nil hqueue, h.complete hclosed hqueue⟩
    | cons parent queue =>
      rw [hqueue, List.length_cons] at hfuel
      omega
  | succ fuel ih =>
    cases hqueue : s.queue with
    | nil => exact ⟨_, descend_nil hqueue, h.complete hclosed hqueue⟩
    | cons parent queue =>
      have hparent := h.queued parent (hqueue ▸ List.mem_cons_self)
      have hpopped : Descending children root { s with queue := queue } :=
        ⟨h.nodup, h.mem_iff, h.fresh, h.below, fun x hx => h.queued x (hqueue ▸ List.mem_cons_of_mem _ hx)⟩
      have hnext := hpopped.enqueueNew fun c hc => Below.child (h.below parent hparent) hc
      obtain ⟨more, hqueue', hlength, -⟩ := (enqueued_enqueueNew (children parent) { s with queue := queue }).queue
      rw [descend_cons hqueue]
      refine ih hnext (hclosed.step hqueue) ?_ ?_
      · rw [hqueue', hlength, List.length_append]
        rw [hqueue, List.length_cons] at hfuel
        show S.length + (queue.length + more.length) ≤ fuel + (s.visited.length + more.length)
        omega
      · exact (List.subperm_of_subset hnext.nodup fun x hx => hS x (hnext.below x hx)).length_le

/-- **The search with a list of the keys seen** ends and lists exactly what lies below its root. -/
theorem descend_spec {S : List κ} (hS : ∀ x, Below children root x → x ∈ S) :
    ∃ res, descend children (S.length + 1) ⟨[root], [], [root]⟩ = some res ∧
      ∀ x, x = root ∨ x ∈ res ↔ Below children root x := by
  have hstart : Descending children root ⟨[root], [], [root]⟩ := by
    refine ⟨List.nodup_singleton root, fun x => ?_, List.not_mem_nil, fun x hx => ?_, fun x hx => hx⟩
    · rw [List.mem_singleton]
      exact ⟨.inl, fun hx => hx.resolve_right List.not_mem_nil⟩
    · rw [List.mem_singleton.1 hx]
      exact .root
  exact hstart.run hS (fun p hp => .inl hp) (Nat.le_add_right ..)

end Lib
end RobotsixMill
