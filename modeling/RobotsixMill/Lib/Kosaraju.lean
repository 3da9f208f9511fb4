import Mathlib.Data.List.Nodup
import Mathlib.Data.List.TakeWhile
import Mathlib.Data.Finset.Max
import Mathlib.Data.List.Cycle
import Mathlib.Logic.Relation

/-!
# `Lib.Kosaraju` — strongly connected components by two searches

A graph is a list of nodes with the successors of each. The first search is depth-first, with its stack spelled out,
and lists the nodes as it finishes them; the second goes back along the edges, from the node that finished last.

- `EdgeDone` — where the target of an edge stands when its source is finished. A node that finishes later than one of
  its predecessors reaches all that finish in between;
- `reaches_back` — so the last to finish of all that a node reaches reaches the node (`Settled`);
- `Collecting.mem_iff` — what the second search collects is the component of its start;
- `components_spec` — the two searches together;
- `exists_cycle_iff` — two nodes that reach each other lie on a cycle.

Both searches are given as functions with fuel, and enough of it is stated with each result.
-/

namespace RobotsixMill
namespace Lib
namespace Kosaraju

variable {α : Type*} {edges back : α → List α} {nodes : List α}

/-- There is a walk along the edges. -/
def Reach (edges : α → List α) : α → α → Prop := Relation.ReflTransGen fun a b => b ∈ edges a

/-- Two nodes reach each other. -/
def Mutual (edges : α → List α) (a b : α) : Prop := Reach edges a b ∧ Reach edges b a

theorem Mutual.symm {a b : α} (h : Mutual edges a b) : Mutual edges b a := ⟨h.2, h.1⟩

theorem Mutual.trans {a b c : α} (h : Mutual edges a b) (h' : Mutual edges b c) : Mutual edges a c :=
  ⟨h.1.trans h'.1, h'.2.trans h.2⟩

theorem Mutual.refl (a : α) : Mutual edges a a := ⟨.refl, .refl⟩

/-- A walk from below a mark to above it crosses the mark. -/
theorem exists_crossing (f : α → Nat) {k : Nat} {a b : α} (h : Reach edges a b) (ha : f a < k) (hb : k ≤ f b) :
    ∃ x y, Reach edges a x ∧ y ∈ edges x ∧ f x < k ∧ k ≤ f y := by
  induction h with
  | refl => exact absurd ha (not_lt.2 hb)
  | @tail b c hab hedge ih =>
    by_cases hmid : k ≤ f b
    · exact ih hmid
    · exact ⟨b, c, hab, hedge, not_le.1 hmid, hb⟩

/-! ## Cycles -/

/-- A walk can be made to pass every node once. -/
theorem exists_simple_walk {r : α → α → Prop} {a b : α} (h : Relation.ReflTransGen r a b) :
    ∃ l : List α, (l ++ [b]).head? = some a ∧ (l ++ [b]).IsChain r ∧ (l ++ [b]).Nodup := by
  induction h using Relation.ReflTransGen.head_induction_on with
  | refl => exact ⟨[], rfl, List.isChain_singleton b, List.nodup_singleton b⟩
  | @head a a' hedge _ ih =>
    obtain ⟨l, hhead, hchain, hnodup⟩ := ih
    by_cases hmem : a ∈ l ++ [b]
    · -- the walk comes back to `a`: begin there
      rcases List.mem_append.1 hmem with hmem | hmem
      · obtain ⟨l₁, l₂, rfl⟩ := List.append_of_mem hmem
        rw [List.append_assoc] at hchain hnodup
        exact ⟨a :: l₂, rfl, hchain.right_of_append, hnodup.of_append_right⟩
      · rw [List.mem_singleton.1 hmem]
        exact ⟨[], rfl, List.isChain_singleton b, List.nodup_singleton b⟩
    · refine ⟨a :: l, rfl, ?_, List.nodup_cons.2 ⟨hmem, hnodup⟩⟩
      rw [List.cons_append, List.isChain_cons]
      refine ⟨fun y hy => ?_, hchain⟩
      rw [hhead] at hy
      rw [← Option.mem_some.1 hy]
      exact hedge

/-- A walk to another node leaves its start for good. -/
theorem exists_departure {r : α → α → Prop} {a b : α} (h : Relation.ReflTransGen r a b) (hne : b ≠ a) :
    ∃ x, x ≠ a ∧ r a x ∧ Relation.ReflTransGen r x b := by
  induction h using Relation.ReflTransGen.head_induction_on with
  | refl => exact absurd rfl hne
  | @head a a' hedge hrest ih =>
    by_cases hsame : a' = a
    · subst hsame
      exact ih hne
    · exact ⟨a', hsame, hedge, hrest⟩

/-- **A node lies on a cycle of at least two nodes** if and only if it and another reach each other. -/
theorem exists_cycle_iff {r : α → α → Prop} {a : α} :
    (∃ c : Cycle α, c.Nodup ∧ 2 ≤ c.length ∧ a ∈ c ∧ c.Chain r) ↔
      ∃ b, b ≠ a ∧ Relation.ReflTransGen r a b ∧ Relation.ReflTransGen r b a := by
  constructor
  · rintro ⟨c, hnodup, hlength, hmem, hchain⟩
    obtain ⟨rest, rfl⟩ : ∃ rest : List α, c = ((a :: rest : List α) : Cycle α) := by
      induction c using Quotient.inductionOn with
      | _ l =>
        obtain ⟨l₁, l₂, rfl⟩ := List.append_of_mem (Cycle.mem_coe_iff.1 hmem)
        exact ⟨l₂ ++ l₁, Cycle.coe_eq_coe.2 List.isRotated_append⟩
    cases rest with
    | nil =>
      rw [Cycle.length_coe, List.length_singleton] at hlength
      omega
    | cons b rest =>
      rw [Cycle.nodup_coe_iff, List.nodup_cons] at hnodup
      rw [Cycle.chain_coe_cons, List.cons_append, List.isChain_cons_cons] at hchain
      refine ⟨b, ?_, .single hchain.1, ?_⟩
      · rintro rfl
        exact hnodup.1 List.mem_cons_self
      · exact List.relationReflTransGen_of_exists_isChain_cons _ hchain.2 (by simp)
  · rintro ⟨b, hne, hab, hba⟩
    obtain ⟨x, hxa, hedge, hxb⟩ := exists_departure hab hne
    obtain ⟨l, hhead, hchain, hnodup⟩ := exists_simple_walk (hxb.trans hba)
    cases l with
    | nil => exact absurd (Option.some.inj hhead).symm hxa
    | cons y l =>
      obtain rfl : y = x := Option.some.inj hhead
      have hperm : (a :: y :: l).Nodup := by
        have hperm : (y :: l ++ [a]).Perm (a :: y :: l) := List.perm_append_singleton a (y :: l)
        exact hperm.nodup_iff.1 hnodup
      refine ⟨((a :: y :: l : List α) : Cycle α), Cycle.nodup_coe_iff.2 hperm, ?_, List.mem_cons_self, ?_⟩
      · rw [Cycle.length_coe, List.length_cons, List.length_cons]
        omega
      · rw [Cycle.chain_coe_cons]
        exact List.isChain_cons_cons.2 ⟨hedge, hchain⟩

variable [DecidableEq α]

/-! ## The first search -/

/-- Every entry of the stack is a node with the successors still to be looked at; a node is seen when it is pushed, and
    finished when it is popped. -/
def finish (edges : α → List α) : Nat → List (α × List α) → List α × List α → List α × List α
  | 0, _, found => found
  | _ + 1, [], found => found
  | fuel + 1, (node, it) :: stack, (seen, order) =>
    match it.dropWhile fun nxt => nxt ∈ seen with
    | [] => finish edges fuel stack (seen, order ++ [node])
    | nxt :: rest => finish edges fuel ((nxt, edges nxt) :: (node, rest) :: stack) (nxt :: seen, order)

/-- The nodes in the order in which they finish. -/
def finishOrder (edges : α → List α) (fuel : Nat) (nodes : List α) : List α :=
  (nodes.foldl (fun found node =>
    if node ∈ found.1 then found
    else finish edges fuel [(node, edges node)] (node :: found.1, found.2)) ([], [])).2

/-- Where the target `y` of an edge stands, for a finished source `x`: it finished before, or after but reaching all
    that finished in between, or it is still open and reaches all that finished since. -/
inductive EdgeDone (edges : α → List α) (order opened : List α) (x y : α) : Prop
  | before (hmem : y ∈ order) (hlt : order.idxOf y < order.idxOf x)
  | after (hmem : y ∈ order)
      (hreach : ∀ z ∈ order, order.idxOf x ≤ order.idxOf z → order.idxOf z ≤ order.idxOf y → Reach edges y z)
  | waiting (hmem : y ∈ opened) (hreach : ∀ z ∈ order, order.idxOf x ≤ order.idxOf z → Reach edges y z)

/-- The invariant of the first search. -/
structure Searching (edges : α → List α) (nodes : List α) (stack : List (α × List α)) (seen order : List α) :
    Prop where
  nodup : (order ++ stack.map Prod.fst).Nodup
  seen_iff : ∀ n, n ∈ seen ↔ n ∈ order ∨ n ∈ stack.map Prod.fst
  inside : ∀ n ∈ seen, n ∈ nodes
  path : (stack.map Prod.fst).Pairwise fun upper lower => Reach edges lower upper
  pending : ∀ e ∈ stack, ∀ n ∈ e.2, n ∈ edges e.1
  scanned : ∀ e ∈ stack, ∀ n ∈ edges e.1, n ∈ e.2 ∨ n ∈ seen
  done : ∀ x ∈ order, ∀ y ∈ edges x, EdgeDone edges order (stack.map Prod.fst) x y

section Search

variable {stack : List (α × List α)} {seen order : List α}

theorem EdgeDone.mono {opened opened' : List α} {x y : α} (h : EdgeDone edges order opened x y)
    (hsub : ∀ n ∈ opened, n ∈ opened') : EdgeDone edges order opened' x y := by
  cases h with
  | before hmem hlt => exact .before hmem hlt
  | after hmem hreach => exact .after hmem hreach
  | waiting hmem hreach => exact .waiting (hsub _ hmem) hreach

theorem idxOf_append_singleton {t x : α} (h : x ∈ order) : (order ++ [t]).idxOf x = order.idxOf x :=
  List.idxOf_append_of_mem h

theorem idxOf_last {t : α} (h : t ∉ order) : (order ++ [t]).idxOf t = order.length := by
  rw [List.idxOf_append_of_notMem h, List.idxOf_cons_self, Nat.add_zero]

/-- An edge from a finished node stays done when the top of the stack finishes. -/
theorem EdgeDone.pop {t x y : α} {opened : List α} (h : EdgeDone edges order (t :: opened) x y) (hx : x ∈ order)
    (ht : t ∉ order) (hpath : ∀ lower ∈ opened, Reach edges lower t) :
    EdgeDone edges (order ++ [t]) opened x y := by
  have hlast := idxOf_last ht
  have hbound : ∀ z ∈ order, order.idxOf z < order.length := fun z hz => List.idxOf_lt_length_iff.2 hz
  have hcases : ∀ z ∈ order ++ [t], z ∈ order ∨ z = t := by simp
  cases h with
  | before hmem hlt =>
    refine .before (List.mem_append_left _ hmem) ?_
    rw [idxOf_append_singleton hmem, idxOf_append_singleton hx]
    exact hlt
  | after hmem hreach =>
    refine .after (List.mem_append_left _ hmem) fun z hz hle hge => ?_
    rw [idxOf_append_singleton hmem] at hge
    rw [idxOf_append_singleton hx] at hle
    rcases hcases z hz with hz | rfl
    · rw [idxOf_append_singleton hz] at hle hge
      exact hreach z hz hle hge
    · rw [hlast] at hge
      exact absurd (hbound y hmem) (by omega)
  | waiting hmem hreach =>
    rcases List.mem_cons.1 hmem with rfl | hbelow
    · refine .after (List.mem_append_right _ List.mem_cons_self) fun z hz hle _ => ?_
      rcases hcases z hz with hz | rfl
      · rw [idxOf_append_singleton hx, idxOf_append_singleton hz] at hle
        exact hreach z hz hle
      · exact .refl
    · refine .waiting hbelow fun z hz hle => ?_
      rcases hcases z hz with hz | rfl
      · rw [idxOf_append_singleton hx, idxOf_append_singleton hz] at hle
        exact hreach z hz hle
      · exact hpath y hbelow

/-- So is one from the node that finishes, when all its successors are seen. -/
theorem EdgeDone.of_top {t y : α} {opened : List α} (hy : y ∈ order ∨ y ∈ t :: opened) (ht : t ∉ order)
    (hpath : ∀ lower ∈ opened, Reach edges lower t) : EdgeDone edges (order ++ [t]) opened t y := by
  have hlast := idxOf_last ht
  have honly : ∀ z ∈ order ++ [t], (order ++ [t]).idxOf t ≤ (order ++ [t]).idxOf z → z = t := by
    intro z hz hle
    rcases List.mem_append.1 hz with hz | hz
    · have hbound := List.idxOf_lt_length_iff.2 hz
      rw [hlast, idxOf_append_singleton hz] at hle
      omega
    · exact List.mem_singleton.1 hz
  rcases hy with hy | hy
  · refine .before (List.mem_append_left _ hy) ?_
    rw [hlast, idxOf_append_singleton hy]
    exact List.idxOf_lt_length_iff.2 hy
  · rcases List.mem_cons.1 hy with rfl | hy
    · refine .after (List.mem_append_right _ List.mem_cons_self) fun z hz hle _ => ?_
      rw [honly z hz hle]
      exact .refl
    · refine .waiting hy fun z hz hle => ?_
      rw [honly z hz hle]
      exact hpath y hy

/-- **The top of the stack finishes.** -/
theorem Searching.pop {node : α} {it : List α} (h : Searching edges nodes ((node, it) :: stack) seen order)
    (hit : ∀ n ∈ it, n ∈ seen) : Searching edges nodes stack seen (order ++ [node]) := by
  have hnodup : (order ++ node :: stack.map Prod.fst).Nodup := h.nodup
  have hpath : ((node :: stack.map Prod.fst)).Pairwise fun upper lower => Reach edges lower upper := h.path
  have hnode : node ∉ order := by
    intro hmem
    exact (List.nodup_append.1 hnodup).2.2 node hmem node List.mem_cons_self rfl
  have hbelow := (List.pairwise_cons.1 hpath).1
  constructor
  · rw [List.append_assoc]
    exact hnodup
  · intro n
    rw [h.seen_iff n, List.mem_append, List.mem_singleton]
    show (n ∈ order ∨ n ∈ node :: stack.map Prod.fst) ↔ _
    rw [List.mem_cons, or_assoc]
  · exact h.inside
  · exact (List.pairwise_cons.1 hpath).2
  · exact fun e he => h.pending e (List.mem_cons_of_mem _ he)
  · exact fun e he => h.scanned e (List.mem_cons_of_mem _ he)
  · intro x hx y hy
    rcases List.mem_append.1 hx with hx | hx
    · exact (h.done x hx y hy).pop hx hnode hbelow
    · obtain rfl := List.mem_singleton.1 hx
      refine .of_top ?_ hnode hbelow
      rcases h.scanned _ List.mem_cons_self y hy with hpending | hseen
      · exact (h.seen_iff y).1 (hit y hpending)
      · exact (h.seen_iff y).1 hseen

/-- **A successor is pushed.** -/
theorem Searching.push {node nxt : α} {it rest : List α} (h : Searching edges nodes ((node, it) :: stack) seen order)
    (hclosed : ∀ a ∈ nodes, ∀ b ∈ edges a, b ∈ nodes) (hit : ∀ n ∈ it, n ∈ seen ∨ n = nxt ∨ n ∈ rest)
    (hsub : ∀ n, n = nxt ∨ n ∈ rest → n ∈ it) (hnxt : nxt ∉ seen) :
    Searching edges nodes ((nxt, edges nxt) :: (node, rest) :: stack) (nxt :: seen) order := by
  have hedge : nxt ∈ edges node := h.pending _ List.mem_cons_self nxt (hsub nxt (.inl rfl))
  have hfresh : nxt ∉ order ++ node :: stack.map Prod.fst := by
    rw [List.mem_append]
    exact fun hmem => hnxt ((h.seen_iff nxt).2 hmem)
  have hnode : node ∈ seen := (h.seen_iff node).2 (.inr List.mem_cons_self)
  constructor
  · show (order ++ nxt :: node :: stack.map Prod.fst).Nodup
    rw [List.nodup_middle]
    exact List.nodup_cons.2 ⟨hfresh, h.nodup⟩
  · intro n
    show n ∈ nxt :: seen ↔ n ∈ order ∨ n ∈ nxt :: node :: stack.map Prod.fst
    rw [List.mem_cons, h.seen_iff n, @List.mem_cons _ nxt, or_left_comm]
    rfl
  · intro n hn
    rcases List.mem_cons.1 hn with rfl | hn
    · exact hclosed node (h.inside node hnode) n hedge
    · exact h.inside n hn
  · show (nxt :: node :: stack.map Prod.fst).Pairwise _
    refine List.pairwise_cons.2 ⟨fun lower hlower => ?_, h.path⟩
    rcases List.mem_cons.1 hlower with rfl | hlower
    · exact .single hedge
    · exact ((List.pairwise_cons.1 h.path).1 lower hlower).tail hedge
  · intro e he n hn
    rcases List.mem_cons.1 he with rfl | he
    · exact hn
    · rcases List.mem_cons.1 he with rfl | he
      · exact h.pending (node, it) List.mem_cons_self n (hsub n (.inr hn))
      · exact h.pending e (List.mem_cons_of_mem _ he) n hn
  · intro e he n hn
    rcases List.mem_cons.1 he with rfl | he
    · exact .inl hn
    · rcases List.mem_cons.1 he with rfl | he
      · rcases h.scanned (node, it) List.mem_cons_self n hn with hpending | hseen
        · rcases hit n hpending with hseen | rfl | hrest
          · exact .inr (List.mem_cons_of_mem _ hseen)
          · exact .inr List.mem_cons_self
          · exact .inl hrest
        · exact .inr (List.mem_cons_of_mem _ hseen)
      · exact (h.scanned e (List.mem_cons_of_mem _ he) n hn).imp_right (List.mem_cons_of_mem _)
  · intro x hx y hy
    exact (h.done x hx y hy).mono fun n hn => List.mem_cons_of_mem _ hn

/-- The steps that are left: every unseen node is pushed and popped, every open one popped. -/
def remaining (nodes : List α) (stack : List (α × List α)) (seen : List α) : Nat :=
  2 * nodes.countP (fun n => n ∉ seen) + stack.length

/-- Fewer nodes are outside of a list that has one more of them. -/
theorem countP_notMem_cons_lt {n : α} (hn : n ∈ nodes) (hseen : n ∉ seen) :
    nodes.countP (fun m => m ∉ n :: seen) < nodes.countP fun m => m ∉ seen := by
  have hle : ∀ l : List α, l.countP (fun m => m ∉ n :: seen) ≤ l.countP fun m => m ∉ seen := by
    intro l
    apply List.countP_mono_left
    intro m _ hm
    simp only [decide_eq_true_eq, List.mem_cons, not_or] at hm ⊢
    exact hm.2
  obtain ⟨l, l', rfl⟩ := List.append_of_mem hn
  have huncounted : (n :: l').countP (fun m => m ∉ n :: seen) = l'.countP fun m => m ∉ n :: seen :=
    List.countP_cons_of_neg (by simp)
  have hcounted : (n :: l').countP (fun m => m ∉ seen) = (l'.countP fun m => m ∉ seen) + 1 :=
    List.countP_cons_of_pos (by simp [hseen])
  rw [List.countP_append, List.countP_append, huncounted, hcounted]
  have hleft := hle l
  have hright := hle l'
  omega

/-- **The first search ends with an empty stack**, and with the same result for all fuel that is enough. -/
theorem Searching.run (hclosed : ∀ a ∈ nodes, ∀ b ∈ edges a, b ∈ nodes)
    (h : Searching edges nodes stack seen order) :
    ∃ seen' order', Searching edges nodes [] seen' order' ∧ (∀ n ∈ seen, n ∈ seen') ∧
      ∀ fuel, remaining nodes stack seen ≤ fuel → finish edges fuel stack (seen, order) = (seen', order') := by
  induction hm : remaining nodes stack seen using Nat.strongRecOn generalizing stack seen order with
  | ind m ih =>
    subst hm
    cases stack with
    | nil =>
      refine ⟨seen, order, h, fun _ hn => hn, fun fuel _ => ?_⟩
      cases fuel <;> rfl
    | cons e stack =>
      obtain ⟨node, it⟩ := e
      have hfuel : ∀ fuel, remaining nodes ((node, it) :: stack) seen ≤ fuel → ∃ fuel', fuel = fuel' + 1 := by
        intro fuel hle
        unfold remaining at hle
        rw [List.length_cons] at hle
        exact ⟨fuel - 1, by omega⟩
      cases hdrop : it.dropWhile fun nxt => nxt ∈ seen with
      | nil =>
        have hit : ∀ n ∈ it, n ∈ seen := by
          intro n hn
          exact of_decide_eq_true (List.dropWhile_eq_nil_iff.1 hdrop n hn)
        have hless : remaining nodes stack seen < remaining nodes ((node, it) :: stack) seen := by
          unfold remaining
          rw [List.length_cons]
          omega
        obtain ⟨seen', order', hend, hsub, hrun⟩ := ih _ hless (h.pop hit) rfl
        refine ⟨seen', order', hend, hsub, fun fuel hle => ?_⟩
        obtain ⟨fuel, rfl⟩ := hfuel fuel hle
        rw [finish, hdrop]
        exact hrun fuel (by omega)
      | cons nxt rest =>
        have hsplit : it = it.takeWhile (fun n => n ∈ seen) ++ nxt :: rest := by
          rw [← hdrop]
          exact List.takeWhile_append_dropWhile.symm
        have hnxt : nxt ∉ seen := by
          have hhead := List.head?_dropWhile_not (fun n => decide (n ∈ seen)) it
          rw [hdrop] at hhead
          exact of_decide_eq_false hhead
        have hit : ∀ n ∈ it, n ∈ seen ∨ n = nxt ∨ n ∈ rest := by
          intro n hn
          rw [hsplit, List.mem_append, List.mem_cons] at hn
          refine hn.imp_left fun htake => ?_
          have hseen := List.mem_takeWhile_imp htake
          exact of_decide_eq_true hseen
        have hsub : ∀ n, n = nxt ∨ n ∈ rest → n ∈ it := by
          intro n hn
          rw [hsplit]
          exact List.mem_append_right _ (List.mem_cons.2 hn)
        have hpush := h.push hclosed hit hsub hnxt
        have hless : remaining nodes ((nxt, edges nxt) :: (node, rest) :: stack) (nxt :: seen) <
            remaining nodes ((node, it) :: stack) seen := by
          have hcount := countP_notMem_cons_lt (hpush.inside nxt List.mem_cons_self) hnxt
          unfold remaining
          simp only [List.length_cons]
          omega
        obtain ⟨seen', order', hend, hseen, hrun⟩ := ih _ hless hpush rfl
        refine ⟨seen', order', hend, fun n hn => hseen n (List.mem_cons_of_mem _ hn), fun fuel hle => ?_⟩
        obtain ⟨fuel, rfl⟩ := hfuel fuel hle
        rw [finish, hdrop]
        exact hrun fuel (by omega)

/-- The search from one more node. -/
theorem Searching.start {node : α} (h : Searching edges nodes [] seen order) (hnode : node ∈ nodes)
    (hseen : node ∉ seen) : Searching edges nodes [(node, edges node)] (node :: seen) order := by
  have horder : node ∉ order := fun hmem => hseen ((h.seen_iff node).2 (.inl hmem))
  constructor
  · show (order ++ [node]).Nodup
    rw [List.nodup_append_comm]
    exact List.nodup_cons.2 ⟨horder, by simpa using h.nodup⟩
  · intro n
    rw [List.mem_cons, h.seen_iff n]
    show n = node ∨ n ∈ order ∨ n ∈ [] ↔ n ∈ order ∨ n ∈ [node]
    simp [or_comm]
  · intro n hn
    rcases List.mem_cons.1 hn with rfl | hn
    · exact hnode
    · exact h.inside n hn
  · exact List.pairwise_singleton _ _
  · intro e he n hn
    obtain rfl := List.mem_singleton.1 he
    exact hn
  · intro e he n hn
    obtain rfl := List.mem_singleton.1 he
    exact .inl hn
  · exact fun x hx y hy => (h.done x hx y hy).mono fun n hn => absurd hn List.not_mem_nil

/-- What is left of the first search: every node is finished once, and every edge is done. -/
structure Settled (edges : α → List α) (nodes order : List α) : Prop where
  nodup : order.Nodup
  mem_iff : ∀ n, n ∈ order ↔ n ∈ nodes
  done : ∀ x ∈ order, ∀ y ∈ edges x, EdgeDone edges order [] x y

/-- **The first search finishes every node once**, and with the same result for all fuel that is enough. -/
theorem settled_finishOrder (hclosed : ∀ a ∈ nodes, ∀ b ∈ edges a, b ∈ nodes) :
    ∃ order, Settled edges nodes order ∧ ∀ fuel, 2 * nodes.length ≤ fuel → finishOrder edges fuel nodes = order := by
  have hfold : ∀ (l : List α) (seen order : List α), (∀ n ∈ l, n ∈ nodes) → Searching edges nodes [] seen order →
      ∃ seen' order', Searching edges nodes [] seen' order' ∧ (∀ n, n ∈ l ∨ n ∈ seen → n ∈ seen') ∧
        ∀ fuel, 2 * nodes.length ≤ fuel → l.foldl (fun found node => if node ∈ found.1 then found
          else finish edges fuel [(node, edges node)] (node :: found.1, found.2)) (seen, order) = (seen', order') := by
    intro l
    induction l with
    | nil =>
      intro seen order _ h
      exact ⟨seen, order, h, fun n hn => hn.resolve_left List.not_mem_nil, fun _ _ => rfl⟩
    | cons node l ih =>
      intro seen order hl h
      have hl' : ∀ n ∈ l, n ∈ nodes := fun n hn => hl n (List.mem_cons_of_mem _ hn)
      by_cases hseen : node ∈ seen
      · obtain ⟨seen', order', hend, hsub, hrun⟩ := ih seen order hl' h
        refine ⟨seen', order', hend, fun n hn => ?_, fun fuel hle => ?_⟩
        · rcases hn with hn | hn
          · rcases List.mem_cons.1 hn with rfl | hn
            · exact hsub n (.inr hseen)
            · exact hsub n (.inl hn)
          · exact hsub n (.inr hn)
        · rw [List.foldl_cons, if_pos hseen]
          exact hrun fuel hle
      · have hnode := hl node List.mem_cons_self
        obtain ⟨seen₁, order₁, hend₁, hsub₁, hrun₁⟩ := (h.start hnode hseen).run hclosed
        obtain ⟨seen', order', hend, hsub, hrun⟩ := ih seen₁ order₁ hl' hend₁
        refine ⟨seen', order', hend, fun n hn => ?_, fun fuel hle => ?_⟩
        · rcases hn with hn | hn
          · rcases List.mem_cons.1 hn with rfl | hn
            · exact hsub n (.inr (hsub₁ n List.mem_cons_self))
            · exact hsub n (.inl hn)
          · exact hsub n (.inr (hsub₁ n (List.mem_cons_of_mem _ hn)))
        · have hfuel : remaining nodes [(node, edges node)] (node :: seen) ≤ fuel := by
            have hcount := countP_notMem_cons_lt hnode hseen
            have hbound : nodes.countP (fun n => n ∉ seen) ≤ nodes.length := List.countP_le_length
            unfold remaining
            rw [List.length_singleton]
            omega
          rw [List.foldl_cons, if_neg hseen, hrun₁ fuel hfuel]
          exact hrun fuel hle
  have hempty : Searching edges nodes [] [] [] := by
    constructor <;> simp
  obtain ⟨seen, order, hend, hsub, hrun⟩ := hfold nodes [] [] (fun _ hn => hn) hempty
  refine ⟨order, ⟨?_, fun n => ⟨fun hn => ?_, fun hn => ?_⟩, hend.done⟩, fun fuel hle => ?_⟩
  · simpa using hend.nodup
  · exact hend.inside n ((hend.seen_iff n).2 (.inl hn))
  · have hn := (hend.seen_iff n).1 (hsub n (.inl hn))
    exact hn.resolve_right List.not_mem_nil
  · rw [finishOrder, hrun fuel hle]

end Search

/-! ## What the order of finishing tells -/

section Order

variable {order : List α}

theorem Settled.mem_of_edge (h : Settled edges nodes order) {x y : α} (hx : x ∈ order) (hy : y ∈ edges x) :
    y ∈ order := by
  cases h.done x hx y hy with
  | before hmem _ => exact hmem
  | after hmem _ => exact hmem
  | waiting hmem _ => exact absurd hmem List.not_mem_nil

theorem Settled.mem_of_reach (h : Settled edges nodes order) {x y : α} (hx : x ∈ order) (hxy : Reach edges x y) :
    y ∈ order := by
  induction hxy with
  | refl => exact hx
  | tail _ hedge ih => exact h.mem_of_edge ih hedge

/-- The target of an edge that does not finish first reaches all that finish in between. -/
theorem Settled.reach_between (h : Settled edges nodes order) {x y : α} (hx : x ∈ order) (hy : y ∈ edges x)
    (hle : order.idxOf x ≤ order.idxOf y) :
    ∀ z ∈ order, order.idxOf x ≤ order.idxOf z → order.idxOf z ≤ order.idxOf y → Reach edges y z := by
  cases h.done x hx y hy with
  | before _ hlt => exact absurd hlt (not_lt.2 hle)
  | after _ hreach => exact hreach
  | waiting hmem _ => exact absurd hmem List.not_mem_nil

/-- **The last to finish of all that a node reaches reaches the node.** -/
theorem Settled.reaches_back (h : Settled edges nodes order) {u w : α} (hu : u ∈ order) (huw : Reach edges u w)
    (hlast : ∀ x, Reach edges u x → order.idxOf x ≤ order.idxOf w) : Reach edges w u := by
  induction huw using Relation.ReflTransGen.head_induction_on with
  | refl => exact .refl
  | @head v v' hedge hv'w ih =>
    have hv' := h.mem_of_edge hu hedge
    have hback : Reach edges w v' := ih hv' fun x hx => hlast x (.head hedge hx)
    by_cases hle : order.idxOf v ≤ order.idxOf v'
    · exact hback.trans (h.reach_between hu hedge hle v hu (Nat.le_refl _) hle)
    · -- the walk from `v'` on to `w` comes past the time at which `v` finishes
      obtain ⟨x, y, hv'x, hxy, hlt, hge⟩ :=
        exists_crossing order.idxOf hv'w (not_le.1 hle) (hlast v .refl)
      have hx := h.mem_of_reach hv' hv'x
      have hyv := h.reach_between hx hxy (Nat.le_of_lt (Nat.lt_of_lt_of_le hlt hge)) v hu (Nat.le_of_lt hlt) hge
      exact ((hback.trans hv'x).tail hxy).trans hyv

/-- Of all that a node reaches, one finishes last. -/
theorem Settled.exists_last (h : Settled edges nodes order) {u : α} (hu : u ∈ order) :
    ∃ w, Mutual edges u w ∧ ∀ x, Reach edges u x → order.idxOf x ≤ order.idxOf w := by
  classical
  obtain ⟨w, hw, hmax⟩ := Finset.exists_max_image (order.toFinset.filter fun x => Reach edges u x) order.idxOf
    ⟨u, Finset.mem_filter.2 ⟨List.mem_toFinset.2 hu, .refl⟩⟩
  have huw := (Finset.mem_filter.1 hw).2
  have hlast : ∀ x, Reach edges u x → order.idxOf x ≤ order.idxOf w := fun x hx =>
    hmax x (Finset.mem_filter.2 ⟨List.mem_toFinset.2 (h.mem_of_reach hu hx), hx⟩)
  exact ⟨w, ⟨huw, h.reaches_back hu huw hlast⟩, hlast⟩

end Order

/-! ## The second search -/

/-- What is found going back from the nodes on the stack, next to all nodes assigned so far. -/
def collect (back : α → List α) : Nat → List α → List α × List α → List α × List α
  | 0, _, found => found
  | _ + 1, [], found => found
  | fuel + 1, node :: stack, (comp, assigned) =>
    let fresh := (back node).filter fun nxt => nxt ∉ assigned
    collect back fuel (fresh.reverse ++ stack) (comp ++ [node], fresh ++ assigned)

/-- The components, one for each node that no earlier one has. -/
def components (back : α → List α) (fuel : Nat) (order : List α) : List (List α) × List α :=
  order.foldl (fun found node =>
    if node ∈ found.2 then found
    else
      let collected := collect back fuel [node] ([], node :: found.2)
      (found.1 ++ [collected.1], collected.2)) ([], [])

/-- `back` lists the predecessors of every node, once each. -/
structure Reverses (edges back : α → List α) (nodes : List α) : Prop where
  mem_iff : ∀ a ∈ nodes, ∀ b, b ∈ back a ↔ b ∈ nodes ∧ a ∈ edges b
  nodup : ∀ a, (back a).Nodup

/-- The invariant of the second search from `start`, with the nodes `earlier` assigned before. -/
structure Collecting (edges : α → List α) (nodes earlier : List α) (start : α) (stack comp assigned : List α) :
    Prop where
  assigned_iff : ∀ n, n ∈ assigned ↔ n ∈ earlier ∨ n ∈ comp ++ stack
  nodup : (comp ++ stack).Nodup
  later : ∀ n ∈ comp ++ stack, n ∉ earlier
  inside : ∀ n ∈ comp ++ stack, n ∈ nodes
  reaches : ∀ n ∈ comp ++ stack, Reach edges n start
  closed : ∀ a ∈ comp, ∀ b ∈ nodes, a ∈ edges b → b ∈ assigned
  start_mem : start ∈ comp ++ stack

section Collect

variable {earlier stack comp assigned : List α} {start : α}

/-- **One node is collected, and its predecessors are pushed.** -/
theorem Collecting.step (hback : Reverses edges back nodes) {node : α}
    (h : Collecting edges nodes earlier start (node :: stack) comp assigned) :
    Collecting edges nodes earlier start (((back node).filter fun nxt => nxt ∉ assigned).reverse ++ stack)
      (comp ++ [node]) ((back node).filter (fun nxt => nxt ∉ assigned) ++ assigned) := by
  have hnode : node ∈ comp ++ node :: stack := List.mem_append_right _ List.mem_cons_self
  have hinside := h.inside node hnode
  have hmem : ∀ n, n ∈ comp ++ [node] ++ (((back node).filter fun nxt => nxt ∉ assigned).reverse ++ stack) ↔
      n ∈ comp ++ node :: stack ∨ n ∈ (back node).filter fun nxt => nxt ∉ assigned := by
    intro n
    simp only [List.mem_append, List.mem_cons, List.mem_reverse, List.not_mem_nil, or_false]
    tauto
  have hfresh : ∀ n, n ∈ (back node).filter (fun nxt => nxt ∉ assigned) →
      n ∉ assigned ∧ n ∈ nodes ∧ node ∈ edges n := by
    intro n hn
    obtain ⟨hpred, hnew⟩ := List.mem_filter.1 hn
    exact ⟨of_decide_eq_true hnew, (hback.mem_iff node hinside n).1 hpred⟩
  constructor
  · intro n
    rw [hmem, List.mem_append, h.assigned_iff]
    tauto
  · rw [List.append_assoc, List.singleton_append]
    have hperm : (comp ++ node :: (((back node).filter fun nxt => nxt ∉ assigned).reverse ++ stack)).Perm
        ((back node).filter (fun nxt => nxt ∉ assigned) ++ (comp ++ node :: stack)) := by
      have hmiddle := List.perm_append_comm_assoc comp
        ((back node).filter fun nxt => nxt ∉ assigned).reverse (node :: stack)
      refine List.Perm.trans ?_ (hmiddle.trans ((List.reverse_perm _).append_right _))
      exact (List.perm_middle.symm).append_left comp
    rw [hperm.nodup_iff, List.nodup_append]
    refine ⟨(hback.nodup node).filter _, h.nodup, ?_⟩
    rintro a ha b hb rfl
    exact (hfresh a ha).1 ((h.assigned_iff a).2 (.inr hb))
  · intro n hn
    rcases (hmem n).1 hn with hn | hn
    · exact h.later n hn
    · exact fun hearlier => (hfresh n hn).1 ((h.assigned_iff n).2 (.inl hearlier))
  · intro n hn
    rcases (hmem n).1 hn with hn | hn
    · exact h.inside n hn
    · exact (hfresh n hn).2.1
  · intro n hn
    rcases (hmem n).1 hn with hn | hn
    · exact h.reaches n hn
    · exact .head (hfresh n hn).2.2 (h.reaches node hnode)
  · intro a ha b hb hedge
    rcases List.mem_append.1 ha with ha | ha
    · exact List.mem_append_right _ (h.closed a ha b hb hedge)
    · obtain rfl := List.mem_singleton.1 ha
      by_cases hassigned : b ∈ assigned
      · exact List.mem_append_right _ hassigned
      · refine List.mem_append_left _ (List.mem_filter.2 ⟨?_, decide_eq_true hassigned⟩)
        exact (hback.mem_iff a hinside b).2 ⟨hb, hedge⟩
  · exact (hmem start).2 (.inl h.start_mem)

/-- **The second search ends with an empty stack**, and with the same result for all fuel that is enough. -/
theorem Collecting.run (hback : Reverses edges back nodes)
    (h : Collecting edges nodes earlier start stack comp assigned) :
    ∃ comp' assigned', Collecting edges nodes earlier start [] comp' assigned' ∧
      ∀ fuel, nodes.countP (fun n => n ∉ comp) ≤ fuel →
        collect back fuel stack (comp, assigned) = (comp', assigned') := by
  induction hm : nodes.countP (fun n => n ∉ comp) using Nat.strongRecOn generalizing stack comp assigned with
  | ind m ih =>
    subst hm
    cases stack with
    | nil =>
      refine ⟨comp, assigned, h, fun fuel _ => ?_⟩
      cases fuel <;> rfl
    | cons node stack =>
      have hnode : node ∈ comp ++ node :: stack := List.mem_append_right _ List.mem_cons_self
      have hcomp : node ∉ comp := fun hmem => (List.nodup_append.1 h.nodup).2.2 node hmem node List.mem_cons_self rfl
      have hless : nodes.countP (fun n => n ∉ comp ++ [node]) < nodes.countP fun n => n ∉ comp := by
        have hcons := countP_notMem_cons_lt (h.inside node hnode) hcomp
        have hcongr : nodes.countP (fun n => n ∉ comp ++ [node]) = nodes.countP fun n => n ∉ node :: comp := by
          apply List.countP_congr
          intro n _
          simp [and_comm]
        rw [hcongr]
        exact hcons
      obtain ⟨comp', assigned', hend, hrun⟩ := ih _ hless (h.step hback) rfl
      refine ⟨comp', assigned', hend, fun fuel hle => ?_⟩
      cases fuel with
      | zero => omega
      | succ fuel =>
        rw [collect]
        exact hrun fuel (by omega)

/-! ## The two searches together -/

/-- The components found so far, with the nodes assigned to them. -/
structure Partitioned (edges : α → List α) (nodes : List α) (comps : List (List α)) (assigned : List α) : Prop where
  assigned_iff : ∀ n, n ∈ assigned ↔ n ∈ comps.flatten
  nodup : comps.flatten.Nodup
  ne_nil : ∀ comp ∈ comps, comp ≠ []
  strong : ∀ comp ∈ comps, ∀ a ∈ comp, ∀ b, b ∈ comp ↔ b ∈ nodes ∧ Mutual edges a b

omit [DecidableEq α] in
/-- Whoever reaches a node of a component, and is reached by it, is assigned as well. -/
theorem Partitioned.assigned_of_mutual {comps : List (List α)} (h : Partitioned edges nodes comps assigned)
    {a b : α} (ha : a ∈ assigned) (hb : b ∈ nodes) (hab : Mutual edges a b) : b ∈ assigned := by
  obtain ⟨comp, hcomp, hmem⟩ := List.mem_flatten.1 ((h.assigned_iff a).1 ha)
  exact (h.assigned_iff b).2 (List.mem_flatten.2 ⟨comp, hcomp, (h.strong comp hcomp a hmem b).2 ⟨hb, hab⟩⟩)

/-- **What is collected is a component**, when all that finished after its start is assigned. -/
theorem Collecting.mem_iff {order : List α} {comps : List (List α)} (horder : Settled edges nodes order)
    (hparts : Partitioned edges nodes comps earlier)
    (h : Collecting edges nodes earlier start [] comp assigned)
    (hlater : ∀ n ∈ order, order.idxOf start < order.idxOf n → n ∈ earlier) (b : α) :
    b ∈ comp ↔ b ∈ nodes ∧ Mutual edges start b := by
  have hall : ∀ n, n ∈ comp ++ [] ↔ n ∈ comp := fun n => by rw [List.append_nil]
  have hstart : start ∈ comp := (hall start).1 h.start_mem
  have hinside : ∀ n ∈ comp, n ∈ nodes := fun n hn => h.inside n ((hall n).2 hn)
  constructor
  · intro hb
    have hbs := h.reaches b ((hall b).2 hb)
    obtain ⟨w, hbw, hlast⟩ := horder.exists_last ((horder.mem_iff b).2 (hinside b hb))
    -- the last that `b` reaches is not assigned, since `b` is not; so it is the start
    have hw : w ∈ order := horder.mem_of_reach ((horder.mem_iff b).2 (hinside b hb)) hbw.1
    have hwearlier : w ∉ earlier := fun hmem =>
      h.later b ((hall b).2 hb) (hparts.assigned_of_mutual hmem (hinside b hb) hbw.symm)
    have hle : order.idxOf w ≤ order.idxOf start := by
      by_contra hnot
      exact hwearlier (hlater w hw (not_le.1 hnot))
    have hsame : order.idxOf w = order.idxOf start := Nat.le_antisymm hle (hlast start hbs)
    obtain rfl : w = start := List.idxOf_inj hw |>.1 hsame
    exact ⟨hinside b hb, hbw.symm⟩
  · rintro ⟨hb, hsb, hbs⟩
    have hmem : ∀ n ∈ comp, n ∉ earlier := fun n hn => h.later n ((hall n).2 hn)
    induction hbs using Relation.ReflTransGen.head_induction_on with
    | refl => exact hstart
    | @head v v' hedge hv's ih =>
      have hv' : v' ∈ comp := by
        refine ih ?_ (hsb.tail hedge)
        exact (horder.mem_iff v').1 (horder.mem_of_edge ((horder.mem_iff v).2 hb) hedge)
      have hassigned := h.closed v' hv' v hb hedge
      rcases (h.assigned_iff v).1 hassigned with hearlier | hcomp
      · have hback : Mutual edges v start := ⟨.head hedge hv's, hsb⟩
        exact absurd (hparts.assigned_of_mutual hearlier (hinside start hstart) hback) (hmem start hstart)
      · exact (hall v).1 hcomp

/-- One more component. -/
theorem Partitioned.snoc {order : List α} {comps : List (List α)} (horder : Settled edges nodes order)
    (hparts : Partitioned edges nodes comps earlier)
    (h : Collecting edges nodes earlier start [] comp assigned)
    (hlater : ∀ n ∈ order, order.idxOf start < order.idxOf n → n ∈ earlier) :
    Partitioned edges nodes (comps ++ [comp]) assigned := by
  have hflatten : (comps ++ [comp]).flatten = comps.flatten ++ comp := by
    rw [List.flatten_append, List.flatten_singleton]
  have hall : comp ++ [] = comp := List.append_nil comp
  constructor
  · intro n
    rw [h.assigned_iff, hall, hflatten, List.mem_append, hparts.assigned_iff]
  · rw [hflatten, List.nodup_append]
    refine ⟨hparts.nodup, hall ▸ h.nodup, ?_⟩
    rintro a ha b hb rfl
    exact h.later a (hall.symm ▸ hb) ((hparts.assigned_iff a).2 ha)
  · intro c hc
    rcases List.mem_append.1 hc with hc | hc
    · exact hparts.ne_nil c hc
    · rw [List.mem_singleton.1 hc]
      exact List.ne_nil_of_mem (hall ▸ h.start_mem)
  · intro c hc a ha b
    rcases List.mem_append.1 hc with hc | hc
    · exact hparts.strong c hc a ha b
    · rw [List.mem_singleton.1 hc] at ha ⊢
      have hsa := ((h.mem_iff horder hparts hlater a).1 ha).2
      rw [h.mem_iff horder hparts hlater b]
      exact and_congr_right fun _ => ⟨hsa.symm.trans, hsa.trans⟩

omit [DecidableEq α] in
/-- Before a search. -/
theorem Collecting.init {node : α} (hnode : node ∈ nodes) (hfresh : node ∉ earlier) :
    Collecting edges nodes earlier node [node] [] (node :: earlier) := by
  constructor
  · intro n
    rw [List.mem_cons, List.nil_append, List.mem_singleton]
    exact or_comm
  · exact List.nodup_singleton node
  · intro n hn
    rw [List.mem_singleton.1 hn]
    exact hfresh
  · intro n hn
    rw [List.mem_singleton.1 hn]
    exact hnode
  · intro n hn
    rw [List.mem_singleton.1 hn]
    exact .refl
  · exact fun a ha => absurd ha List.not_mem_nil
  · exact List.mem_singleton_self node

/-- What comes behind a node in a list comes after the split there. -/
theorem mem_of_idxOf_lt {l done : List α} {node n : α} (hnodup : (l ++ node :: done).Nodup)
    (hn : n ∈ l ++ node :: done) (hlt : (l ++ node :: done).idxOf node < (l ++ node :: done).idxOf n) : n ∈ done := by
  have hout : node ∉ l := fun hmem => (List.nodup_append.1 hnodup).2.2 node hmem node List.mem_cons_self rfl
  rw [List.mem_append, List.mem_cons] at hn
  rcases hn with hn | rfl | hn
  · have hbound := List.idxOf_lt_length_iff.2 hn
    rw [List.idxOf_append_of_mem hn, List.idxOf_append_of_notMem hout] at hlt
    omega
  · exact absurd hlt (Nat.lt_irrefl _)
  · exact hn

/-- **The second searches, one after the other**, through the nodes from the one that finished last. -/
theorem Partitioned.run (hback : Reverses edges back nodes) {order : List α} (horder : Settled edges nodes order)
    (l : List α) {done : List α} {comps : List (List α)} (hsplit : order.reverse = done ++ l)
    (hdone : ∀ n ∈ done, n ∈ assigned) (h : Partitioned edges nodes comps assigned) :
    ∃ comps' assigned', Partitioned edges nodes comps' assigned' ∧ (∀ n ∈ order, n ∈ assigned') ∧
      ∀ fuel, nodes.length ≤ fuel → l.foldl (fun found node => if node ∈ found.2 then found
        else
          let collected := collect back fuel [node] ([], node :: found.2)
          (found.1 ++ [collected.1], collected.2)) (comps, assigned) = (comps', assigned') := by
  induction l generalizing done comps assigned with
  | nil =>
    refine ⟨comps, assigned, h, fun n hn => hdone n ?_, fun _ _ => rfl⟩
    rw [← List.mem_reverse, hsplit, List.append_nil] at hn
    exact hn
  | cons node l ih =>
    have hsplit' : order.reverse = (done ++ [node]) ++ l := by
      rw [hsplit, List.append_assoc, List.singleton_append]
    have hdone' : ∀ assigned₁ : List α, (∀ n ∈ assigned, n ∈ assigned₁) → node ∈ assigned₁ →
        ∀ n ∈ done ++ [node], n ∈ assigned₁ := by
      intro assigned₁ hsub hnode n hn
      rcases List.mem_append.1 hn with hn | hn
      · exact hsub n (hdone n hn)
      · rw [List.mem_singleton.1 hn]
        exact hnode
    by_cases hassigned : node ∈ assigned
    · obtain ⟨comps', assigned', hend, hall, hrun⟩ := ih hsplit' (hdone' _ (fun _ hn => hn) hassigned) h
      refine ⟨comps', assigned', hend, hall, fun fuel hle => ?_⟩
      rw [List.foldl_cons, if_pos hassigned]
      exact hrun fuel hle
    · have horder' : order = l.reverse ++ node :: done.reverse := by
        have hreverse := congrArg List.reverse hsplit
        rw [List.reverse_reverse, List.reverse_append, List.reverse_cons, List.append_assoc,
          List.singleton_append] at hreverse
        exact hreverse
      have hnode : node ∈ nodes := by
        rw [← horder.mem_iff, horder']
        exact List.mem_append_right _ List.mem_cons_self
      have hlater : ∀ n ∈ order, order.idxOf node < order.idxOf n → n ∈ assigned := by
        intro n hn hlt
        have hnodup := horder.nodup
        rw [horder'] at hn hlt hnodup
        exact hdone n (List.mem_reverse.1 (mem_of_idxOf_lt hnodup hn hlt))
      obtain ⟨comp, assigned₁, hcollected, hcollect⟩ := (Collecting.init hnode hassigned).run hback
      have hsub : ∀ n ∈ assigned, n ∈ assigned₁ := fun n hn => (hcollected.assigned_iff n).2 (.inl hn)
      have hmem : node ∈ assigned₁ := (hcollected.assigned_iff node).2 (.inr hcollected.start_mem)
      obtain ⟨comps', assigned', hend, hall, hrun⟩ :=
        ih hsplit' (hdone' _ hsub hmem) (h.snoc horder hcollected hlater)
      refine ⟨comps', assigned', hend, hall, fun fuel hle => ?_⟩
      rw [List.foldl_cons, if_neg hassigned, hcollect fuel (Nat.le_trans List.countP_le_length hle)]
      exact hrun fuel hle

/-- **Kosaraju's algorithm**: the components are a partition of the nodes, and two nodes share one if and only if each
    reaches the other; the result is the same for all fuel that is enough. -/
theorem components_spec (hnodup : nodes.Nodup) (hclosed : ∀ a ∈ nodes, ∀ b ∈ edges a, b ∈ nodes)
    (hback : Reverses edges back nodes) :
    ∃ comps : List (List α), comps.flatten.Perm nodes ∧ (∀ comp ∈ comps, comp ≠ []) ∧
      (∀ a ∈ nodes, ∀ b ∈ nodes, (∃ comp ∈ comps, a ∈ comp ∧ b ∈ comp) ↔ Mutual edges a b) ∧
      ∀ fuel fuel', 2 * nodes.length ≤ fuel → nodes.length ≤ fuel' →
        (components back fuel' (finishOrder edges fuel nodes).reverse).1 = comps := by
  obtain ⟨order, horder, hfinish⟩ := settled_finishOrder hclosed
  have hempty : Partitioned edges nodes [] [] := by
    constructor <;> simp
  obtain ⟨comps, assigned, hend, hall, hrun⟩ :=
    hempty.run hback horder order.reverse rfl (fun _ hn => absurd hn List.not_mem_nil)
  have hmem : ∀ n, n ∈ comps.flatten ↔ n ∈ nodes := by
    intro n
    constructor
    · intro hn
      obtain ⟨comp, hcomp, hn⟩ := List.mem_flatten.1 hn
      exact ((hend.strong comp hcomp n hn n).1 hn).1
    · intro hn
      exact (hend.assigned_iff n).1 (hall n ((horder.mem_iff n).2 hn))
  refine ⟨comps, (List.perm_ext_iff_of_nodup hend.nodup hnodup).2 hmem, hend.ne_nil, fun a ha b hb => ⟨?_, ?_⟩, ?_⟩
  · rintro ⟨comp, hcomp, ha, hb⟩
    exact ((hend.strong comp hcomp a ha b).1 hb).2
  · intro hab
    obtain ⟨comp, hcomp, ha⟩ := List.mem_flatten.1 ((hmem a).2 ha)
    exact ⟨comp, hcomp, ha, (hend.strong comp hcomp a ha b).2 ⟨hb, hab⟩⟩
  · intro fuel fuel' hle hle'
    rw [hfinish fuel hle, components, hrun fuel' hle']

end Collect

end Kosaraju
end Lib
end RobotsixMill
