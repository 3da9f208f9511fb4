import Mathlib.Algebra.GroupWithZero.Nat
import Mathlib.Logic.Relation
import Mathlib.Data.List.Chain
import Mathlib.Data.List.Nodup
import Mathlib.Data.Set.Finite.Lemmas
import Mathlib.Order.WellFounded

/-!
# `Lib.Acyclic` — cycles in a graph, and a search for them

Graphs are relations `r : α → α → Prop`, or successor lists `edges : α → List α`.

- `AcyclicFrom r a` — no cycle can be reached from `a`; on finitely many vertices such a vertex leads to a
  sink (`AcyclicFrom.exists_sink`).
- `Acyclic r` — there is no cycle; a numbering that goes down along the edges excludes them
  (`acyclic_of_rank`), vertices in between can be bypassed (`acyclic_of_bypass`), and new edges out of one
  vertex close a cycle only through that vertex (`Acyclic.update`).
- `walkBack` — depth-first search for a path back to a vertex, with one set of visited vertices. A search
  that ends without a path shows that there is none (`not_cycle_of_walkBack`), a path that it returns is one
  (`path_of_walkBack`), and enough fuel makes it end (`walkBack_ne_none`).
-/

namespace RobotsixMill
namespace Lib
open Relation

section Graph

variable {α : Type*} {r r' : α → α → Prop}

/-- No cycle can be reached from `a`. -/
def AcyclicFrom (r : α → α → Prop) (a : α) : Prop := ∀ b, ReflTransGen r a b → ¬ TransGen r b b

/-- There is no cycle. -/
def Acyclic (r : α → α → Prop) : Prop := ∀ a, ¬ TransGen r a a

theorem acyclicFrom_of_sink {a : α} (h : ∀ b, ¬ r a b) : AcyclicFrom r a := by
  intro b hab hb
  rcases hab.cases_head with rfl | ⟨c, hac, -⟩
  · obtain ⟨c, hac, -⟩ := TransGen.head'_iff.1 hb
    exact h c hac
  · exact h c hac

/-- **From a vertex that reaches no cycle, following edges ends in a sink**, as long as only finitely many
    vertices can be reached. -/
theorem AcyclicFrom.exists_sink {a : α} (h : AcyclicFrom r a) (hfin : {b | ReflTransGen r a b}.Finite) :
    ∃ b, ReflTransGen r a b ∧ ∀ c, ¬ r b c := by
  have := hfin.to_subtype
  -- on the reached vertices the paths are a strict order with finitely many elements
  let below : {b | ReflTransGen r a b} → {b | ReflTransGen r a b} → Prop := fun x y => TransGen r y x
  have htrans : IsTrans _ below := ⟨fun _ _ _ hxy hyz => TransGen.trans hyz hxy⟩
  have hirrefl : Std.Irrefl below := ⟨fun x hx => h x x.2 hx⟩
  have hwf : WellFounded below := Finite.wellFounded_of_trans_of_irrefl below
  obtain ⟨b, -, hmin⟩ := hwf.has_min Set.univ ⟨⟨a, .refl⟩, trivial⟩
  refine ⟨b, b.2, fun c hbc => ?_⟩
  exact hmin ⟨c, b.2.tail hbc⟩ trivial (TransGen.single hbc)

theorem Acyclic.mono (h : Acyclic r) (hsub : ∀ a b, r' a b → r a b) : Acyclic r' :=
  fun a ha => h a (TransGen.mono hsub a a ha)

/-- A numbering that goes down along every edge. -/
theorem acyclic_of_rank (rank : α → ℕ) (h : ∀ a b, r a b → rank b < rank a) : Acyclic r := by
  intro a ha
  have hdown : ∀ {x y}, TransGen r x y → rank y < rank x := by
    intro x y hxy
    induction hxy with
    | single hb => exact h _ _ hb
    | tail _ hbc ih => exact (h _ _ hbc).trans ih
  exact Nat.lt_irrefl _ (hdown ha)

/-- **Changing the edges out of `x`** closes a cycle only through `x`. -/
theorem Acyclic.update (h : Acyclic r) {x : α} (hsame : ∀ a b, a ≠ x → r' a b → r a b)
    (hx : ¬ TransGen r' x x) : Acyclic r' := by
  -- a path uses old edges only, or it passes through `x`
  have hpath : ∀ {a b}, TransGen r' a b → TransGen r a b ∨ (ReflTransGen r' a x ∧ TransGen r' x b) := by
    intro a b hab
    induction hab with
    | single hb =>
        by_cases ha : a = x
        · subst ha
          exact .inr ⟨.refl, .single hb⟩
        · exact .inl (.single (hsame _ _ ha hb))
    | @tail b c hab hbc ih =>
        by_cases hb : b = x
        · subst hb
          exact .inr ⟨hab.to_reflTransGen, .single hbc⟩
        · rcases ih with hold | ⟨hax, hxb⟩
          · exact .inl (hold.tail (hsame _ _ hb hbc))
          · exact .inr ⟨hax, hxb.tail hbc⟩
  intro a ha
  rcases hpath ha with hold | ⟨hax, hxa⟩
  · exact h a hold
  · exact hx (hxa.trans_left hax)

/-- Edges between vertices outside `S`: those of `r`, and the paths of two edges through `S`. -/
def Bypass (r : α → α → Prop) (S : α → Prop) (a b : α) : Prop :=
  ¬ S a ∧ ¬ S b ∧ (r a b ∨ ∃ s, S s ∧ r a s ∧ r s b)

/-- **Vertices that only lead elsewhere can be bypassed**: a graph without edges inside `S` is acyclic if
    what is left around `S` is. -/
theorem acyclic_of_bypass {S : α → Prop} (h : Acyclic (Bypass r S))
    (hS : ∀ a b, S a → r a b → ¬ S b) : Acyclic r := by
  have hpath : ∀ {a b}, ¬ S a → TransGen r a b →
      (¬ S b → TransGen (Bypass r S) a b) ∧
      (S b → ∃ y, ¬ S y ∧ ReflTransGen (Bypass r S) a y ∧ r y b) := by
    intro a b ha hab
    induction hab with
    | single hb => exact ⟨fun hnb => .single ⟨ha, hnb, .inl hb⟩, fun _ => ⟨a, ha, .refl, hb⟩⟩
    | @tail b c _ hbc ih =>
        by_cases hb : S b
        · obtain ⟨y, hy, hay, hyb⟩ := ih.2 hb
          have hc := hS b c hb hbc
          exact ⟨fun _ => TransGen.tail' hay ⟨hy, hc, .inr ⟨b, hb, hyb, hbc⟩⟩, fun h => absurd h hc⟩
        · have hab' := ih.1 hb
          exact ⟨fun hc => hab'.tail ⟨hb, hc, .inl hbc⟩, fun _ => ⟨b, hb, hab'.to_reflTransGen, hbc⟩⟩
  intro a ha
  by_cases hSa : S a
  · -- the next vertex lies on the cycle too, and outside `S`
    obtain ⟨c, hac, hca⟩ := TransGen.head'_iff.1 ha
    have hc := hS a c hSa hac
    exact h c ((hpath hc (TransGen.tail' hca hac)).1 hc)
  · exact h a ((hpath hSa ha).1 hSa)

/-- Edges into a set that nothing leaves, and that has no cycle of its own, close no cycle. -/
theorem Acyclic.of_exit (h : Acyclic r) {D : α → Prop} (hclosed : ∀ a b, D a → r' a b → D b)
    (hD : ∀ a, D a → ¬ TransGen r' a a) (hsame : ∀ a b, ¬ D a → ¬ D b → r' a b → r a b) : Acyclic r' := by
  have hin : ∀ {a b}, TransGen r' a b → D a → D b := by
    intro a b hab ha
    induction hab with
    | single hb => exact hclosed _ _ ha hb
    | tail _ hbc ih => exact hclosed _ _ ih hbc
  have hout : ∀ {a b}, TransGen r' a b → ¬ D b → TransGen r a b := by
    intro a b hab
    induction hab with
    | single hb =>
        intro hnb
        exact .single (hsame _ _ (fun ha => hnb (hclosed _ _ ha hb)) hnb hb)
    | tail _ hbc ih =>
        intro hnc
        have hnb := fun hb => hnc (hclosed _ _ hb hbc)
        exact (ih hnb).tail (hsame _ _ hnb hnc hbc)
  intro a ha
  by_cases hDa : D a
  · exact hD a hDa ha
  · exact h a (hout ha hDa)

end Graph

/-! ## Searching for a way back -/

section Search

variable {α : Type*} [DecidableEq α] {edges : α → List α} {target : α}

/-- Depth-first search for a path back to `target`: `nexts` are the successors of the last vertex of `path`
    that are yet to be tried, `seen` the vertices visited anywhere so far. Returns the path found, if any,
    and the visited vertices; `none` when the fuel is used up. -/
def walkBack (edges : α → List α) (target : α) :
    Nat → List α → List α → List α → Option (Option (List α) × List α)
  | 0, _, _, _ => none
  | _ + 1, [], _, seen => some (none, seen)
  | fuel + 1, x :: rest, path, seen =>
    if x = target then some (some (path ++ [x]), seen)
    else if x ∈ seen then walkBack edges target fuel rest path seen
    else
      match walkBack edges target fuel (edges x) (path ++ [x]) (x :: seen) with
      | none => none
      | some (some found, seen') => some (some found, seen')
      | some (none, seen') => walkBack edges target fuel rest path seen'

/-- What a search that finds nothing has visited: all that it was given, and with each vertex its
    successors, the target never among them. -/
structure Explored (edges : α → List α) (target : α) (nexts seen seen' : List α) : Prop where
  grows : seen ⊆ seen'
  nexts : ∀ x ∈ nexts, x ≠ target ∧ x ∈ seen'
  closed : ∀ v ∈ seen', v ∉ seen → ∀ y ∈ edges v, y ≠ target ∧ y ∈ seen'

theorem explored_of_walkBack {fuel : Nat} {nexts path seen seen' : List α}
    (h : walkBack edges target fuel nexts path seen = some (none, seen')) :
    Explored edges target nexts seen seen' := by
  induction fuel generalizing nexts path seen seen' with
  | zero => cases h
  | succ fuel ih =>
      cases nexts with
      | nil =>
          cases h
          exact ⟨List.Subset.refl _, fun x hx => absurd hx List.not_mem_nil, fun v hv hnot => absurd hv hnot⟩
      | cons x rest =>
          unfold walkBack at h
          split at h
          · cases h
          · rename_i hne
            split at h
            · rename_i hmem
              obtain ⟨hgrow, hnexts, hclosed⟩ := ih h
              refine ⟨hgrow, ?_, hclosed⟩
              intro y hy
              rcases List.mem_cons.1 hy with rfl | hy
              · exact ⟨hne, hgrow hmem⟩
              · exact hnexts y hy
            · split at h
              · cases h
              · cases h
              · rename_i seen₁ hsub
                obtain ⟨hgrow₁, hnexts₁, hclosed₁⟩ := ih hsub
                obtain ⟨hgrow, hnexts, hclosed⟩ := ih h
                have hx : x ∈ seen' := hgrow (hgrow₁ List.mem_cons_self)
                refine ⟨fun y hy => hgrow (hgrow₁ (List.mem_cons_of_mem _ hy)), ?_, ?_⟩
                · intro y hy
                  rcases List.mem_cons.1 hy with rfl | hy
                  · exact ⟨hne, hx⟩
                  · exact hnexts y hy
                · -- a vertex is new in the search below `x`, or in the one after it
                  intro v hv hnot y hy
                  by_cases hv₁ : v ∈ seen₁
                  · by_cases hvx : v = x
                    · subst hvx
                      exact ⟨(hnexts₁ y hy).1, hgrow (hnexts₁ y hy).2⟩
                    · have hout : v ∉ x :: seen := by simp [hvx, hnot]
                      exact ⟨(hclosed₁ v hv₁ hout y hy).1, hgrow (hclosed₁ v hv₁ hout y hy).2⟩
                  · exact hclosed v hv hv₁ y hy

/-- **A search from the successors of `target` that finds nothing shows that no cycle passes through
    it.** -/
theorem not_cycle_of_walkBack {fuel : Nat} {nexts path seen' : List α} (hstart : edges target = nexts)
    (h : walkBack edges target fuel nexts path [] = some (none, seen')) :
    ¬ TransGen (fun a b => b ∈ edges a) target target := by
  subst hstart
  obtain ⟨-, hnexts, hclosed⟩ := explored_of_walkBack h
  have hreach : ∀ {b}, TransGen (fun a b => b ∈ edges a) target b → b ≠ target ∧ b ∈ seen' := by
    intro b hb
    induction hb with
    | single hb => exact hnexts _ hb
    | tail _ hbc ih => exact hclosed _ ih.2 List.not_mem_nil _ hbc
  intro hcycle
  exact (hreach hcycle).1 rfl

/-- **What the search returns** goes on from the path it was given and leads to `target` along edges. -/
theorem path_of_walkBack {fuel : Nat} {nexts path seen seen' found : List α} {v : α}
    (hlast : path.getLast? = some v) (hnexts : ∀ x ∈ nexts, x ∈ edges v)
    (hchain : path.IsChain fun a b => b ∈ edges a)
    (h : walkBack edges target fuel nexts path seen = some (some found, seen')) :
    (∃ more, found = path ++ more ∧ more.getLast? = some target) ∧ found.IsChain fun a b => b ∈ edges a := by
  have hstep : ∀ x ∈ nexts, (path ++ [x]).IsChain fun a b => b ∈ edges a := by
    intro x hx
    refine hchain.append (List.isChain_singleton x) fun a ha b hb => ?_
    obtain rfl := Option.some.inj (hlast.symm.trans ha)
    obtain rfl := Option.some.inj hb
    exact hnexts x hx
  induction fuel generalizing nexts path seen v with
  | zero => cases h
  | succ fuel ih =>
      cases nexts with
      | nil => cases h
      | cons x rest =>
          have hrest := fun y hy => hnexts y (List.mem_cons_of_mem x hy)
          have hrest' := fun y hy => hstep y (List.mem_cons_of_mem x hy)
          unfold walkBack at h
          split at h
          · rename_i hx
            cases h
            exact ⟨⟨[x], rfl, congrArg some hx⟩, hstep x List.mem_cons_self⟩
          · split at h
            · exact ih hlast hrest hchain h hrest'
            · split at h
              · cases h
              · rename_i found' seen₁ hsub
                cases h
                have hx := hstep x List.mem_cons_self
                have hbelow : ∀ y ∈ edges x, (path ++ [x] ++ [y]).IsChain fun a b => b ∈ edges a := by
                  intro y hy
                  refine hx.append (List.isChain_singleton y) fun a ha b hb => ?_
                  rw [List.getLast?_concat] at ha
                  obtain rfl := Option.some.inj ha
                  obtain rfl := Option.some.inj hb
                  exact hy
                obtain ⟨⟨more, rfl, hmore⟩, hfound⟩ := ih List.getLast?_concat (fun y hy => hy) hx hsub hbelow
                refine ⟨⟨x :: more, by rw [List.append_assoc, List.singleton_append], ?_⟩, hfound⟩
                rw [List.getLast?_cons, hmore]
                rfl
              · exact ih hlast hrest hchain h hrest'

/-! ### Fuel -/

/-- The fuel the vertices of `V` that are yet to be visited may take. -/
def unseenCost (edges : α → List α) (V seen : List α) : Nat :=
  ((V.filter fun v => !decide (v ∈ seen)).map fun v => (edges v).length + 1).sum

theorem unseenCost_anti {V seen seen' : List α} (h : seen ⊆ seen') :
    unseenCost edges V seen' ≤ unseenCost edges V seen := by
  unfold unseenCost
  induction V with
  | nil => exact Nat.le_refl _
  | cons v V ih =>
      by_cases hv : v ∈ seen
      · simpa [hv, h hv] using ih
      · by_cases hv' : v ∈ seen'
        · simp only [List.filter_cons, hv, hv', decide_true, decide_false, Bool.not_true, Bool.not_false,
            Bool.false_eq_true, if_false, if_true, List.map_cons, List.sum_cons]
          omega
        · simpa [hv, hv'] using ih

theorem unseenCost_visit {V seen : List α} {x : α} (hx : x ∈ V) (hnot : x ∉ seen) :
    unseenCost edges V (x :: seen) + ((edges x).length + 1) ≤ unseenCost edges V seen := by
  induction V with
  | nil => cases hx
  | cons v V ih =>
      have hmono : unseenCost edges V (x :: seen) ≤ unseenCost edges V seen :=
        unseenCost_anti (List.subset_cons_self x seen)
      unfold unseenCost at ih hmono ⊢
      by_cases hvx : v = x
      · subst hvx
        simp only [List.filter_cons, List.mem_cons, true_or, decide_true, Bool.not_true,
          Bool.false_eq_true, if_false, hnot, decide_false, Bool.not_false, if_true, List.map_cons,
          List.sum_cons] at hmono ⊢
        omega
      · have hxV : x ∈ V := (List.mem_cons.1 hx).resolve_left (Ne.symm hvx)
        have hstep := ih hxV
        by_cases hv : v ∈ seen
        · simpa [List.filter_cons, hvx, hv] using hstep
        · simp only [List.filter_cons, List.mem_cons, hvx, hv, or_self, decide_false, Bool.not_false,
            if_true, List.map_cons, List.sum_cons] at hstep ⊢
          omega

/-- **Enough fuel**: one unit for each vertex and each edge that can be met. -/
theorem walkBack_ne_none {V : List α} (hV : ∀ v, edges v ≠ [] → v ∈ V) {fuel : Nat}
    {nexts path seen : List α} (hfuel : nexts.length + 1 + unseenCost edges V seen ≤ fuel) :
    walkBack edges target fuel nexts path seen ≠ none := by
  induction fuel generalizing nexts path seen with
  | zero => omega
  | succ fuel ih =>
      cases nexts with
      | nil => simp [walkBack]
      | cons x rest =>
          rw [List.length_cons] at hfuel
          unfold walkBack
          split
          · simp
          · split
            · exact ih (by omega)
            · rename_i hnot
              have hsub : (edges x).length + 1 + unseenCost edges V (x :: seen) ≤ fuel := by
                by_cases hx : x ∈ V
                · have : unseenCost edges V (x :: seen) + _ ≤ _ := unseenCost_visit hx hnot
                  omega
                · -- a vertex outside `V` has no successors
                  have hempty : edges x = [] := by
                    by_contra hne
                    exact hx (hV x hne)
                  have : unseenCost edges V (x :: seen) ≤ unseenCost edges V seen :=
                    unseenCost_anti (List.subset_cons_self x seen)
                  rw [hempty, List.length_nil]
                  omega
              split
              · rename_i hnone
                exact absurd hnone (ih hsub)
              · simp
              · rename_i seen₁ hsome
                have hgrow := (explored_of_walkBack hsome).grows
                have : unseenCost edges V seen₁ ≤ unseenCost edges V seen :=
                  unseenCost_anti fun y hy => hgrow (List.mem_cons_of_mem x hy)
                exact ih (by omega)

end Search

end Lib
end RobotsixMill
