import Mathlib.Data.List.Perm.Subperm
import Mathlib.Order.Lattice

/-!
# `Lib.MinQueue` — a priority queue scanned for its first usable entry

A queue is a list; `popMin` takes the entry with the least key. `popUntil` pops until an entry can be
used, forgets dead entries on the way, and puts the entries it skipped back. Whatever the order the list
is kept in, the outcome is determined by the keys (`popUntil_spec`): the entry used is the least one
that can be used, and no live entry is lost.
-/

namespace RobotsixMill
namespace Lib

variable {α κ : Type*} [LinearOrder κ] (key : α → κ)

/-- The entry with the least key (the first of equal ones) and the others. -/
def popMin : List α → Option (α × List α)
  | [] => none
  | a :: l =>
    match popMin l with
    | none => some (a, [])
    | some (b, rest) => if key a ≤ key b then some (a, l) else some (b, a :: rest)

/-- Pop until `use` accepts an entry. Entries that are `dead` are dropped; `skipped` collects the others
    and is put back at the end. -/
def popUntil (dead use : α → Bool) : Nat → List α → List α → Option α × List α
  | 0, skipped, l => (none, l ++ skipped)
  | fuel + 1, skipped, l =>
    match popMin key l with
    | none => (none, skipped)
    | some (a, rest) =>
      if dead a then popUntil dead use fuel skipped rest
      else if use a then (some a, rest ++ skipped)
      else popUntil dead use fuel (a :: skipped) rest

variable {key}

theorem popMin_eq_none {l : List α} (h : popMin key l = none) : l = [] := by
  cases l with
  | nil => rfl
  | cons a l =>
      unfold popMin at h
      split at h
      · cases h
      · split at h <;> cases h

theorem perm_of_popMin {l rest : List α} {a : α} (h : popMin key l = some (a, rest)) :
    (a :: rest).Perm l := by
  induction l generalizing a rest with
  | nil => cases h
  | cons x l ih =>
      unfold popMin at h
      split at h
      · rename_i hnone
        cases h
        rw [popMin_eq_none hnone]
      · rename_i b rest' hsome
        split at h
        · cases h
          exact List.Perm.refl _
        · cases h
          exact (List.Perm.swap _ _ _).trans ((ih hsome).cons x)

theorem le_of_popMin {l rest : List α} {a : α} (h : popMin key l = some (a, rest)) :
    ∀ x ∈ l, key a ≤ key x := by
  induction l generalizing a rest with
  | nil => cases h
  | cons y l ih =>
      unfold popMin at h
      intro x hx
      split at h
      · rename_i hnone
        cases h
        rw [popMin_eq_none hnone, List.mem_singleton] at hx
        rw [hx]
      · rename_i b rest' hsome
        split at h
        · rename_i hle
          cases h
          rcases List.mem_cons.1 hx with rfl | hx
          · exact le_rfl
          · exact le_trans hle (ih hsome x hx)
        · rename_i hle
          cases h
          rcases List.mem_cons.1 hx with rfl | hx
          · exact le_of_lt (not_le.1 hle)
          · exact ih hsome x hx

/-- An entry that is put behind does not change which one is least. -/
theorem popMin_append {l rest : List α} {a x : α} (h : popMin key l = some (a, rest)) (hle : key a ≤ key x) :
    popMin key (l ++ [x]) = some (a, rest ++ [x]) := by
  induction l generalizing a rest with
  | nil => cases h
  | cons y l ih =>
      rw [List.cons_append]
      unfold popMin at h ⊢
      cases hl : popMin key l with
      | none =>
        rw [hl] at h
        obtain ⟨rfl, rfl⟩ := Prod.mk.inj (Option.some.inj h)
        rw [popMin_eq_none hl]
        show (if key y ≤ key x then _ else _) = _
        rw [if_pos hle]
      | some found =>
        obtain ⟨b, rest'⟩ := found
        rw [hl] at h
        dsimp only at h
        by_cases hyb : key y ≤ key b
        · rw [if_pos hyb] at h
          obtain ⟨rfl, rfl⟩ := Prod.mk.inj (Option.some.inj h)
          cases hlx : popMin key (l ++ [x]) with
          | none => cases List.append_ne_nil_of_right_ne_nil l (List.cons_ne_nil x []) (popMin_eq_none hlx)
          | some found =>
            obtain ⟨c, others⟩ := found
            have hc : key y ≤ key c := by
              have hmem : c ∈ l ++ [x] := (perm_of_popMin hlx).subset List.mem_cons_self
              rcases List.mem_append.1 hmem with hmem | hmem
              · exact le_trans hyb (le_of_popMin hl c hmem)
              · rw [List.mem_singleton.1 hmem]
                exact hle
            dsimp only
            rw [if_pos hc]
        · rw [if_neg hyb] at h
          obtain ⟨rfl, rfl⟩ := Prod.mk.inj (Option.some.inj h)
          rw [ih hl hle]
          dsimp only
          rw [if_neg hyb, List.cons_append]

/-- What a scan of `l` returns: `found`, and the queue `left` afterwards. -/
structure Scanned (key : α → κ) (dead use : α → Bool) (l : List α) (found : Option α)
    (left : List α) : Prop where
  /-- Nothing is added or doubled. -/
  subperm : (found.toList ++ left).Subperm l
  /-- Every live entry is still there, or was found. -/
  kept : ∀ x ∈ l, dead x = false → x ∈ found.toList ++ left
  live : ∀ a, found = some a → dead a = false
  usable : ∀ a, found = some a → use a = true
  least : ∀ a, found = some a → ∀ x ∈ l, dead x = false → use x = true → key a ≤ key x
  none_usable : found = none → ∀ x ∈ l, dead x = false → use x = false

theorem Scanned.nothing {dead use : α → Bool} {l : List α} (h : ∀ x ∈ l, use x = false) :
    Scanned key dead use l none l where
  subperm := List.Subperm.refl l
  kept := fun x hx _ => hx
  live := by
    intro a ha
    cases ha
  usable := by
    intro a ha
    cases ha
  least := by
    intro a ha
    cases ha
  none_usable := fun _ x hx _ => h x hx

/-- **The scan.** With one round for each entry it finds the least usable live entry, if there is one. -/
theorem popUntil_spec {dead use : α → Bool} {fuel : Nat} {skipped l : List α}
    (hfuel : l.length ≤ fuel) (hskip : ∀ x ∈ skipped, use x = false) :
    Scanned key dead use (l ++ skipped) (popUntil key dead use fuel skipped l).1
      (popUntil key dead use fuel skipped l).2 := by
  induction fuel generalizing skipped l with
  | zero =>
      have hl : l = [] := List.length_eq_zero_iff.1 (Nat.le_zero.1 hfuel)
      subst hl
      exact .nothing hskip
  | succ fuel ih =>
      unfold popUntil
      cases hpop : popMin key l with
      | none =>
          have hl := popMin_eq_none hpop
          subst hl
          exact .nothing hskip
      | some popped =>
          obtain ⟨a, rest⟩ := popped
          have hperm := perm_of_popMin hpop
          have hlen : rest.length ≤ fuel := by
            have := hperm.length_eq
            rw [List.length_cons] at this
            omega
          dsimp only
          by_cases hdead : dead a = true
          · -- a dead entry goes away, whatever is found afterwards
            rw [if_pos hdead]
            have hs := ih hlen hskip
            have hall : ∀ x ∈ l ++ skipped, dead x = false → x ∈ rest ++ skipped := by
              intro x hx hlive
              rcases List.mem_append.1 hx with hx | hx
              · rcases List.mem_cons.1 (hperm.mem_iff.2 hx) with rfl | hx
                · rw [hdead] at hlive
                  cases hlive
                · exact List.mem_append_left _ hx
              · exact List.mem_append_right _ hx
            refine ⟨hs.subperm.trans ?_, ?_, hs.live, hs.usable, ?_, ?_⟩
            · have hrest : rest.Subperm l := (List.sublist_cons_self a rest).subperm.trans hperm.subperm
              exact (List.subperm_append_right skipped).2 hrest
            · exact fun x hx hlive => hs.kept x (hall x hx hlive) hlive
            · exact fun b hb x hx hlive => hs.least b hb x (hall x hx hlive) hlive
            · exact fun hb x hx hlive => hs.none_usable hb x (hall x hx hlive) hlive
          · rw [if_neg hdead]
            have hlive : dead a = false := by simpa using hdead
            by_cases huse : use a = true
            · rw [if_pos huse]
              have hperm' : (a :: (rest ++ skipped)).Perm (l ++ skipped) := hperm.append_right skipped
              refine ⟨hperm'.subperm, fun x hx _ => hperm'.mem_iff.2 hx, ?_, ?_, ?_, ?_⟩
              · rintro b ⟨⟩
                exact hlive
              · rintro b ⟨⟩
                exact huse
              · rintro b ⟨⟩ x hx - hux
                rcases List.mem_append.1 hx with hx | hx
                · exact le_of_popMin hpop x hx
                · rw [hskip x hx] at hux
                  cases hux
              · intro h
                cases h
            · rw [if_neg huse]
              have hskip' : ∀ x ∈ a :: skipped, use x = false := by
                intro x hx
                rcases List.mem_cons.1 hx with rfl | hx
                · simpa using huse
                · exact hskip x hx
              have hs := ih hlen hskip'
              -- skipping only moves the entry to the other list
              have hperm' : (rest ++ a :: skipped).Perm (l ++ skipped) :=
                List.perm_middle.trans (hperm.append_right skipped)
              refine ⟨hs.subperm.trans hperm'.subperm, ?_, hs.live, hs.usable, ?_, ?_⟩
              · exact fun x hx h => hs.kept x (hperm'.mem_iff.2 hx) h
              · exact fun b hb x hx h => hs.least b hb x (hperm'.mem_iff.2 hx) h
              · exact fun hb x hx h => hs.none_usable hb x (hperm'.mem_iff.2 hx) h

end Lib
end RobotsixMill
