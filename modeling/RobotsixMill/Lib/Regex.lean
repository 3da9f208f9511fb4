import Mathlib.Data.List.Infix

/-!
# `Lib.Regex` — backtracking pattern matching

A matcher gives everything that a text can be left with behind a match at its start, in the order in which a
backtracking engine comes to it. The first one counts, so that greedy and lazy repetition differ in the order only.

- `one`, `lit`, `seq`, `alt`, `many`, `manyLazy`, `plus`, `upTo`, `rep`, `test` — patterns, built up from sets of
  characters;
- `search`, `findAll` — the first match in a text, and all of them from left to right without overlap;
- `Grouped` — patterns with groups, and what these take;
- `search_append`, `search_eq_none_iff` — where the first match is, and where there is none;
- `Takes` — matches are made of characters of one kind;
- `replaceAll` — a text with all of its matches replaced; `replaceFrom_cons`, `replaceFrom_match` — one after the other.
-/

namespace RobotsixMill
namespace Lib

/-- What a text can be left with behind a match at its start, the preferred one first. -/
abbrev Matcher (α : Type*) := List α → List (List α)

namespace Matcher

variable {α : Type*}

/-- One character of the set. -/
def one (p : α → Bool) : Matcher α
  | [] => []
  | a :: as => if p a then [as] else []

/-- This text. -/
def lit [DecidableEq α] (word : List α) : Matcher α :=
  fun as => if word.isPrefixOf as then [as.drop word.length] else []

def seq (m m' : Matcher α) : Matcher α := fun as => (m as).flatMap m'

/-- `m|m'`. -/
def alt (m m' : Matcher α) : Matcher α := fun as => m as ++ m' as

/-- `p*`. -/
def many (p : α → Bool) : Matcher α
  | [] => [[]]
  | a :: as => if p a then many p as ++ [a :: as] else [a :: as]

/-- `p*?`. -/
def manyLazy (p : α → Bool) : Matcher α
  | [] => [[]]
  | a :: as => (a :: as) :: if p a then manyLazy p as else []

/-- `p+`. -/
def plus (p : α → Bool) : Matcher α := seq (one p) (many p)

/-- `p{0,n}`. -/
def upTo (p : α → Bool) : Nat → Matcher α
  | 0, as => [as]
  | _ + 1, [] => [[]]
  | n + 1, a :: as => if p a then upTo p n as ++ [a :: as] else [a :: as]

/-- `m*`, at most `n` times. -/
def rep (m : Matcher α) : Nat → Matcher α
  | 0, as => [as]
  | n + 1, as => (m as).flatMap (rep m n) ++ [as]

/-- A condition on what follows. -/
def test (p : List α → Bool) : Matcher α := fun as => if p as then [as] else []

/-! ## Matches in a text -/

/-- The first match. -/
def search (m : Matcher α) : List α → Option (List α)
  | [] => (m []).head?.map fun _ => []
  | a :: as =>
    match (m (a :: as)).head? with
    | some rest => .some ((a :: as).take ((a :: as).length - rest.length))
    | none => search m as

/-- All matches, after one of which `skip` characters are still to come; an empty match does not count. -/
def findAllFrom (m : Matcher α) : Nat → List α → List (List α)
  | _, [] => []
  | skip + 1, _ :: as => findAllFrom m skip as
  | 0, a :: as =>
    match (m (a :: as)).head? with
    | some rest =>
      -- what is left tells how long the match is
      if rest.length < (a :: as).length then
        (a :: as).take ((a :: as).length - rest.length) :: findAllFrom m (as.length - rest.length) as
      else findAllFrom m 0 as
    | none => findAllFrom m 0 as

def findAll (m : Matcher α) (as : List α) : List (List α) := findAllFrom m 0 as

/-! ## Groups -/

/-- What the groups of a pattern take, and what is left behind a match; a group that takes no part has nothing. -/
abbrev Grouped (α : Type*) := List α → List (List (Option (List α)) × List α)

namespace Grouped

/-- A part without a group. -/
def plain (m : Matcher α) : Grouped α := fun as => (m as).map fun rest => ([], rest)

/-- `(m)`. -/
def group (m : Matcher α) : Grouped α :=
  fun as => (m as).map fun rest => ([some (as.take (as.length - rest.length))], rest)

def andThen (g g' : Grouped α) : Grouped α :=
  fun as => (g as).flatMap fun x => (g' x.2).map fun y => (x.1 ++ y.1, y.2)

/-- The groups of the first match in a text behind the character `last`, which begins where `starts` allows it. -/
def searchFrom (starts : Option α → Bool) (g : Grouped α) : Option α → List α → Option (List (Option (List α)))
  | last, [] => if starts last then (g []).head?.map Prod.fst else none
  | last, a :: as =>
    match if starts last then (g (a :: as)).head? else none with
    | some (groups, _) => some groups
    | none => searchFrom starts g (some a) as

end Grouped

/-! ## Replacing matches -/

/-- A text behind the character `last`, of whose first characters `skip` belong to the match before, with its matches
    replaced. A match begins only where `starts` allows it, and an empty one does not count. -/
def replaceFrom (starts : Option α → Bool) (m : Matcher α) (new : List α) : Option α → Nat → List α → List α
  | _, _, [] => []
  | _, skip + 1, a :: as => replaceFrom starts m new (some a) skip as
  | last, 0, a :: as =>
    match if starts last then (m (a :: as)).head? else none with
    | some rest =>
      if rest.length < (a :: as).length then
        new ++ replaceFrom starts m new (some a) (as.length - rest.length) as
      else a :: replaceFrom starts m new (some a) 0 as
    | none => a :: replaceFrom starts m new (some a) 0 as

def replaceAll (starts : Option α → Bool) (m : Matcher α) (new as : List α) : List α :=
  replaceFrom starts m new none 0 as

/-! ## The first match -/

theorem head?_many (p : α → Bool) (as : List α) : (many p as).head? = some (as.dropWhile p) := by
  induction as with
  | nil => rfl
  | cons a as ih =>
    unfold many
    -- the set takes the first character, or the repetition is over
    by_cases ha : p a = true
    · rw [if_pos ha, List.dropWhile_cons_of_pos ha, List.head?_append, ih]
      rfl
    · rw [if_neg ha, List.dropWhile_cons_of_neg ha]
      rfl

theorem plus_cons (p : α → Bool) (a : α) (as : List α) : plus p (a :: as) = if p a then many p as else [] := by
  unfold plus seq
  rw [one]
  by_cases ha : p a = true
  · rw [if_pos ha, if_pos ha, List.flatMap_singleton]
  · rw [if_neg ha, if_neg ha, List.flatMap_nil]

theorem lit_append [DecidableEq α] (word rest : List α) : lit word (word ++ rest) = [rest] := by
  rw [lit, if_pos (List.isPrefixOf_iff_prefix.2 (List.prefix_append word rest)), List.drop_left]

theorem lit_eq_nil [DecidableEq α] {word as : List α} (h : ¬ word <+: as) : lit word as = [] := by
  rw [lit, if_neg fun hbegins => h (List.isPrefixOf_iff_prefix.1 hbegins)]

/-- A word is matched where the text begins with it. -/
theorem mem_lit [DecidableEq α] {word as rest : List α} : rest ∈ lit word as ↔ as = word ++ rest := by
  constructor
  · intro hrest
    by_cases hbegins : word <+: as
    · obtain ⟨behind, rfl⟩ := hbegins
      rw [lit_append, List.mem_singleton] at hrest
      rw [hrest]
    · rw [lit_eq_nil hbegins] at hrest
      cases hrest
  · rintro rfl
    rw [lit_append]
    exact List.mem_singleton_self rest

section Search

variable {m : Matcher α} {before rest as : List α}

/-- The search goes on behind a text in which no match begins. -/
theorem search_append (h : ∀ pre suf, before = pre ++ suf → suf ≠ [] → m (suf ++ rest) = []) :
    search m (before ++ rest) = search m rest := by
  induction before with
  | nil => rfl
  | cons a before ih =>
    -- no match begins at the first character
    have hfirst : m (a :: (before ++ rest)) = [] := h [] (a :: before) rfl (List.cons_ne_nil _ _)
    rw [List.cons_append, search, hfirst]
    exact ih fun pre suf heq hne => h (a :: pre) suf (by rw [heq]; rfl) hne

/-- A match at the start is the first one. -/
theorem search_of_head? {a : α} (h : (m (a :: as)).head? = some rest) :
    search m (a :: as) = some ((a :: as).take ((a :: as).length - rest.length)) := by
  rw [search, h]

theorem search_eq_none_iff : search m as = none ↔ ∀ pre suf, as = pre ++ suf → m suf = [] := by
  induction as with
  | nil =>
    rw [search, Option.map_eq_none_iff, List.head?_eq_none_iff]
    constructor
    · intro h pre suf heq
      rw [(List.append_eq_nil_iff.1 heq.symm).2, h]
    · exact fun h => h [] [] rfl
  | cons a as ih =>
    rw [search]
    cases hhead : (m (a :: as)).head? with
    | some rest =>
      refine iff_of_false (Option.some_ne_none _) fun h => ?_
      rw [h [] (a :: as) rfl] at hhead
      cases hhead
    | none =>
      dsimp only
      rw [ih]
      constructor
      · intro h pre suf heq
        cases pre with
        | nil =>
          rw [← List.head?_eq_none_iff, ← show a :: as = suf from heq]
          exact hhead
        | cons b pre => exact h pre suf (List.cons.inj heq).2
      · exact fun h pre suf heq => h (a :: pre) suf (by rw [heq]; rfl)

end Search

/-! ## The characters of a match -/

/-- What is matched is made of such characters. -/
def Takes (p : α → Prop) (m : Matcher α) : Prop := ∀ as, ∀ rest ∈ m as, ∃ taken, as = taken ++ rest ∧ ∀ a ∈ taken, p a

variable {p : α → Prop} {m m' : Matcher α}

theorem takes_lit [DecidableEq α] {word : List α} (h : ∀ a ∈ word, p a) : Takes p (lit word) := by
  intro as rest hrest
  exact ⟨word, mem_lit.1 hrest, h⟩

theorem Takes.seq (h : Takes p m) (h' : Takes p m') : Takes p (seq m m') := by
  intro as rest hrest
  obtain ⟨mid, hmid, hbehind⟩ := List.mem_flatMap.1 hrest
  obtain ⟨taken, rfl, htaken⟩ := h as mid hmid
  obtain ⟨taken', rfl, htaken'⟩ := h' mid rest hbehind
  exact ⟨taken ++ taken', (List.append_assoc ..).symm, List.forall_mem_append.2 ⟨htaken, htaken'⟩⟩

/-- Nothing is taken. -/
theorem takes_nothing (as : List α) : ∃ taken, as = taken ++ as ∧ ∀ a ∈ taken, p a :=
  ⟨[], rfl, fun _ h => absurd h List.not_mem_nil⟩

theorem takes_many {q : α → Bool} (h : ∀ a, q a = true → p a) : Takes p (many q) := by
  intro as
  induction as with
  | nil =>
    intro rest hrest
    obtain rfl := List.mem_singleton.1 hrest
    exact takes_nothing []
  | cons a as ih =>
    intro rest hrest
    unfold many at hrest
    split at hrest
    · rename_i hq
      rcases List.mem_append.1 hrest with hrest | hrest
      · obtain ⟨taken, heq, htaken⟩ := ih rest hrest
        exact ⟨a :: taken, by rw [heq]; rfl, List.forall_mem_cons.2 ⟨h a hq, htaken⟩⟩
      · obtain rfl := List.mem_singleton.1 hrest
        exact takes_nothing _
    · obtain rfl := List.mem_singleton.1 hrest
      exact takes_nothing _

theorem takes_manyLazy {q : α → Bool} (h : ∀ a, q a = true → p a) : Takes p (manyLazy q) := by
  intro as
  induction as with
  | nil =>
    intro rest hrest
    obtain rfl := List.mem_singleton.1 hrest
    exact takes_nothing []
  | cons a as ih =>
    intro rest hrest
    unfold manyLazy at hrest
    rcases List.mem_cons.1 hrest with rfl | hrest
    · exact takes_nothing _
    · split at hrest
      · rename_i hq
        obtain ⟨taken, heq, htaken⟩ := ih rest hrest
        exact ⟨a :: taken, by rw [heq]; rfl, List.forall_mem_cons.2 ⟨h a hq, htaken⟩⟩
      · cases hrest

/-- Every match ends with this character. -/
def EndsWith (a : α) (m : Matcher α) : Prop := ∀ as, ∀ rest ∈ m as, ∃ init, as = init ++ a :: rest

theorem endsWith_lit [DecidableEq α] (a : α) : EndsWith a (lit [a]) := by
  intro as rest hrest
  obtain rfl := mem_lit.1 hrest
  exact ⟨[], rfl⟩

theorem Takes.endsWith (h : Takes p m) {a : α} (h' : EndsWith a m') : EndsWith a (Matcher.seq m m') := by
  intro as rest hrest
  obtain ⟨mid, hmid, hbehind⟩ := List.mem_flatMap.1 hrest
  obtain ⟨taken, rfl, -⟩ := h as mid hmid
  obtain ⟨init, rfl⟩ := h' mid rest hbehind
  exact ⟨taken ++ init, (List.append_assoc ..).symm⟩

/-! ## One match after the other -/

section ReplaceFrom

variable {starts : Option α → Bool} {new : List α} {last : Option α} {a : α} {as rest : List α}

/-- A character at which no match begins. -/
theorem replaceFrom_cons (h : starts last = true → (m (a :: as)).head? = none) :
    replaceFrom starts m new last 0 (a :: as) = a :: replaceFrom starts m new (some a) 0 as := by
  have hnone : (if starts last then (m (a :: as)).head? else none) = none := by
    split
    · rename_i hstarts
      exact h hstarts
    · rfl
  rw [replaceFrom, hnone]

theorem replaceFrom_skip (last : Option α) (mid rest : List α) :
    replaceFrom starts m new last mid.length (mid ++ rest) = replaceFrom starts m new (mid.getLast?.or last) 0 rest := by
  induction mid generalizing last with
  | nil => rfl
  | cons c mid ih =>
    rw [List.cons_append, List.length_cons, replaceFrom, ih, List.getLast?_cons]
    cases mid.getLast? <;> rfl

/-- A match that ends with the character `a`. -/
theorem replaceFrom_match {taken : List α} (hstarts : starts last = true)
    (h : (m (taken ++ a :: rest)).head? = some rest) :
    replaceFrom starts m new last 0 (taken ++ a :: rest) = new ++ replaceFrom starts m new (some a) 0 rest := by
  cases taken with
  | nil =>
    rw [List.nil_append] at h ⊢
    rw [replaceFrom, if_pos hstarts, h]
    dsimp only
    rw [if_pos (by rw [List.length_cons]; exact Nat.lt_succ_self _), Nat.sub_self]
  | cons b taken =>
    have htext : taken ++ a :: rest = (taken ++ [a]) ++ rest := by rw [List.append_assoc]; rfl
    rw [List.cons_append] at h ⊢
    rw [replaceFrom, if_pos hstarts, h]
    dsimp only
    have hlength : (taken ++ a :: rest).length - rest.length = (taken ++ [a]).length := by
      rw [htext, List.length_append, Nat.add_sub_cancel]
    rw [if_pos (by simp; omega), hlength, htext, replaceFrom_skip, List.getLast?_concat]
    rfl

end ReplaceFrom

/-! ## The first match of a sequence -/

section Seq

variable {as mid rest : List α}

theorem head?_seq (h : (m as).head? = some mid) (h' : (m' mid).head? = some rest) :
    (seq m m' as).head? = some rest := by
  obtain ⟨mids, hmids⟩ := List.head?_eq_some_iff.1 h
  rw [seq, hmids, List.flatMap_cons, List.head?_append, h']
  rfl

theorem seq_lit_append [DecidableEq α] (word as : List α) : seq (lit word) m (word ++ as) = m as := by
  rw [seq, lit_append, List.flatMap_singleton]

theorem seq_lit_eq_nil [DecidableEq α] {word : List α} (h : ¬ word <+: as) : seq (lit word) m as = [] := by
  rw [seq, lit_eq_nil h, List.flatMap_nil]

/-- A lazy repetition ends where what follows it matches first. -/
theorem head?_manyLazy_cons (a : α) (as : List α) : (seq (manyLazy fun _ => true) m (a :: as)).head? =
    (m (a :: as)).head?.or (seq (manyLazy fun _ => true) m as).head? := by
  rw [seq, manyLazy, if_pos rfl, List.flatMap_cons, List.head?_append]
  rfl

theorem head?_manyLazy_nil : (seq (manyLazy fun _ => true) m []).head? = (m []).head? := by
  rw [seq, manyLazy, List.flatMap_singleton]

end Seq

end Matcher
end Lib
end RobotsixMill
