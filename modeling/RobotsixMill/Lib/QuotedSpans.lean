import Mathlib.Data.List.Infix

/-!
# `Lib.QuotedSpans` — values between quotes, found from the left and replaced

A finder gives the first value in a text, with what stands before it, up to its opening quote, and behind its closing
quote. Every value that is found is replaced by one and the same.

- `Finder` — a finder, with what it finds;
- `spans`, `replaceAll` — all values, and the text with every one of them replaced;
- `replaceAll_cases` — how many of them change, and the text then;
- `replaceAll_eq_iff` — the text is changed in one place that is quoted exactly if this is the only value to change.
-/

namespace RobotsixMill
namespace Lib

/-- A part of a text, with what stands before and behind it. -/
structure Span (α : Type*) where
  before : List α
  value : List α
  behind : List α
deriving DecidableEq

/-- The same part of a text with more before it. -/
def Span.shift {α : Type*} (more : List α) (s : Span α) : Span α := { s with before := more ++ s.before }

/-- The first value in a text: what stands before it, the value, and what is behind its closing quote. -/
structure Finder (α : Type*) where
  quote : α
  find : List α → Option (List α × List α × List α)
  /-- The value is between quotes, and has none. -/
  sound : ∀ {text before value rest}, find text = some (before, value, rest) →
    text = before ++ value ++ quote :: rest ∧ quote ∉ value ∧ ∃ init, before = init ++ [quote]

namespace Finder

variable {α : Type*} (f : Finder α)

/-- The values, at most `n` of them. -/
def spansUpTo : Nat → List α → List (Span α)
  | 0, _ => []
  | n + 1, text =>
    match f.find text with
    | none => []
    | some (before, value, rest) =>
      ⟨before, value, f.quote :: rest⟩ :: (spansUpTo n rest).map (Span.shift (before ++ value ++ [f.quote]))

def spans (text : List α) : List (Span α) := f.spansUpTo text.length text

/-- The text with the values replaced, at most `n` of them. -/
def replaceUpTo (new : List α) : Nat → List α → List α
  | 0, text => text
  | n + 1, text =>
    match f.find text with
    | none => text
    | some (before, _, rest) => before ++ new ++ f.quote :: replaceUpTo new n rest

def replaceAll (new text : List α) : List α := f.replaceUpTo new text.length text

variable {f}

theorem length_lt_of_find {text before value rest : List α} (h : f.find text = some (before, value, rest)) :
    rest.length < text.length := by
  rw [(f.sound h).1, List.length_append, List.length_cons]
  omega

theorem find_nil : f.find [] = none := by
  cases hfind : f.find [] with
  | none => rfl
  | some found => exact absurd (length_lt_of_find hfind) (Nat.not_lt_zero _)

/-- There are no more values than characters. -/
theorem spansUpTo_eq {n m : Nat} {text : List α} (hn : text.length ≤ n) (hm : text.length ≤ m) :
    f.spansUpTo n text = f.spansUpTo m text := by
  induction n generalizing m text with
  | zero =>
    rw [List.length_eq_zero_iff.1 (Nat.le_zero.1 hn)]
    cases m with
    | zero => rfl
    | succ m => rw [spansUpTo, spansUpTo, find_nil]
  | succ n ih =>
    cases m with
    | zero =>
      rw [List.length_eq_zero_iff.1 (Nat.le_zero.1 hm), spansUpTo, spansUpTo, find_nil]
    | succ m =>
      rw [spansUpTo, spansUpTo]
      cases hfind : f.find text with
      | none => rfl
      | some found =>
        obtain ⟨before, value, rest⟩ := found
        have hlt := length_lt_of_find hfind
        dsimp only
        rw [ih (by omega) (by omega : rest.length ≤ m)]

theorem replaceUpTo_eq {new : List α} {n m : Nat} {text : List α} (hn : text.length ≤ n) (hm : text.length ≤ m) :
    f.replaceUpTo new n text = f.replaceUpTo new m text := by
  induction n generalizing m text with
  | zero =>
    rw [List.length_eq_zero_iff.1 (Nat.le_zero.1 hn)]
    cases m with
    | zero => rfl
    | succ m => rw [replaceUpTo, replaceUpTo, find_nil]
  | succ n ih =>
    cases m with
    | zero =>
      rw [List.length_eq_zero_iff.1 (Nat.le_zero.1 hm), replaceUpTo, replaceUpTo, find_nil]
    | succ m =>
      rw [replaceUpTo, replaceUpTo]
      cases hfind : f.find text with
      | none => rfl
      | some found =>
        obtain ⟨before, value, rest⟩ := found
        have hlt := length_lt_of_find hfind
        dsimp only
        rw [ih (by omega) (by omega : rest.length ≤ m)]

theorem spans_of_find {text before value rest : List α} (h : f.find text = some (before, value, rest)) :
    f.spans text =
      ⟨before, value, f.quote :: rest⟩ :: (f.spans rest).map (Span.shift (before ++ value ++ [f.quote])) := by
  have hlt := length_lt_of_find h
  rw [spans, spansUpTo_eq (Nat.le_refl _) (Nat.le_succ text.length), spansUpTo, h]
  dsimp only
  rw [spansUpTo_eq (Nat.le_of_lt hlt) (Nat.le_refl _)]
  rfl

theorem spans_of_find_none {text : List α} (h : f.find text = none) : f.spans text = [] := by
  rw [spans, spansUpTo_eq (Nat.le_refl _) (Nat.le_succ text.length), spansUpTo, h]

theorem replaceAll_of_find (new : List α) {text before value rest : List α}
    (h : f.find text = some (before, value, rest)) :
    f.replaceAll new text = before ++ new ++ f.quote :: f.replaceAll new rest := by
  have hlt := length_lt_of_find h
  rw [replaceAll, replaceUpTo_eq (Nat.le_refl _) (Nat.le_succ text.length), replaceUpTo, h]
  dsimp only
  rw [replaceUpTo_eq (Nat.le_of_lt hlt) (Nat.le_refl _)]
  rfl

theorem replaceAll_of_find_none (new : List α) {text : List α} (h : f.find text = none) :
    f.replaceAll new text = text := by
  rw [replaceAll, replaceUpTo_eq (Nat.le_refl _) (Nat.le_succ text.length), replaceUpTo, h]

/-! ## Two texts that part at a value -/

theorem eq_of_append_quote {quote : α} {xs ys rest rest' : List α} (hx : quote ∉ xs) (hy : quote ∉ ys)
    (h : xs ++ quote :: rest = ys ++ quote :: rest') : xs = ys := by
  induction xs generalizing ys with
  | nil =>
    cases ys with
    | nil => rfl
    | cons y ys => exact absurd ((List.cons.inj h).1 ▸ List.mem_cons_self) hy
  | cons x xs ih =>
    cases ys with
    | nil => exact absurd ((List.cons.inj h).1 ▸ List.mem_cons_self) hx
    | cons y ys =>
      obtain ⟨hhead, htail⟩ := List.cons.inj h
      rw [hhead, ih (fun hmem => hx (List.mem_cons_of_mem _ hmem)) (fun hmem => hy (List.mem_cons_of_mem _ hmem)) htail]

/-- A quoted place that two texts have in common ends before the first value at which they part. -/
theorem length_le_of_parts {quotes : List α} {quote q : α} (hquote : quote ∈ quotes) (hq : q ∈ quotes)
    {before value new rest rest' init part part' : List α} (hvalue : quote ∉ value) (hnew : ∀ a ∈ new, a ∉ quotes)
    (hne : value ≠ new) (h : before ++ (value ++ quote :: rest) = (init ++ [q]) ++ part)
    (h' : before ++ (new ++ quote :: rest') = (init ++ [q]) ++ part') : (init ++ [q]).length ≤ before.length := by
  by_contra hlt
  have hgap : ∀ xs ys : List α, before ++ xs = (init ++ [q]) ++ ys →
      xs = (init ++ [q]).drop before.length ++ ys ∧ before = (init ++ [q]).take before.length := by
    intro xs ys heq
    have hlong : before.length ≤ (init ++ [q]).length := by omega
    constructor
    · have hdrop := congrArg (List.drop before.length) heq
      rwa [List.drop_left, List.drop_append_of_le_length hlong] at hdrop
    · have htake := congrArg (List.take before.length) heq
      rwa [List.take_left, List.take_append_of_le_length hlong] at htake
  -- the text in between ends with a quote
  obtain ⟨gap, hgapq⟩ : ∃ gap, (init ++ [q]).drop before.length = gap ++ [q] := by
    refine ⟨init.drop before.length, ?_⟩
    rw [List.drop_append_of_le_length]
    rw [List.length_append, List.length_singleton] at hlt
    omega
  have hold := (hgap _ _ h).1
  have hchanged := (hgap _ _ h').1
  rw [hgapq] at hold hchanged
  -- the quote is in the new value, or right behind it, or further on
  rcases List.append_eq_append_iff.1 hchanged with ⟨more, hmore, htail⟩ | ⟨more, hmore, -⟩
  · cases more with
    | nil =>
      rw [List.append_nil] at hmore
      exact hnew q (hmore ▸ List.mem_append_right _ List.mem_cons_self) hq
    | cons c more =>
      obtain ⟨rfl, -⟩ := List.cons.inj htail
      rw [hmore, List.append_assoc, List.cons_append] at hold
      -- then both values end at their first quote, in one text
      exact hne (eq_of_append_quote hvalue (fun hmem => hnew _ hmem hquote) hold)
  · refine hnew q ?_ hq
    rw [hmore, List.append_assoc]
    exact List.mem_append_right _ (List.mem_append_left _ List.mem_cons_self)

/-- The same from behind. -/
theorem length_le_of_parts_behind {quotes : List α} {quote q : α} (hquote : quote ∈ quotes) (hq : q ∈ quotes)
    {init init' value new rest tail part part' : List α} (hvalue : quote ∉ value) (hnew : ∀ a ∈ new, a ∉ quotes)
    (hne : value ≠ new) (h : init ++ [quote] ++ value ++ rest = part ++ q :: tail)
    (h' : init' ++ [quote] ++ new ++ rest = part' ++ q :: tail) : (q :: tail).length ≤ rest.length := by
  have hreverse : rest.reverse ++ (value.reverse ++ quote :: init.reverse) = (tail.reverse ++ [q]) ++ part.reverse := by
    simpa using congrArg List.reverse h
  have hreverse' :
      rest.reverse ++ (new.reverse ++ quote :: init'.reverse) = (tail.reverse ++ [q]) ++ part'.reverse := by
    simpa using congrArg List.reverse h'
  have hle := length_le_of_parts hquote hq (by simpa using hvalue) (by simpa using hnew) (by simpa using hne)
    hreverse hreverse'
  simpa using hle

/-! ## The text with the values replaced -/

section Replace

variable [DecidableEq α] (f) (new : List α)

/-- The values that change. -/
def changed (text : List α) : List (Span α) := (f.spans text).filter fun s => s.value ≠ new

variable {f new}

/-- Two values at least change: the text up to the first one, and behind the last. -/
def ChangesTwice (f : Finder α) (new text : List α) : Prop :=
  2 ≤ (f.changed new text).length ∧ ∃ init value mid mid' value' rest,
    text = init ++ [f.quote] ++ value ++ f.quote :: mid ++ f.quote :: value' ++ rest ∧
    f.replaceAll new text = init ++ [f.quote] ++ new ++ f.quote :: mid' ++ f.quote :: new ++ rest ∧
    value ≠ new ∧ value' ≠ new ∧ f.quote ∉ value ∧ f.quote ∉ value' ∧ ∃ tail, rest = f.quote :: tail

theorem changed_of_find (new : List α) {text before value rest : List α}
    (h : f.find text = some (before, value, rest)) :
    f.changed new text = (if value ≠ new then [⟨before, value, f.quote :: rest⟩] else []) ++
      (f.changed new rest).map (Span.shift (before ++ value ++ [f.quote])) := by
  have hmap : ∀ ss : List (Span α), (ss.map (Span.shift (before ++ value ++ [f.quote]))).filter
      (fun s => decide (s.value ≠ new)) =
        (ss.filter fun s => decide (s.value ≠ new)).map (Span.shift (before ++ value ++ [f.quote])) := by
    intro ss
    rw [List.filter_map]
    rfl
  unfold changed
  rw [spans_of_find h, List.filter_cons, hmap]
  by_cases hvalue : value = new
  · rw [if_neg (by simpa using hvalue), if_neg (not_not.2 hvalue)]
    rfl
  · rw [if_pos (by simpa using hvalue), if_pos hvalue]
    rfl

/-- **No value changes, or one, or more.** -/
theorem replaceAll_cases (new text : List α) :
    (f.changed new text = [] ∧ f.replaceAll new text = text) ∨
      (∃ s, f.changed new text = [s] ∧ text = s.before ++ s.value ++ s.behind ∧
        f.replaceAll new text = s.before ++ new ++ s.behind ∧ s.value ≠ new ∧ f.quote ∉ s.value ∧
        (∃ init, s.before = init ++ [f.quote]) ∧ ∃ tail, s.behind = f.quote :: tail) ∨
      ChangesTwice f new text := by
  -- what is behind the first value is shorter
  induction hm : text.length using Nat.strong_induction_on generalizing text with
  | _ m ih =>
    cases hfind : f.find text with
    | none =>
      refine .inl ⟨?_, replaceAll_of_find_none new hfind⟩
      rw [changed, spans_of_find_none hfind]
      rfl
    | some found =>
      obtain ⟨before, value, rest⟩ := found
      obtain ⟨htext, hvalue, init, hbefore⟩ := f.sound hfind
      have hchanged := changed_of_find new hfind
      have hreplace := replaceAll_of_find new hfind
      have hrest := ih rest.length (hm ▸ length_lt_of_find hfind) rest rfl
      -- a first value that is the new one already is not among those that change
      by_cases hnew : value = new
      · rw [if_neg (not_not.2 hnew), List.nil_append] at hchanged
        rw [hchanged, hreplace]
        rcases hrest with ⟨hnone, hsame⟩ | ⟨s, hone, hsplit, hreplaced, hs, hquote, ⟨mid, hmid⟩, htail⟩ | htwice
        · left
          rw [hnone, hsame, htext, hnew]
          exact ⟨rfl, rfl⟩
        · refine .inr (.inl ⟨s.shift (before ++ value ++ [f.quote]), ?_, ?_, ?_, hs, hquote, ?_, htail⟩)
          · rw [hone]
            rfl
          · rw [htext, hsplit]
            simp [Span.shift]
          · rw [hreplaced, hnew]
            simp [Span.shift]
          · exact ⟨before ++ value ++ [f.quote] ++ mid, by simp [Span.shift, hmid]⟩
        · obtain ⟨hlength, init', value', mid, mid', value'', rest', hsplit, hreplaced, hothers⟩ := htwice
          have hmore : 2 ≤ ((f.changed new rest).map (Span.shift (before ++ value ++ [f.quote]))).length := by
            rwa [List.length_map]
          refine .inr (.inr ⟨hchanged ▸ hmore, before ++ value ++ [f.quote] ++ init', value', mid, mid', value'', rest',
            ?_, ?_, hothers⟩)
          · rw [htext, hsplit]
            simp
          · rw [hreplace, hreplaced, hnew]
            simp
      · rw [if_pos hnew] at hchanged
        rcases hrest with ⟨hnone, hsame⟩ | ⟨s, hone, hsplit, hreplaced, hs, hquote, ⟨mid, hmid⟩, htail⟩ | htwice
        · refine .inr (.inl ⟨⟨before, value, f.quote :: rest⟩, ?_, htext, ?_, hnew, hvalue, ⟨init, hbefore⟩, rest, rfl⟩)
          · rw [hchanged, hnone]
            rfl
          · rw [hreplace, hsame]
        · have hmore : 2 ≤ (f.changed new text).length := by
            rw [hchanged, hone]
            rfl
          refine .inr (.inr ⟨hmore, init, value, mid, mid, s.value, s.behind, ?_, ?_, hnew, hs, hvalue, hquote, htail⟩)
          · rw [htext, hsplit, hmid, hbefore]
            simp
          · rw [hreplace, hreplaced, hmid, hbefore]
            simp
        · obtain ⟨hlength, init', value', mid, mid', value'', rest', hsplit, hreplaced, -, hvalue'', -, hquote,
            htail⟩ := htwice
          have hmore : 2 ≤ (f.changed new text).length := by
            rw [hchanged, List.length_append, List.length_map]
            omega
          refine .inr (.inr ⟨hmore, init, value, init' ++ [f.quote] ++ value' ++ f.quote :: mid,
            init' ++ [f.quote] ++ new ++ f.quote :: mid', value'', rest', ?_, ?_, hnew, hvalue'', hvalue, hquote,
            htail⟩)
          · rw [htext, hsplit, hbefore]
            simp
          · rw [hreplace, hreplaced, hbefore]
            simp

/-- **One quoted place is changed**, and nothing else, exactly if its value is the only one to change, or none does. -/
theorem replaceAll_eq_iff {quotes text : List α} (hquote : f.quote ∈ quotes) (hnew : ∀ a ∈ new, a ∉ quotes) (s : Span α)
    (htext : text = s.before ++ s.value ++ s.behind) (hopen : ∃ init, ∃ q ∈ quotes, s.before = init ++ [q])
    (hclose : ∃ q ∈ quotes, ∃ tail, s.behind = q :: tail) :
    f.replaceAll new text = s.before ++ new ++ s.behind ↔
      f.changed new text = [s] ∨ f.changed new text = [] ∧ s.value = new := by
  obtain ⟨init, q, hq, hbefore⟩ := hopen
  obtain ⟨q', hq', tail, hbehind⟩ := hclose
  rcases f.replaceAll_cases new text with ⟨hnone, hsame⟩ | ⟨s', hone, hsplit, hreplaced, hs, hvalue, ⟨mid, hmid⟩,
    rest, hrest⟩ | ⟨hlength, init', value, mid, mid', value', rest, hsplit, hreplaced, hs, hs', hvalue, hvalue', -⟩
  · rw [hsame, hnone]
    constructor
    · intro heq
      rw [htext, List.append_cancel_right_eq, List.append_cancel_left_eq] at heq
      exact .inr ⟨rfl, heq⟩
    · rintro (h | ⟨-, hsvalue⟩)
      · cases h
      · rw [htext, hsvalue]
  · rw [hreplaced, hone]
    constructor
    · intro heq
      have hsame : s'.before ++ s'.value ++ s'.behind = s.before ++ s.value ++ s.behind := hsplit.symm.trans htext
      have hfront : s.before.length ≤ s'.before.length := by
        rw [hbefore]
        have hold : s'.before ++ (s'.value ++ f.quote :: rest) = (init ++ [q]) ++ (s.value ++ s.behind) := by
          rw [← hrest, ← List.append_assoc, hsame, hbefore, List.append_assoc]
        have hchanged : s'.before ++ (new ++ f.quote :: rest) = (init ++ [q]) ++ (new ++ s.behind) := by
          rw [← hrest, ← List.append_assoc, heq, hbefore, List.append_assoc]
        exact length_le_of_parts hquote hq hvalue hnew hs hold hchanged
      have hback : s.behind.length ≤ s'.behind.length := by
        rw [hbehind]
        have hold : mid ++ [f.quote] ++ s'.value ++ s'.behind = s.before ++ s.value ++ q' :: tail := by
          rw [← hmid, hsame, hbehind]
        have hchanged : mid ++ [f.quote] ++ new ++ s'.behind = s.before ++ new ++ q' :: tail := by
          rw [← hmid, heq, hbehind]
        exact length_le_of_parts_behind hquote hq' hvalue hnew hs hold hchanged
      -- both places have the same text around them, so they are one
      have hlength := congrArg List.length heq
      simp only [List.length_append] at hlength
      obtain ⟨hinit, htail⟩ := List.append_inj heq (by simp only [List.length_append]; omega)
      have hbefore' : s'.before = s.before := (List.append_inj hinit (by omega)).1
      rw [hbefore', htail, List.append_cancel_right_eq, List.append_cancel_left_eq] at hsame
      left
      congr 1
      cases s
      cases s'
      cases hbefore'
      cases hsame
      cases htail
      rfl
    · rintro (h | ⟨h, -⟩)
      · rw [List.singleton_inj.1 h]
      · cases h
  · refine iff_of_false ?_ ?_
    · intro heq
      have hfront : (init ++ [q]).length ≤ (init' ++ [f.quote]).length := by
        have hold : (init' ++ [f.quote]) ++ (value ++ f.quote :: (mid ++ f.quote :: value' ++ rest)) =
            (init ++ [q]) ++ (s.value ++ s.behind) := by
          rw [← hbefore, ← List.append_assoc s.before, ← htext, hsplit]
          simp
        have hchanged : (init' ++ [f.quote]) ++ (new ++ f.quote :: (mid' ++ f.quote :: new ++ rest)) =
            (init ++ [q]) ++ (new ++ s.behind) := by
          rw [← hbefore, ← List.append_assoc s.before, ← heq, hreplaced]
          simp
        exact length_le_of_parts hquote hq hvalue hnew hs hold hchanged
      have hback : (q' :: tail).length ≤ rest.length := by
        have hold : (init' ++ [f.quote] ++ value ++ f.quote :: mid) ++ [f.quote] ++ value' ++ rest =
            s.before ++ s.value ++ q' :: tail := by
          rw [← hbehind, ← htext, hsplit]
          simp
        have hchanged : (init' ++ [f.quote] ++ new ++ f.quote :: mid') ++ [f.quote] ++ new ++ rest =
            s.before ++ new ++ q' :: tail := by
          rw [← hbehind, ← heq, hreplaced]
          simp
        exact length_le_of_parts_behind hquote hq' hvalue' hnew hs' hold hchanged
      -- two values and the text between them do not fit into one place
      have htotal := congrArg List.length (hreplaced.symm.trans heq)
      rw [hbefore, hbehind] at htotal
      simp only [List.length_append, List.length_cons, List.length_nil] at htotal hfront hback
      omega
    · rintro (h | ⟨h, -⟩)
      · rw [h] at hlength
        exact absurd hlength (by simp)
      · rw [h] at hlength
        exact absurd hlength (by simp)

end Replace

end Finder
end Lib
end RobotsixMill
