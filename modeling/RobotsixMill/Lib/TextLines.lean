import RobotsixMill.Lib.DelimitedText

/-!
# `Lib.TextLines` — records kept as keyed lines in front of a text

A program writes `key: value` lines and a free text behind them into one file, and reads a value back by
searching the lines for the key. What it finds is what was written as long as no other part has such a line.

- `linesOf` — the lines that a part of the file takes up; `splitlines_newline`, `contains_newline_iff` — a file part
  by part;
- `firstValue`, `lastValue` — the two ways to search, and what they find in a file of several parts.
-/

namespace RobotsixMill
namespace Lib

theorem forall_mem_of_all {α : Type*} {p : α → Prop} [DecidablePred p] {xs : List α}
    (h : (xs.all fun x => decide (p x)) = true) : ∀ x ∈ xs, p x :=
  fun x hx => of_decide_eq_true (List.all_eq_true.1 h x hx)

/-! ## The parts of a file -/

/-- The lines that a part of a file takes up, the line end behind it included. -/
def linesOf (part : String) : List String := splitlines (part ++ "\n")

theorem splitlinesGo_break (cur cs : List Char) :
    splitlinesGo cur ('\n' :: cs) = cur.reverse :: splitlinesGo [] cs := by
  have h := @splitlinesGo_append [] (fun c hc => absurd hc List.not_mem_nil) cur cs
  rwa [List.nil_append, List.append_nil] at h

theorem splitlinesGo_newline (cur as bs : List Char) :
    splitlinesGo cur (as ++ '\n' :: bs) = splitlinesGo cur (as ++ ['\n']) ++ splitlinesGo [] bs := by
  induction cur, as using splitlinesGo.induct with
  | case1 =>
    rw [List.nil_append, List.nil_append, splitlinesGo_break, splitlinesGo_break]
    rfl
  | case2 cur hcur =>
    rw [List.nil_append, List.nil_append, splitlinesGo_break, splitlinesGo_break]
    rfl
  | case3 cur cs ih =>
    rw [List.cons_append, List.cons_append, List.cons_append, List.cons_append, splitlinesGo, splitlinesGo, ih]
    rfl
  | case4 cur c cs hcr hbreak ih =>
    by_cases hends : c = '\r' ∧ cs = []
    · -- the line end that follows belongs to the carriage return
      obtain ⟨rfl, rfl⟩ := hends
      rw [List.cons_append, List.cons_append, List.nil_append, List.nil_append, splitlinesGo, splitlinesGo]
      rfl
    · have hskip : ∀ ds ds', c = '\r' → cs ++ '\n' :: ds ≠ '\n' :: ds' := by
        intro ds ds' hc heq
        cases cs with
        | nil => exact hends ⟨hc, rfl⟩
        | cons d cs =>
          rw [List.cons_append] at heq
          exact hcr cs hc (by rw [(List.cons.inj heq).1])
      rw [List.cons_append, List.cons_append, splitlinesGo.eq_3 _ _ _ (hskip bs), if_pos hbreak,
        splitlinesGo.eq_3 _ _ _ (hskip []), if_pos hbreak, ih]
      rfl
  | case5 cur c cs hcr hbreak ih =>
    have hskip : ∀ ds ds', c = '\r' → cs ++ '\n' :: ds ≠ '\n' :: ds' := by
      rintro ds ds' rfl
      exact absurd (by decide) hbreak
    rw [List.cons_append, List.cons_append, splitlinesGo.eq_3 _ _ _ (hskip bs), if_neg hbreak,
      splitlinesGo.eq_3 _ _ _ (hskip []), if_neg hbreak, ih]

/-- **The lines of a file, part by part.** -/
theorem splitlines_newline (part rest : String) :
    splitlines (part ++ "\n" ++ rest) = linesOf part ++ splitlines rest := by
  unfold linesOf splitlines
  rw [← List.map_append, String.append_assoc, String.toList_append, String.toList_append, String.toList_append]
  apply congrArg
  exact splitlinesGo_newline [] part.toList rest.toList

theorem linesOf_newline (part rest : String) : linesOf (part ++ "\n" ++ rest) = linesOf part ++ linesOf rest := by
  rw [linesOf, String.append_assoc]
  exact splitlines_newline part (rest ++ "\n")

/-- A part without a line break is one line. -/
theorem linesOf_of_no_break {part : String} (h : ∀ c ∈ part.toList, isLineBreak c = false) :
    linesOf part = [part] := by
  have hline := splitlinesGo_append h [] []
  unfold linesOf splitlines
  rw [String.toList_append]
  have hend : part.toList ++ "\n".toList = part.toList ++ '\n' :: [] := rfl
  rw [hend, hline]
  show [String.ofList ([].reverse ++ part.toList)] = [part]
  rw [List.reverse_nil, List.nil_append, String.ofList_toList]

theorem containsChars_iff {sub cs : List Char} : containsChars sub cs = true ↔ sub <:+: cs := by
  induction cs with
  | nil =>
    rw [containsChars, List.isEmpty_iff, List.infix_nil]
  | cons c cs ih =>
    rw [containsChars, Bool.or_eq_true, List.isPrefixOf_iff_prefix, ih, List.infix_cons_iff]

/-- What has no separator in it is found on one of its two sides. -/
theorem infix_separated_iff {α : Type*} {sub as bs : List α} {sep : α} (hsep : sep ∉ sub) (hne : sub ≠ []) :
    sub <:+: as ++ sep :: bs ↔ sub <:+: as ∨ sub <:+: bs := by
  constructor
  · rintro ⟨before, after, heq⟩
    rw [List.append_assoc] at heq
    rcases List.append_eq_append_iff.1 heq with ⟨rest, has, hrest⟩ | ⟨rest, hbefore, hrest⟩
    · -- it begins before the separator, so it ends there
      rcases List.append_eq_append_iff.1 hrest with ⟨more, hmore, -⟩ | ⟨more, hsub, hafter⟩
      · exact .inl ⟨before, more, by rw [has, hmore, List.append_assoc]⟩
      · cases more with
        | nil =>
          rw [List.append_nil] at hsub
          exact .inl ⟨before, [], by rw [List.append_nil, hsub, has]⟩
        | cons first more =>
          rw [List.cons_append] at hafter
          rw [hsub, (List.cons.inj hafter).1] at hsep
          exact absurd (List.mem_append_right _ List.mem_cons_self) hsep
    · cases rest with
      | nil =>
        cases sub with
        | nil => exact absurd rfl hne
        | cons first sub =>
          rw [List.nil_append, List.cons_append] at hrest
          rw [(List.cons.inj hrest).1] at hsep
          exact absurd List.mem_cons_self hsep
      | cons first rest =>
        rw [List.cons_append] at hrest
        exact .inr ⟨rest, after, by rw [(List.cons.inj hrest).2, List.append_assoc]⟩
  · rintro (⟨before, after, rfl⟩ | ⟨before, after, rfl⟩)
    · exact ⟨before, after ++ sep :: bs, by rw [← List.append_assoc]⟩
    · exact ⟨as ++ sep :: before, after, by simp only [List.append_assoc, List.cons_append]⟩

/-- What does not occur before a text and begins with none of its characters is found in the text. -/
theorem infix_append_iff {α : Type*} {first : α} {sub as bs : List α} (h : first ∉ as) :
    first :: sub <:+: as ++ bs ↔ first :: sub <:+: bs := by
  refine ⟨fun hinfix => ?_, fun hinfix => hinfix.trans (List.suffix_append as bs).isInfix⟩
  induction as with
  | nil => exact hinfix
  | cons a as ih =>
    rw [List.cons_append, List.infix_cons_iff] at hinfix
    rcases hinfix with hbegins | hinfix
    · exact absurd (List.mem_cons.2 (.inl (List.cons_prefix_cons.1 hbegins).1)) h
    · exact ih (fun hmem => h (List.mem_cons_of_mem a hmem)) hinfix

/-- **What a file contains, part by part.** -/
theorem contains_newline_iff {sub : String} (hline : '\n' ∉ sub.toList) (hne : sub.toList ≠ []) (part rest : String) :
    contains (part ++ "\n" ++ rest) sub = true ↔ contains part sub = true ∨ contains rest sub = true := by
  have hlist : (part ++ "\n" ++ rest).toList = part.toList ++ '\n' :: rest.toList := by
    rw [String.append_assoc, String.toList_append, String.toList_append]
    rfl
  unfold contains
  rw [hlist, containsChars_iff, containsChars_iff, containsChars_iff]
  exact infix_separated_iff hline hne

/-- A text without one of its characters does not contain another. -/
theorem contains_eq_false {text sub : String} {c : Char} (hsub : c ∈ sub.toList) (htext : c ∉ text.toList) :
    contains text sub = false := by
  rw [Bool.eq_false_iff]
  intro hcontains
  exact htext ((containsChars_iff.1 hcontains).subset hsub)

/-! ## Searching the lines -/

/-- The value of a `key: ` line. -/
def keyValue (key line : String) : String := strip (String.ofList (line.toList.drop key.length))

/-- The value of the first line with the key. -/
def firstValue (key : String) (lines : List String) : Option String :=
  (lines.find? fun line => startsWith line key).map (keyValue key)

/-- The value of the last line with the key. -/
def lastValue (key : String) (lines : List String) : Option String :=
  ((lines.filter fun line => startsWith line key).getLast?).map (keyValue key)

theorem firstValue_append (key : String) (lines lines' : List String) :
    firstValue key (lines ++ lines') = (firstValue key lines).or (firstValue key lines') := by
  unfold firstValue
  rw [List.find?_append, Option.map_or]

theorem firstValue_cons_of_neg {key line : String} (h : startsWith line key = false) (lines : List String) :
    firstValue key (line :: lines) = firstValue key lines := by
  unfold firstValue
  rw [List.find?_cons_of_neg (by rw [h]; exact Bool.false_ne_true)]

theorem firstValue_cons_of_pos {key line : String} (h : startsWith line key = true) (lines : List String) :
    firstValue key (line :: lines) = some (keyValue key line) := by
  unfold firstValue
  have hfound : (line :: lines).find? (fun line => startsWith line key) = some line := List.find?_cons_of_pos h
  rw [hfound]
  rfl

theorem lastValue_append (key : String) (lines lines' : List String) :
    lastValue key (lines ++ lines') = (lastValue key lines').or (lastValue key lines) := by
  unfold lastValue
  rw [List.filter_append, List.getLast?_append, Option.map_or]

theorem lastValue_cons_of_neg {key line : String} (h : startsWith line key = false) (lines : List String) :
    lastValue key (line :: lines) = lastValue key lines := by
  unfold lastValue
  rw [List.filter_cons_of_neg (by rw [h]; exact Bool.false_ne_true)]

/-- Lines without the key do not matter. -/
theorem firstValue_append_of_neg {key : String} {lines : List String} (h : ∀ line ∈ lines, startsWith line key = false)
    (lines' : List String) : firstValue key (lines ++ lines') = firstValue key lines' := by
  induction lines with
  | nil => rfl
  | cons line lines ih =>
    rw [List.cons_append, firstValue_cons_of_neg (h line List.mem_cons_self)]
    exact ih fun line' hl => h line' (List.mem_cons_of_mem line hl)

theorem lastValue_append_of_neg {key : String} {lines : List String} (h : ∀ line ∈ lines, startsWith line key = false)
    (lines' : List String) : lastValue key (lines ++ lines') = lastValue key lines' := by
  induction lines with
  | nil => rfl
  | cons line lines ih =>
    rw [List.cons_append, lastValue_cons_of_neg (h line List.mem_cons_self)]
    exact ih fun line' hl => h line' (List.mem_cons_of_mem line hl)

theorem lastValue_cons_of_pos {key line : String} (h : startsWith line key = true) (lines : List String) :
    lastValue key (line :: lines) = (lastValue key lines).or (some (keyValue key line)) := by
  have hfound : [line].filter (fun line => startsWith line key) = [line] := List.filter_cons_of_pos h
  rw [← List.singleton_append, lastValue_append]
  apply congrArg
  unfold lastValue
  rw [hfound]
  rfl

theorem lastValue_nil (key : String) : lastValue key [] = none := rfl

theorem startsWith_key (key value : String) : startsWith (key ++ value) key = true := by
  unfold startsWith
  rw [List.isPrefixOf_iff_prefix, String.toList_append]
  exact List.prefix_append _ _

theorem keyValue_append (key value : String) : keyValue key (key ++ value) = strip value := by
  unfold keyValue
  rw [String.toList_append, ← String.length_toList, List.drop_left, String.ofList_toList]

/-- Of two keys that neither begins with the other, a line has one at most. -/
theorem startsWith_of_key {line key key' : String} (h : startsWith line key = true)
    (hkeys : key.toList.isPrefixOf key'.toList = false) (hkeys' : key'.toList.isPrefixOf key.toList = false) :
    startsWith line key' = false := by
  unfold startsWith at h ⊢
  rw [List.isPrefixOf_iff_prefix] at h
  rw [Bool.eq_false_iff, ne_eq, List.isPrefixOf_iff_prefix]
  intro h'
  rcases List.prefix_or_prefix_of_prefix h h' with hle | hle
  · rw [List.isPrefixOf_iff_prefix.2 hle] at hkeys
    cases hkeys
  · rw [List.isPrefixOf_iff_prefix.2 hle] at hkeys'
    cases hkeys'

end Lib
end RobotsixMill
