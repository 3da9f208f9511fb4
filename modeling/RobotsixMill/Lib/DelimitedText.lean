import RobotsixMill.Lib.PyText

/-!
# `Lib.DelimitedText` — text cut at separators

A program that writes records as lines, fields apart by a separator, and reads them back by splitting. What
it reads is what was written as long as no field has a separator in it.

- `splitChar`, `splitMax`, `partitionChar` — `str.split(sep)`, `str.split(sep, n)`, `str.partition(sep)`
  for a separator of one character;
- `universalNewlines` — what reading in text mode makes of `\r\n` and `\r`;
- `splitChar_intercalate`, `intercalate_splitChar`, `splitMax_cons`, `partitionChar_eq` — reading back.
-/

namespace RobotsixMill
namespace Lib

/-- `s.endswith(p)`. -/
def endsWith (s p : String) : Bool := p.toList.isSuffixOf s.toList

/-- `s.split(sep)`. -/
def splitChar (sep : Char) : List Char → List (List Char)
  | [] => [[]]
  | c :: cs =>
    if c = sep then [] :: splitChar sep cs
    else match splitChar sep cs with
      | [] => [[c]]
      | field :: fields => (c :: field) :: fields

/-- What stands before the first separator, and after it; nothing after it without one. -/
def partitionChar (sep : Char) (cs : List Char) : List Char × List Char :=
  (cs.takeWhile (· ≠ sep), (cs.dropWhile (· ≠ sep)).drop 1)

/-- `s.split(sep, n)`. -/
def splitMax (sep : Char) : Nat → List Char → List (List Char)
  | 0, cs => [cs]
  | n + 1, cs =>
    if sep ∈ cs then (partitionChar sep cs).1 :: splitMax sep n (partitionChar sep cs).2 else [cs]

/-- Universal newlines: every `\r\n` and every other `\r` reads as `\n`. -/
def universalNewlines : List Char → List Char
  | [] => []
  | '\r' :: '\n' :: cs => '\n' :: universalNewlines cs
  | '\r' :: cs => '\n' :: universalNewlines cs
  | c :: cs => c :: universalNewlines cs

theorem partitionChar_eq {sep : Char} {field : List Char} (h : sep ∉ field) (rest : List Char) :
    partitionChar sep (field ++ sep :: rest) = (field, rest) := by
  have hall : ∀ c ∈ field, decide (c ≠ sep) = true := by
    intro c hc
    rw [decide_eq_true_iff]
    rintro rfl
    exact h hc
  unfold partitionChar
  rw [List.takeWhile_append_of_pos hall, List.dropWhile_append_of_pos hall]
  simp

theorem splitMax_cons {sep : Char} {field : List Char} (h : sep ∉ field) (n : Nat) (rest : List Char) :
    splitMax sep (n + 1) (field ++ sep :: rest) = field :: splitMax sep n rest := by
  rw [splitMax, if_pos (by simp), partitionChar_eq h]

theorem splitChar_ne_nil (sep : Char) (cs : List Char) : splitChar sep cs ≠ [] := by
  cases cs with
  | nil => exact List.cons_ne_nil _ _
  | cons c cs =>
    rw [splitChar]
    split
    · exact List.cons_ne_nil _ _
    · split <;> exact List.cons_ne_nil _ _

theorem splitChar_of_not_mem {sep : Char} {field : List Char} (h : sep ∉ field) :
    splitChar sep field = [field] := by
  induction field with
  | nil => rfl
  | cons c cs ih =>
      obtain ⟨hc, hcs⟩ := not_or.1 (mt List.mem_cons.2 h)
      rw [splitChar, if_neg (Ne.symm hc), ih hcs]

theorem splitChar_append {sep : Char} {field : List Char} (h : sep ∉ field) (rest : List Char) :
    splitChar sep (field ++ sep :: rest) = field :: splitChar sep rest := by
  induction field with
  | nil => simp [splitChar]
  | cons c cs ih =>
      obtain ⟨hc, hcs⟩ := not_or.1 (mt List.mem_cons.2 h)
      rw [List.cons_append, splitChar, if_neg (Ne.symm hc), ih hcs]

/-- **Splitting reads back the fields.** -/
theorem splitChar_intercalate {sep : Char} {fields : List (List Char)} (hne : fields ≠ [])
    (h : ∀ field ∈ fields, sep ∉ field) : splitChar sep ([sep].intercalate fields) = fields := by
  induction fields with
  | nil => exact absurd rfl hne
  | cons field fields ih =>
      have hfield := h field List.mem_cons_self
      cases fields with
      | nil =>
          rw [List.intercalate_singleton]
          exact splitChar_of_not_mem hfield
      | cons field' fields =>
          rw [List.intercalate_cons_cons, List.append_assoc, List.singleton_append,
            splitChar_append hfield, ih (List.cons_ne_nil _ _)]
          intro f hf
          exact h f (List.mem_cons_of_mem _ hf)

theorem splitChar_cons_ne {sep c : Char} (h : c ≠ sep) (cs : List Char) :
    ∃ field fields, splitChar sep cs = field :: fields ∧ splitChar sep (c :: cs) = (c :: field) :: fields := by
  obtain ⟨field, fields, hcs⟩ := List.exists_cons_of_ne_nil (splitChar_ne_nil sep cs)
  refine ⟨field, fields, hcs, ?_⟩
  rw [splitChar, if_neg h, hcs]

theorem not_mem_of_mem_splitChar {sep : Char} {cs field : List Char} (h : field ∈ splitChar sep cs) : sep ∉ field := by
  induction cs generalizing field with
  | nil =>
      rw [List.mem_singleton.1 h]
      exact List.not_mem_nil
  | cons c cs ih =>
      by_cases hc : c = sep
      · rw [splitChar, if_pos hc] at h
        rcases List.mem_cons.1 h with rfl | hrest
        · exact List.not_mem_nil
        · exact ih hrest
      · obtain ⟨first, fields, hcs, hsplit⟩ := splitChar_cons_ne hc cs
        rw [hsplit] at h
        rw [hcs] at ih
        rcases List.mem_cons.1 h with rfl | hrest
        · rw [List.mem_cons, not_or]
          exact ⟨Ne.symm hc, ih List.mem_cons_self⟩
        · exact ih (List.mem_cons_of_mem _ hrest)

/-- Joining the fields gives the text. -/
theorem intercalate_splitChar (sep : Char) (cs : List Char) : [sep].intercalate (splitChar sep cs) = cs := by
  induction cs with
  | nil => rfl
  | cons c cs ih =>
      by_cases hc : c = sep
      · obtain ⟨field, fields, hcs⟩ := List.exists_cons_of_ne_nil (splitChar_ne_nil sep cs)
        rw [splitChar, if_pos hc]
        rw [hcs] at ih ⊢
        rw [List.intercalate_cons_cons, ih, hc]
        rfl
      · obtain ⟨field, fields, hcs, hsplit⟩ := splitChar_cons_ne hc cs
        rw [hsplit]
        rw [hcs] at ih
        cases fields with
        | nil =>
            rw [List.intercalate_singleton] at ih ⊢
            rw [ih]
        | cons field' fields =>
            rw [List.intercalate_cons_cons] at ih ⊢
            rw [← ih]
            rfl

/-- At a separator a text is cut in any case. -/
theorem splitChar_append_sep (sep : Char) (cs rest : List Char) :
    splitChar sep (cs ++ sep :: rest) = splitChar sep cs ++ splitChar sep rest := by
  induction cs with
  | nil => simp [splitChar]
  | cons c cs ih =>
    rw [List.cons_append, splitChar, splitChar, ih]
    by_cases hc : c = sep
    · rw [if_pos hc, if_pos hc, List.cons_append]
    · rw [if_neg hc, if_neg hc]
      cases hfields : splitChar sep cs with
      | nil => exact absurd hfields (splitChar_ne_nil sep cs)
      | cons field fields => rfl

/-! ### Trailing whitespace -/

theorem rstripChars_append {cs rest : List Char} (h : rstripChars rest ≠ []) :
    rstripChars (cs ++ rest) = cs ++ rstripChars rest := by
  unfold rstripChars at h ⊢
  rw [List.reverse_append, List.dropWhile_append]
  split
  · rename_i hnil
    rw [List.isEmpty_iff] at hnil
    rw [hnil] at h
    exact absurd rfl h
  · simp

theorem rstripChars_append_of_nil {cs rest : List Char} (h : rstripChars rest = []) :
    rstripChars (cs ++ rest) = rstripChars cs := by
  unfold rstripChars at h ⊢
  rw [List.reverse_eq_nil_iff] at h
  rw [List.reverse_append, List.dropWhile_append, h]
  simp

theorem mem_rstripChars {c : Char} {cs : List Char} (hc : c ∈ cs) (hp : isPySpace c = false) :
    c ∈ rstripChars cs := by
  unfold rstripChars
  rw [List.mem_reverse]
  exact mem_dropWhile_of_not (List.mem_reverse.2 hc) hp

theorem rstripChars_eq_nil_iff {cs : List Char} : rstripChars cs = [] ↔ ∀ c ∈ cs, isPySpace c = true := by
  unfold rstripChars
  rw [List.reverse_eq_nil_iff, List.dropWhile_eq_nil_iff]
  simp only [List.mem_reverse]

theorem prefix_of_rstripChars (cs : List Char) : rstripChars cs <+: cs := by
  unfold rstripChars
  rw [← List.reverse_suffix, List.reverse_reverse]
  exact List.dropWhile_suffix _

/-- What the text starts with survives unless nothing but whitespace is behind it and it ends in whitespace. -/
theorem prefix_rstripChars_iff {cs rest : List Char} :
    cs <+: rstripChars (cs ++ rest) ↔ (∃ c ∈ rest, isPySpace c = false) ∨ rstripChars cs = cs := by
  by_cases hrest : rstripChars rest = []
  · have hblank : ¬ ∃ c ∈ rest, isPySpace c = false := by
      rintro ⟨c, hc, hp⟩
      rw [rstripChars_eq_nil_iff.1 hrest c hc] at hp
      cases hp
    rw [rstripChars_append_of_nil hrest, or_iff_right hblank]
    constructor
    · intro h
      exact (prefix_of_rstripChars cs).eq_of_length_le h.length_le
    · intro h
      exact ⟨[], by rw [List.append_nil]; exact h.symm⟩
  · have hmore : ∃ c ∈ rest, isPySpace c = false := by
      by_contra hno
      refine hrest (rstripChars_eq_nil_iff.2 ?_)
      intro c hc
      by_contra hp
      exact hno ⟨c, hc, Bool.eq_false_iff.2 hp⟩
    rw [rstripChars_append hrest]
    exact iff_of_true (List.prefix_append ..) (.inl hmore)

/-! ### Lines -/

theorem isLineBreak_of_not_space {c : Char} (h : isPySpace c = false) : isLineBreak c = false := by
  simp only [isPySpace, isLineBreak, Bool.or_eq_false_iff, Bool.and_eq_false_iff, decide_eq_false_iff_not,
    beq_eq_false_iff_ne] at h ⊢
  omega

theorem splitlinesGo_append {line : List Char} (h : ∀ c ∈ line, isLineBreak c = false)
    (cur rest : List Char) :
    splitlinesGo cur (line ++ '\n' :: rest) = (cur.reverse ++ line) :: splitlinesGo [] rest := by
  induction line generalizing cur with
  | nil =>
      rw [List.nil_append, List.append_nil, splitlinesGo, if_pos (by decide)]
      simp
  | cons c cs ih =>
      have hc := h c List.mem_cons_self
      rw [List.cons_append, splitlinesGo, if_neg (by simp [hc]),
        ih (fun d hd => h d (List.mem_cons_of_mem _ hd))]
      · simp
      · rintro ds rfl
        simp [isLineBreak] at hc

theorem splitlinesGo_of_no_break {line : List Char} (h : ∀ c ∈ line, isLineBreak c = false)
    (cur : List Char) (hne : cur.reverse ++ line ≠ []) : splitlinesGo cur line = [cur.reverse ++ line] := by
  induction line generalizing cur with
  | nil =>
      rw [splitlinesGo, if_neg]
      · simp
      · simpa using hne
  | cons c cs ih =>
      have hc := h c List.mem_cons_self
      rw [splitlinesGo, if_neg (by simp [hc]), ih (fun d hd => h d (List.mem_cons_of_mem _ hd))]
      · simp
      · simp
      · rintro ds rfl
        simp [isLineBreak] at hc

theorem splitlinesGo_eq_nil {cur cs : List Char} : splitlinesGo cur cs = [] ↔ cur = [] ∧ cs = [] := by
  induction cur, cs using splitlinesGo.induct with
  | case1 => simp [splitlinesGo]
  | case2 cur hcur => simp [splitlinesGo, hcur]
  | case3 cur cs ih => simp [splitlinesGo]
  | case4 cur c cs hcr hbreak ih =>
      rw [splitlinesGo.eq_3 _ _ _ hcr, if_pos hbreak]
      simp
  | case5 cur c cs hcr hbreak ih =>
      rw [splitlinesGo.eq_3 _ _ _ hcr, if_neg hbreak, ih]
      simp

/-- A line has no line break in it. -/
theorem not_isLineBreak_of_mem_splitlinesGo {cur cs line : List Char} {c : Char}
    (hcur : ∀ d ∈ cur, isLineBreak d = false) (hline : line ∈ splitlinesGo cur cs) (hc : c ∈ line) :
    isLineBreak c = false := by
  induction cur, cs using splitlinesGo.induct with
  | case1 => simp [splitlinesGo] at hline
  | case2 cur hne =>
      rw [splitlinesGo, if_neg hne, List.mem_singleton] at hline
      subst hline
      exact hcur c (List.mem_reverse.1 hc)
  | case3 cur cs ih =>
      rw [splitlinesGo, List.mem_cons] at hline
      obtain rfl | hline := hline
      · exact hcur c (List.mem_reverse.1 hc)
      · exact ih (by simp) hline
  | case4 cur d cs hcr hbreak ih =>
      rw [splitlinesGo.eq_3 _ _ _ hcr, if_pos hbreak, List.mem_cons] at hline
      obtain rfl | hline := hline
      · exact hcur c (List.mem_reverse.1 hc)
      · exact ih (by simp) hline
  | case5 cur d cs hcr hbreak ih =>
      rw [splitlinesGo.eq_3 _ _ _ hcr, if_neg hbreak] at hline
      refine ih ?_ hline
      intro e he
      obtain rfl | he := List.mem_cons.1 he
      · exact Bool.not_eq_true _ ▸ hbreak
      · exact hcur e he

/-- The text starts with its first line. -/
theorem prefix_of_splitlinesGo {cur cs line : List Char} {lines : List (List Char)}
    (h : splitlinesGo cur cs = line :: lines) : line <+: cur.reverse ++ cs := by
  induction cur, cs using splitlinesGo.induct with
  | case1 => simp [splitlinesGo] at h
  | case2 cur hne =>
      rw [splitlinesGo, if_neg hne] at h
      obtain rfl := (List.cons.inj h).1
      exact List.prefix_append ..
  | case3 cur cs ih =>
      rw [splitlinesGo] at h
      rw [← (List.cons.inj h).1]
      exact List.prefix_append ..
  | case4 cur c cs hcr hbreak ih =>
      rw [splitlinesGo.eq_3 _ _ _ hcr, if_pos hbreak] at h
      rw [← (List.cons.inj h).1]
      exact List.prefix_append ..
  | case5 cur c cs hcr hbreak ih =>
      rw [splitlinesGo.eq_3 _ _ _ hcr, if_neg hbreak] at h
      have hpre := ih h
      rwa [List.reverse_cons, List.append_assoc, List.singleton_append] at hpre

/-- What has no separator in it and ends the text stands behind the last separator. -/
theorem suffix_behind_iff {sep : Char} {x : List Char} (h : sep ∉ x) (before last : List Char) :
    x <:+ before ++ sep :: last ↔ x <:+ last := by
  constructor
  · intro hx
    by_contra hno
    have hlast : last <:+ before ++ sep :: last := (List.suffix_cons sep last).trans (List.suffix_append ..)
    rcases Nat.lt_or_ge last.length x.length with hlt | hle
    · -- longer than the last field, `x` reaches over the separator
      have hsep : sep :: last <:+ x :=
        List.suffix_of_suffix_length_le (List.suffix_append ..) hx (by rw [List.length_cons]; omega)
      exact h (hsep.subset List.mem_cons_self)
    · exact hno (List.suffix_of_suffix_length_le hx hlast hle)
  · intro hx
    exact hx.trans ((List.suffix_cons sep last).trans (List.suffix_append ..))

/-- The text that joins the fields ends with the last one. -/
theorem intercalate_concat (sep : Char) (fields : List (List Char)) (last : List Char) :
    [sep].intercalate (fields ++ [last]) = last ∨
      ∃ before, [sep].intercalate (fields ++ [last]) = before ++ sep :: last := by
  induction fields with
  | nil => exact .inl (List.intercalate_singleton ..)
  | cons field fields ih =>
      right
      have hne : fields ++ [last] ≠ [] := by simp
      rw [List.cons_append, List.intercalate_cons_of_ne_nil hne]
      rcases ih with heq | ⟨before, heq⟩
      · exact ⟨field, by rw [heq, List.append_assoc, List.singleton_append]⟩
      · exact ⟨field ++ [sep] ++ before, by rw [heq]; simp⟩

theorem length_intercalate_le {sep : List Char} {n : Nat} {fields : List (List Char)}
    (h : ∀ field ∈ fields, field.length ≤ n) (hne : fields ≠ []) :
    (sep.intercalate fields).length + sep.length ≤ fields.length * (n + sep.length) := by
  induction fields with
  | nil => exact absurd rfl hne
  | cons field fields ih =>
      have hfield := h field List.mem_cons_self
      rw [List.length_cons, Nat.add_mul, Nat.one_mul]
      cases fields with
      | nil =>
          rw [List.intercalate_singleton]
          simpa using hfield
      | cons field' fields =>
          have hrest := ih (fun f hf => h f (List.mem_cons_of_mem _ hf)) (List.cons_ne_nil _ _)
          rw [List.intercalate_cons_cons, List.length_append, List.length_append]
          omega

/-- Text without `\r` reads as it is. -/
theorem universalNewlines_of_not_mem {cs : List Char} (h : '\r' ∉ cs) : universalNewlines cs = cs := by
  induction cs with
  | nil => rfl
  | cons c cs ih =>
      obtain ⟨hc, hcs⟩ := not_or.1 (mt List.mem_cons.2 h)
      rw [universalNewlines, ih hcs]
      · rintro ds rfl
        exact absurd rfl hc
      · rintro rfl
        exact absurd rfl hc

end Lib
end RobotsixMill
