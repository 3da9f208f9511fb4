import Mathlib.Data.List.TakeWhile

/-!
# `Core.TextUtils` — the two truncations of a text

`tailKeep` keeps the end of a text that is too long, `headTailKeep` its beginning and its end. Both move a cut on to a
line boundary, which they search for in the whole rest of the text.

- `tailFrom_of_newline`, `tailFrom_of_not_mem` — where a cut ends up, told by the text behind it;
- `truncation_keeps_iff` — what is kept, and when it is nothing.
-/

namespace RobotsixMill
namespace Core

/-! ## The searches -/

/-- `text.find("\n", start)`. -/
def findNewline (text : List Char) (start : Nat) : Option Nat :=
  ((text.drop start).findIdx? (· == '\n')).map (start + ·)

/-- `text.rfind("\n", 0, stop)`. -/
def rfindNewline (text : List Char) (stop : Nat) : Option Nat :=
  ((text.take stop).reverse.findIdx? (· == '\n')).map ((text.take stop).length - 1 - ·)

/-- What is kept behind a cut: it starts after the next newline if there is one. -/
def tailFrom (text : List Char) (start : Nat) : List Char :=
  match findNewline text start with
  | some nl_idx => text.drop (nl_idx + 1)
  | none => text.drop start

/-- What is kept before a cut: it ends with the last newline if there is one. -/
def headUpTo (text : List Char) (stop : Nat) : List Char :=
  match rfindNewline text stop with
  | some nl_idx => text.take (nl_idx + 1)
  | none => text.take stop

/-! ## The truncations -/

/-- The note in front of a tail. -/
def tailNote (label : String) (omitted : Nat) : List Char :=
  s!"[... {label} truncated: {omitted} chars omitted]\n\n".toList

/-- The note between a head and a tail. -/
def middleNote (label : String) (omitted : Nat) : List Char :=
  s!"\n\n[... {label} truncated: {omitted} chars omitted from the middle ...]\n\n".toList

/-- `kept` of `tail_keep`. -/
def tailKept (text : List Char) (max_chars : Nat) : List Char :=
  tailFrom text (text.length - max_chars)

/-- `tail_keep`. -/
def tailKeep (text : List Char) (max_chars : Nat) (label : String) : List Char :=
  if text.length ≤ max_chars then text
  else
    let kept := tailKept text max_chars
    let omitted := text.length - kept.length
    tailNote label omitted ++ kept

/-- `head_budget` of `head_tail_keep`. -/
def headBudget (max_chars : Nat) : Nat := max_chars * 6 / 10

/-- `tail_budget`. -/
def tailBudget (max_chars : Nat) : Nat := max_chars - headBudget max_chars

/-- `head`. -/
def headKept (text : List Char) (max_chars : Nat) : List Char := headUpTo text (headBudget max_chars)

/-- `tail`. -/
def middleTailKept (text : List Char) (max_chars : Nat) : List Char :=
  tailFrom text (text.length - tailBudget max_chars)

/-- `head_tail_keep`. -/
def headTailKeep (text : List Char) (max_chars : Nat) (label : String) : List Char :=
  if max_chars = 0 ∨ text.length ≤ max_chars then text
  else
    let head := headKept text max_chars
    let tail := middleTailKept text max_chars
    let omitted := text.length - head.length - tail.length
    head ++ middleNote label omitted ++ tail

/-! ## What should be kept -/

/-- The last characters of a text. -/
def lastChars (n : Nat) (text : List Char) : List Char := text.drop (text.length - n)

/-- The text has a character that is no newline. -/
def HasText (text : List Char) : Prop := ∃ c ∈ text, c ≠ '\n'

/-- `kept` is an end of the text within the budget, of whole lines unless it takes the budget up. -/
structure KeepsEnd (text : List Char) (budget : Nat) (kept : List Char) : Prop where
  isSuffix : kept <:+ text
  length_le : kept.length ≤ budget
  wholeLines : kept = lastChars budget text ∨ ∃ before, text = before ++ '\n' :: kept

/-- `kept` is a beginning of the text within the budget, of whole lines unless it takes the budget up. -/
structure KeepsStart (text : List Char) (budget : Nat) (kept : List Char) : Prop where
  isPrefix : kept <+: text
  length_le : kept.length ≤ budget
  wholeLines : kept = text.take budget ∨ ∃ before, kept = before ++ ['\n']

/-- What `tail_keep` should return for a text that is too long. -/
structure TailKeeps (text : List Char) (max_chars : Nat) (label : String) : Prop where
  keepsEnd : KeepsEnd text max_chars (tailKept text max_chars)
  nonempty : HasText (lastChars max_chars text) → tailKept text max_chars ≠ []
  reports : tailKeep text max_chars label =
    tailNote label (text.length - (tailKept text max_chars).length) ++ tailKept text max_chars

/-- What `head_tail_keep` should return for a text that is too long. -/
structure HeadTailKeeps (text : List Char) (max_chars : Nat) (label : String) : Prop where
  keepsStart : KeepsStart text (headBudget max_chars) (headKept text max_chars)
  keepsEnd : KeepsEnd text (tailBudget max_chars) (middleTailKept text max_chars)
  disjoint : ∃ middle, text = headKept text max_chars ++ middle ++ middleTailKept text max_chars
  length_le : (headKept text max_chars).length + (middleTailKept text max_chars).length ≤ max_chars
  nonempty : HasText (lastChars max_chars text) → middleTailKept text max_chars ≠ []
  reports : headTailKeep text max_chars label =
    headKept text max_chars ++
      middleNote label (text.length -
        ((headKept text max_chars).length + (middleTailKept text max_chars).length)) ++
      middleTailKept text max_chars

/-- The text is one line with its newline. -/
def IsOneLine (text : List Char) : Prop := ∃ line, text = line ++ ['\n'] ∧ '\n' ∉ line

/-! ## Where a cut ends up -/

section Cut

variable {text : List Char} {n stop start : Nat}

theorem findIdx?_first {before after : List Char} (h : '\n' ∉ before) :
    (before ++ '\n' :: after).findIdx? (· == '\n') = some before.length := by
  have hnone : before.findIdx? (· == '\n') = none := by
    rw [List.findIdx?_eq_none_iff]
    intro c hc
    exact beq_eq_false_iff_ne.2 fun hnl => h (hnl ▸ hc)
  rw [List.findIdx?_append, hnone, Option.none_or, List.findIdx?_cons, if_pos (beq_self_eq_true _), Option.map_some,
    Nat.zero_add]

/-- A cut moves behind the first newline of the text behind it. -/
theorem tailFrom_of_newline {line rest : List Char} (h : text.drop start = line ++ '\n' :: rest)
    (hline : '\n' ∉ line) : tailFrom text start = rest := by
  have hfind : findNewline text start = some (start + line.length) := by
    rw [findNewline, h, findIdx?_first hline]
    rfl
  have hdrop : text.drop (start + (line.length + 1)) = (text.drop start).drop (line.length + 1) :=
    List.drop_drop.symm
  rw [tailFrom, hfind]
  show text.drop (start + (line.length + 1)) = rest
  rw [hdrop, h, List.append_cons]
  exact List.drop_left' List.length_append

/-- Without one it stays where it is. -/
theorem tailFrom_of_not_mem (h : '\n' ∉ text.drop start) : tailFrom text start = text.drop start := by
  have hnone : (text.drop start).findIdx? (· == '\n') = none := by
    rw [List.findIdx?_eq_none_iff]
    intro c hc
    exact beq_eq_false_iff_ne.2 fun hnl => h (hnl ▸ hc)
  rw [tailFrom, findNewline, hnone]
  rfl

/-- The same for the last newline of the text before a cut. -/
theorem headUpTo_of_newline {before line : List Char} (h : text.take stop = before ++ '\n' :: line)
    (hline : '\n' ∉ line) : headUpTo text stop = before ++ ['\n'] := by
  have hreverse : (text.take stop).reverse = line.reverse ++ '\n' :: before.reverse := by
    rw [h, List.reverse_append, List.reverse_cons, List.append_assoc]
    rfl
  have hlength : (text.take stop).length = before.length + (line.length + 1) := by
    rw [h, List.length_append, List.length_cons]
  have hfind : rfindNewline text stop = some before.length := by
    rw [rfindNewline, hreverse, findIdx?_first (by rwa [List.mem_reverse]), hlength, Option.map_some,
      List.length_reverse]
    congr 1
    omega
  have hstop : before.length + 1 ≤ stop := by
    have := List.length_take_le stop text
    omega
  have htake : text.take (before.length + 1) = (text.take stop).take (before.length + 1) := by
    rw [List.take_take, Nat.min_eq_left hstop]
  rw [headUpTo, hfind]
  show text.take (before.length + 1) = before ++ ['\n']
  rw [htake, h, List.append_cons]
  exact List.take_left' List.length_append

theorem headUpTo_of_not_mem (h : '\n' ∉ text.take stop) : headUpTo text stop = text.take stop := by
  have hnone : (text.take stop).reverse.findIdx? (· == '\n') = none := by
    rw [List.findIdx?_eq_none_iff]
    intro c hc
    exact beq_eq_false_iff_ne.2 fun hnl => h (List.mem_reverse.1 (hnl ▸ hc))
  rw [headUpTo, rfindNewline, hnone]
  rfl

theorem length_lastChars (h : n ≤ text.length) : (lastChars n text).length = n := by
  rw [lastChars, List.length_drop]
  omega

/-- What a cut keeps of the end of a text. -/
theorem keepsEnd_tailFrom (h : n ≤ text.length) :
    KeepsEnd text n (tailFrom text (text.length - n)) := by
  by_cases hmem : '\n' ∈ lastChars n text
  · obtain ⟨line, rest, heq, hline⟩ := List.eq_append_cons_of_mem hmem
    have hlength := congrArg List.length heq
    rw [length_lastChars h, List.length_append, List.length_cons] at hlength
    have htext : text = text.take (text.length - n) ++ line ++ '\n' :: rest := by
      rw [List.append_assoc, ← heq]
      exact (List.take_append_drop ..).symm
    rw [tailFrom_of_newline heq hline]
    refine ⟨⟨text.take (text.length - n) ++ line ++ ['\n'], ?_⟩, by omega, .inr ⟨_, htext⟩⟩
    rw [List.append_assoc, List.singleton_append]
    exact htext.symm
  · rw [tailFrom_of_not_mem hmem]
    exact ⟨List.drop_suffix .., Nat.le_of_eq (length_lastChars h), .inl rfl⟩

theorem keepsStart_headUpTo (h : stop ≤ text.length) : KeepsStart text stop (headUpTo text stop) := by
  by_cases hmem : '\n' ∈ text.take stop
  · obtain ⟨line, before, heq, hline⟩ := List.eq_append_cons_of_mem (List.mem_reverse.2 hmem)
    have htake : text.take stop = before.reverse ++ '\n' :: line.reverse := by
      rw [← List.reverse_reverse (text.take stop), heq, List.reverse_append, List.reverse_cons,
        List.append_assoc]
      rfl
    have hlength := congrArg List.length htake
    rw [List.length_take, List.length_append, List.length_cons] at hlength
    have hkept : before.reverse ++ ['\n'] <+: text.take stop := by
      rw [htake]
      exact ⟨line.reverse, List.append_assoc ..⟩
    rw [headUpTo_of_newline htake (by rwa [List.mem_reverse])]
    refine ⟨hkept.trans (List.take_prefix ..), ?_, .inr ⟨_, rfl⟩⟩
    rw [List.length_append, List.length_singleton]
    omega
  · rw [headUpTo_of_not_mem hmem]
    exact ⟨List.take_prefix .., List.length_take_le .., .inl rfl⟩

/-- **Nothing is kept** if the only newline behind the cut is the last character of the text. -/
theorem tailFrom_eq_nil_iff (hpos : 0 < n) (h : n ≤ text.length) :
    tailFrom text (text.length - n) = [] ↔ IsOneLine (lastChars n text) := by
  by_cases hmem : '\n' ∈ lastChars n text
  · obtain ⟨line, rest, heq, hline⟩ := List.eq_append_cons_of_mem hmem
    rw [tailFrom_of_newline heq hline, heq]
    constructor
    · rintro rfl
      exact ⟨line, rfl, hline⟩
    · rintro ⟨line', heq', hline'⟩
      have hlast : '\n' ∉ line' := hline'
      rcases List.eq_nil_or_concat rest with hrest | ⟨init, c, hrest⟩
      · exact hrest
      · rw [hrest, List.concat_eq_append, ← List.cons_append, ← List.append_assoc] at heq'
        have hinit := (List.append_inj' heq' rfl).1
        rw [← hinit] at hlast
        exact absurd (List.mem_append_right _ List.mem_cons_self) hlast
  · rw [tailFrom_of_not_mem hmem]
    refine iff_of_false (fun hnil => ?_) (fun ⟨line, heq, _⟩ => ?_)
    · have hlength := length_lastChars h
      rw [lastChars, hnil] at hlength
      exact absurd hlength (by simpa using hpos.ne)
    · exact hmem (heq ▸ List.mem_append_right _ List.mem_cons_self)

end Cut

/-! ## When the truncations keep what they should -/

section Truncation

variable {text : List Char} {max_chars : Nat}

theorem tailKeeps_iff (label : String) (hpos : 0 < max_chars) (h : max_chars < text.length) :
    TailKeeps text max_chars label ↔
      ¬ (IsOneLine (lastChars max_chars text) ∧ HasText (lastChars max_chars text)) := by
  constructor
  · rintro hkeeps ⟨honly, hsome⟩
    exact hkeeps.nonempty hsome ((tailFrom_eq_nil_iff hpos h.le).2 honly)
  · intro hnot
    refine ⟨keepsEnd_tailFrom h.le, fun hsome hnil => ?_, ?_⟩
    · exact hnot ⟨(tailFrom_eq_nil_iff hpos h.le).1 hnil, hsome⟩
    · rw [tailKeep, if_neg (Nat.not_le.2 h)]

example : tailKept "one\ntwo\nthree".toList 8 = "three".toList := by decide

theorem budgets (hpos : 0 < max_chars) :
    headBudget max_chars + tailBudget max_chars = max_chars ∧ 0 < tailBudget max_chars := by
  unfold tailBudget headBudget
  omega

/-- The two slices do not meet. -/
theorem exists_middle (h : headBudget max_chars + tailBudget max_chars ≤ text.length) :
    ∃ middle, text = headKept text max_chars ++ middle ++ middleTailKept text max_chars := by
  have hhead := @keepsStart_headUpTo text (headBudget max_chars) (by omega)
  have htail := @keepsEnd_tailFrom text (tailBudget max_chars) (by omega)
  obtain ⟨behind, hbehind⟩ := hhead.isPrefix
  have hsuffix : middleTailKept text max_chars <:+ behind := by
    refine List.suffix_of_suffix_length_le htail.isSuffix ⟨_, hbehind⟩ ?_
    have hlength := congrArg List.length hbehind
    have hhead_le := hhead.length_le
    have htail_le := htail.length_le
    rw [List.length_append] at hlength
    unfold middleTailKept
    omega
  obtain ⟨middle, hmiddle⟩ := hsuffix
  refine ⟨middle, ?_⟩
  rw [List.append_assoc, hmiddle]
  exact hbehind.symm

theorem headTailKeeps_iff (label : String) (hpos : 0 < max_chars) (h : max_chars < text.length) :
    HeadTailKeeps text max_chars label ↔
      ¬ (IsOneLine (lastChars (tailBudget max_chars) text) ∧ HasText (lastChars max_chars text)) := by
  obtain ⟨hsum, htail_pos⟩ := budgets hpos
  have hhead : headBudget max_chars ≤ text.length := by omega
  have htail : tailBudget max_chars ≤ text.length := by omega
  constructor
  · rintro hkeeps ⟨honly, hsome⟩
    exact hkeeps.nonempty hsome ((tailFrom_eq_nil_iff htail_pos htail).2 honly)
  · intro hnot
    have hstart := keepsStart_headUpTo hhead
    have hend := keepsEnd_tailFrom htail
    refine ⟨hstart, hend, exists_middle (by omega), ?_, fun hsome hnil => ?_, ?_⟩
    · exact Nat.le_trans (Nat.add_le_add hstart.length_le hend.length_le) hsum.le
    · exact hnot ⟨(tailFrom_eq_nil_iff htail_pos htail).1 hnil, hsome⟩
    · rw [headTailKeep, if_neg (by omega), ← Nat.sub_sub]

/-- **The truncations keep what they should** exactly if the end that they cut off is not one line alone, of which the
    cut keeps nothing. -/
theorem truncation_keeps_iff (text : List Char) (max_chars : Nat) (label : String) (hpos : 0 < max_chars)
    (h : max_chars < text.length) :
    (TailKeeps text max_chars label ↔
      ¬ (IsOneLine (lastChars max_chars text) ∧ HasText (lastChars max_chars text))) ∧
    (HeadTailKeeps text max_chars label ↔
      ¬ (IsOneLine (lastChars (tailBudget max_chars) text) ∧ HasText (lastChars max_chars text))) :=
  ⟨tailKeeps_iff label hpos h, headTailKeeps_iff label hpos h⟩

theorem truncation_keeps_iff_three_lines :
    (TailKeeps "one\ntwo\nthree\n".toList 9 "memory" ↔
      ¬ (IsOneLine (lastChars 9 "one\ntwo\nthree\n".toList) ∧ HasText (lastChars 9 "one\ntwo\nthree\n".toList))) ∧
    (HeadTailKeeps "one\ntwo\nthree\n".toList 9 "memory" ↔
      ¬ (IsOneLine (lastChars (tailBudget 9) "one\ntwo\nthree\n".toList) ∧
        HasText (lastChars 9 "one\ntwo\nthree\n".toList))) :=
  truncation_keeps_iff "one\ntwo\nthree\n".toList 9 "memory" (by decide) (by decide)

end Truncation

/-! ### A last line that is longer than the budget -/

/-- The log ends in a long line, of which `tail_keep` keeps nothing. -/
theorem long_last_line_dropped :
    ¬ ∀ text max_chars label, 0 < max_chars → max_chars < text.length →
      TailKeeps text max_chars label ∧ HeadTailKeeps text max_chars label := by
  intro hclaim
  obtain ⟨htail, -⟩ := hclaim "start\ncrashed here\n".toList 8 "log" (by decide) (by decide)
  refine htail.nonempty ?_ (by decide)
  exact ⟨'h', by decide, by decide⟩

end Core
end RobotsixMill
