import RobotsixMill.Core.Dedup
import RobotsixMill.Core.DiffContext
import RobotsixMill.Lib.TextLines

/-!
# `Stages.AdvisoryBlock` — reading the advisory in front of a draft

Refine reads back the blockquote that `annotateChildBody` has put in front of a body: the ticket it names, and the body
behind it. It goes by the phrase `Possible duplicate of`, wherever that stands in the text or in its first blockquote.

- `advisoryCandidateId`, `stripAdvisoryBlock`;
- `LeadingAdvisory`, `namedTicket` — the advisory of a text, and the ticket it names;
- `stripAdvisoryBlock_eq` — what is stripped;
- `RoundTrip`, `advisory_round_trip_iff` — the notes and texts for which the reading is right.
-/

namespace RobotsixMill
namespace Stages
namespace Advisory
open Lib RobotsixMill.Core RobotsixMill.Core.Dedup

/-! ## The code -/

/-- The phrase that both go by. -/
def ANCHOR : List Char := "Possible duplicate of".toList

def notSpace (c : Char) : Bool := !isPySpace c

/-- `_ADVISORY_RE`. -/
def ADVISORY_RE : Matcher Char := .seq (.lit (ANCHOR ++ [' '])) (.plus notSpace)

/-- `_advisory_candidate_id`. -/
def advisoryCandidateId (text : List Char) : Option (List Char) :=
  (ADVISORY_RE.search text).map fun m => m.drop (ANCHOR.length + 1)

/-- `line.lstrip(" \t").startswith(">")`. -/
def isQuoted (line : List Char) : Bool := begins (line.dropWhile fun c => c = ' ' || c = '\t') ">"

/-- How far the leading blockquote reaches; `none` if every line is of it. -/
def quoteEnd : Nat → List (List Char) → Option Nat
  | _, [] => none
  | pos, line :: rest => if isQuoted line then quoteEnd (pos + line.length) rest else some pos

/-- `_strip_advisory_block`. -/
def stripAdvisoryBlock (text : List Char) : List Char :=
  if text = [] then text
  else if containsChars ANCHOR text = false then text
  else match quoteEnd 0 (splitKeepends [] text) with
    -- nothing but the blockquote
    | none => []
    | some pos =>
      if pos = 0 then text
      else if containsChars ANCHOR (text.take pos) = false then text
      else
        let remaining := text.drop pos
        if begins remaining "\n" then text.drop (pos + 1)
        else if begins remaining "\r\n" then text.drop (pos + 2)
        else text.drop pos

/-! ## Advisories -/

/-- How an advisory begins. -/
def PREFIX : List Char := "> [!warning] ".toList ++ ANCHOR ++ [' ']

/-- The text begins with an advisory that names something. -/
def LeadingAdvisory (text : List Char) : Prop := ∃ c rest, text = PREFIX ++ c :: rest ∧ notSpace c = true

/-- The text begins with an advisory on a sibling of the same batch. -/
def SiblingAdvisory (text : List Char) : Prop := PREFIX ++ "sibling #".toList <+: text

instance (text : List Char) : Decidable (SiblingAdvisory text) := inferInstanceAs (Decidable (_ <+: _))

/-- The ticket that the leading advisory names. -/
def namedTicket (text : List Char) : Option (List Char) :=
  if SiblingAdvisory text then none
  else if PREFIX <+: text then
    match (text.drop PREFIX.length).takeWhile notSpace with
    | [] => none
    | id => some id
  else none

/-- The reading of a text `t`, and of a body `b` with the note `n` in front of it. -/
structure RoundTrip (producer : Producer) (b n t : List Char) : Prop where
  /-- The body is read back, up to advisories of its own. -/
  body : ∃ k, stripAdvisoryBlock (annotateChildBody b n producer) = stripAdvisoryBlock^[k] b
  idempotent : stripAdvisoryBlock (stripAdvisoryBlock t) = stripAdvisoryBlock t
  unchanged : ¬ LeadingAdvisory t → stripAdvisoryBlock t = t
  candidate : advisoryCandidateId t = namedTicket t

/-! ## Where it is right -/

/-- The leading blockquote, and what is behind it. -/
def leadingBlock (text : List Char) : List Char := ((splitKeepends [] text).takeWhile isQuoted).flatten

def behindBlock (text : List Char) : List Char := ((splitKeepends [] text).dropWhile isQuoted).flatten

/-- A text without the newline at its beginning. -/
def skipNewline (text : List Char) : List Char :=
  if begins text "\n" then text.drop 1 else if begins text "\r\n" then text.drop 2 else text

/-- The phrase is in the leading blockquote. -/
def Anchored (text : List Char) : Prop := ANCHOR <:+: leadingBlock text

instance (text : List Char) : Decidable (Anchored text) := inferInstanceAs (Decidable (_ <:+: _))

/-- The phrase, with something that it names behind it, is in the text. -/
def Mentions (text : List Char) : Prop :=
  ∃ before c rest, text = before ++ ANCHOR ++ ' ' :: c :: rest ∧ notSpace c = true

/-- Every line of the note after the first is that of a blockquote. -/
def KeepsBlock (note : List Char) : Prop := ∀ line ∈ (splitKeepends [] (note ++ ['\n'])).tail, isQuoted line = true

instance (note : List Char) : Decidable (KeepsBlock note) := List.decidableBAll (isQuoted · = true) _

/-- What makes the reading right. -/
structure Plain (n t : List Char) : Prop where
  keepsBlock : KeepsBlock n
  /-- Behind a first blockquote with the phrase there is no second one. -/
  once : ¬ (Anchored t ∧ Anchored (skipNewline (behindBlock t)))
  unquoted : LeadingAdvisory t ∨ ¬ Anchored t
  notSibling : ¬ SiblingAdvisory t
  unmentioned : LeadingAdvisory t ∨ ¬ Mentions t

/-! ## What is stripped -/

variable {text : List Char}

theorem leadingBlock_append_behindBlock (text : List Char) : leadingBlock text ++ behindBlock text = text := by
  unfold leadingBlock behindBlock
  rw [← List.flatten_append, List.takeWhile_append_dropWhile, flatten_splitKeepends]
  rfl

theorem quoteEnd_eq (pos : Nat) (lines : List (List Char)) : quoteEnd pos lines =
    if lines.dropWhile isQuoted = [] then none else some (pos + (lines.takeWhile isQuoted).flatten.length) := by
  induction lines generalizing pos with
  | nil => rfl
  | cons line rest ih =>
    cases hline : isQuoted line with
    | true =>
      rw [quoteEnd, if_pos hline, ih, List.dropWhile_cons_of_pos hline, List.takeWhile_cons_of_pos hline,
        List.flatten_cons, List.length_append, Nat.add_assoc]
    | false =>
      rw [quoteEnd, hline, if_neg Bool.false_ne_true, List.dropWhile_cons_of_neg (by simp [hline]),
        List.takeWhile_cons_of_neg (by simp [hline]), if_neg (List.cons_ne_nil _ _)]
      rfl

/-- **What is stripped** is the leading blockquote that has the phrase, with one newline behind it. -/
theorem stripAdvisoryBlock_eq (text : List Char) :
    stripAdvisoryBlock text = if ANCHOR <:+: leadingBlock text then skipNewline (behindBlock text) else text := by
  have hsplit := leadingBlock_append_behindBlock text
  have hanchor : ANCHOR ≠ [] := by decide
  unfold stripAdvisoryBlock
  by_cases hempty : text = []
  · rw [if_pos hempty, hempty, if_neg]
    exact fun h => hanchor (List.infix_nil.1 h)
  rw [if_neg hempty]
  by_cases hphrase : containsChars ANCHOR text = false
  · rw [if_pos hphrase, if_neg]
    intro h
    rw [containsChars_iff.2 (h.trans ⟨[], behindBlock text, hsplit⟩)] at hphrase
    cases hphrase
  rw [if_neg hphrase, quoteEnd_eq]
  -- nothing behind the blockquote, or the text is cut there
  by_cases hall : (splitKeepends [] text).dropWhile isQuoted = []
  · have hbehind : behindBlock text = [] := by rw [behindBlock, hall]; rfl
    rw [hbehind, List.append_nil] at hsplit
    rw [if_pos hall, hbehind, hsplit, if_pos (containsChars_iff.1 (eq_true_of_ne_false hphrase))]
    rfl
  · rw [if_neg hall]
    dsimp only
    have htake : text.take (leadingBlock text).length = leadingBlock text :=
      (congrArg (List.take _) hsplit.symm).trans List.take_left
    have hdrop : text.drop (leadingBlock text).length = behindBlock text :=
      (congrArg (List.drop _) hsplit.symm).trans List.drop_left
    rw [show 0 + ((splitKeepends [] text).takeWhile isQuoted).flatten.length = (leadingBlock text).length from
      Nat.zero_add _, htake, hdrop]
    by_cases hanchored : ANCHOR <:+: leadingBlock text
    · have hne : (leadingBlock text).length ≠ 0 := by
        intro hzero
        rw [List.length_eq_zero_iff.1 hzero] at hanchored
        exact hanchor (List.infix_nil.1 hanchored)
      rw [if_neg hne, if_neg (by rw [containsChars_iff.2 hanchored]; decide), if_pos hanchored,
        skipNewline, ← List.drop_drop, ← List.drop_drop, hdrop]
    · rw [if_neg hanchored]
      split
      · rfl
      · rw [if_pos]
        rw [← Bool.not_eq_true, containsChars_iff]
        exact hanchored

theorem stripAdvisoryBlock_of_anchored (h : Anchored text) :
    stripAdvisoryBlock text = skipNewline (behindBlock text) :=
  (stripAdvisoryBlock_eq text).trans (if_pos h)

theorem stripAdvisoryBlock_of_not_anchored (h : ¬ Anchored text) : stripAdvisoryBlock text = text :=
  (stripAdvisoryBlock_eq text).trans (if_neg h)

theorem length_skipNewline (text : List Char) :
    (skipNewline text).length ≤ text.length ∧ text.length ≤ (skipNewline text).length + 2 := by
  unfold skipNewline
  split
  · rw [List.length_drop]
    omega
  · split
    · rw [List.length_drop]
      omega
    · omega

/-- Stripping an advisory shortens the text. -/
theorem length_stripAdvisoryBlock_lt (h : Anchored text) : (stripAdvisoryBlock text).length < text.length := by
  have hsplit := congrArg List.length (leadingBlock_append_behindBlock text)
  rw [List.length_append] at hsplit
  have hanchor : ANCHOR.length ≤ (leadingBlock text).length := h.length_le
  have hpos : 0 < ANCHOR.length := by decide
  have hskip := (length_skipNewline (behindBlock text)).1
  rw [stripAdvisoryBlock_of_anchored h]
  omega

theorem stripAdvisoryBlock_eq_self_iff : stripAdvisoryBlock text = text ↔ ¬ Anchored text := by
  constructor
  · intro h hanchored
    -- what is stripped is never empty
    have hlt := length_stripAdvisoryBlock_lt hanchored
    rw [h] at hlt
    exact Nat.lt_irrefl _ hlt
  · exact stripAdvisoryBlock_of_not_anchored

theorem length_iterate_le (k : Nat) (text : List Char) : (stripAdvisoryBlock^[k] text).length ≤ text.length := by
  induction k with
  | zero => exact Nat.le_refl _
  | succ k ih =>
    rw [Function.iterate_succ_apply']
    by_cases h : Anchored (stripAdvisoryBlock^[k] text)
    · exact Nat.le_trans (Nat.le_of_lt (length_stripAdvisoryBlock_lt h)) ih
    · rw [stripAdvisoryBlock_of_not_anchored h]
      exact ih

/-- Stripping twice is stripping once, unless a second advisory comes to the front. -/
theorem idempotent_iff : stripAdvisoryBlock (stripAdvisoryBlock text) = stripAdvisoryBlock text ↔
    ¬ (Anchored text ∧ Anchored (skipNewline (behindBlock text))) := by
  rw [stripAdvisoryBlock_eq_self_iff, not_and]
  constructor
  · intro h hanchored
    rwa [stripAdvisoryBlock_of_anchored hanchored] at h
  · intro h hanchored
    by_cases htext : Anchored text
    · rw [stripAdvisoryBlock_of_anchored htext] at hanchored
      exact h htext hanchored
    · rw [stripAdvisoryBlock_of_not_anchored htext] at hanchored
      exact htext hanchored

/-! ## A body with a note in front of it -/

/-- A newline ends a line, whatever is before it. -/
theorem splitKeepends_newline (cur as bs : List Char) :
    splitKeepends cur (as ++ '\n' :: bs) = splitKeepends cur (as ++ ['\n']) ++ splitKeepends [] bs := by
  induction cur, as using splitKeepends.induct with
  | case1 => rfl
  | case2 cur hcur => rfl
  | case3 cur cs ih =>
    rw [List.cons_append, List.cons_append, splitKeepends, ih, List.cons_append, List.cons_append, splitKeepends]
    rfl
  | case4 cur c cs hcr hbreak ih =>
    -- a carriage return at the end takes the newline into its line
    by_cases hlast : c = '\r' ∧ cs = []
    · rw [hlast.1, hlast.2]
      rfl
    · have hskip : ∀ rest ds, c = '\r' → cs ++ '\n' :: rest ≠ '\n' :: ds := by
        intro rest ds hc heq
        cases cs with
        | nil => exact hlast ⟨hc, rfl⟩
        | cons d cs => exact hcr cs hc (by rw [(List.cons.inj heq).1])
      rw [List.cons_append, splitKeepends.eq_3 _ _ _ (hskip bs), if_pos hbreak, ih, List.cons_append,
        splitKeepends.eq_3 _ _ _ (hskip []), if_pos hbreak]
      rfl
  | case5 cur c cs hcr hbreak ih =>
    have hskip : ∀ rest ds, c = '\r' → cs ++ '\n' :: rest ≠ '\n' :: ds := by
      rintro rest ds rfl
      exact absurd hbreak (by decide)
    rw [List.cons_append, splitKeepends.eq_3 _ _ _ (hskip bs), if_neg hbreak, ih, List.cons_append,
      splitKeepends.eq_3 _ _ _ (hskip []), if_neg hbreak]

/-- What is held back goes in front of the first line. -/
theorem splitKeepends_held {cur cs : List Char} (held : List Char) (hne : cur ++ cs ≠ []) :
    splitKeepends (cur ++ held) cs = (splitKeepends cur cs).modifyHead (held.reverse ++ ·) := by
  induction cur, cs using splitKeepends.induct with
  | case1 => exact absurd rfl hne
  | case2 cur hcur =>
    rw [splitKeepends, splitKeepends, if_neg hcur, if_neg (by simp [hcur]), List.reverse_append]
    rfl
  | case3 cur cs ih =>
    rw [splitKeepends, splitKeepends]
    simp
  | case4 cur c cs hcr hbreak ih =>
    rw [splitKeepends.eq_3 _ _ _ hcr, splitKeepends.eq_3 _ _ _ hcr, if_pos hbreak, if_pos hbreak]
    simp
  | case5 cur c cs hcr hbreak ih =>
    rw [splitKeepends.eq_3 _ _ _ hcr, splitKeepends.eq_3 _ _ _ hcr, if_neg hbreak, if_neg hbreak]
    exact ih (by simp)

theorem splitKeepends_singleLine {as : List Char} (h : SingleLine as) :
    splitKeepends [] (as ++ ['\n']) = [as ++ ['\n']] :=
  splitKeepends_line ⟨as, ['\n'], rfl, h, by decide⟩

/-- The line of the advisory that names its producer. -/
def flagLine (producer : Producer) : List Char :=
  "> _Advisory flag from ".toList ++ producer.sourceDesc.toList ++
    "; verify and close as duplicate during refine if confirmed._".toList

/-- The lines of the note. -/
def noteLines (note : List Char) : List (List Char) := splitKeepends [] ("> [!warning] ".toList ++ note ++ ['\n'])

theorem singleLine_flagLine (producer : Producer) : SingleLine (flagLine producer) := by
  refine SingleLine.append (SingleLine.append (by decide) ?_) (by decide)
  cases producer <;> decide

theorem isQuoted_flagLine (producer : Producer) : isQuoted (flagLine producer ++ ['\n']) = true := by
  cases producer <;> decide

theorem annotateChildBody_eq (body note : List Char) (producer : Producer) :
    annotateChildBody body note producer = "> [!warning] ".toList ++ note ++ '\n' ::
      (['>'] ++ '\n' :: (flagLine producer ++ '\n' :: ([] ++ '\n' :: body))) := by
  have hmid : "\n>\n> _Advisory flag from ".toList = '\n' :: '>' :: '\n' :: "> _Advisory flag from ".toList := by decide
  have hlast : "; verify and close as duplicate during refine if confirmed._\n\n".toList =
      "; verify and close as duplicate during refine if confirmed._".toList ++ ['\n', '\n'] := by decide
  unfold annotateChildBody flagLine
  rw [hmid, hlast]
  simp only [List.append_assoc, List.cons_append, List.nil_append]

theorem splitKeepends_annotateChildBody (body note : List Char) (producer : Producer) :
    splitKeepends [] (annotateChildBody body note producer) =
      noteLines note ++ (['>', '\n'] :: (flagLine producer ++ ['\n']) :: ['\n'] :: splitKeepends [] body) := by
  rw [annotateChildBody_eq, splitKeepends_newline [] ("> [!warning] ".toList ++ note) (_ ++ _),
    splitKeepends_newline [] ['>'] (_ ++ _), splitKeepends_newline [] (flagLine producer) (_ ++ _),
    splitKeepends_newline [] [] body, splitKeepends_singleLine (singleLine_flagLine producer)]
  rfl

/-- Only the lines of the note after the first can be out of the blockquote. -/
theorem keepsBlock_iff {note : List Char} : (∀ line ∈ noteLines note, isQuoted line = true) ↔ KeepsBlock note := by
  have hlines : noteLines note =
      (splitKeepends [] (note ++ ['\n'])).modifyHead ("> [!warning] ".toList ++ ·) := by
    have hheld := splitKeepends_held "> [!warning] ".toList.reverse
      (by simp : ([] : List Char) ++ (note ++ ['\n']) ≠ [])
    rw [List.reverse_reverse] at hheld
    rw [noteLines, List.append_assoc, splitKeepends_append (forall_mem_of_all (by decide)), List.append_nil]
    exact hheld
  rw [hlines, KeepsBlock]
  cases splitKeepends [] (note ++ ['\n']) with
  | nil => exact iff_of_true (fun _ h => absurd h List.not_mem_nil) fun _ h => absurd h List.not_mem_nil
  | cons first rest =>
    -- the prefix makes the first line one of the blockquote
    have hfirst : isQuoted ("> [!warning] ".toList ++ first) = true := by
      have hhead : "> [!warning] ".toList = '>' :: " [!warning] ".toList := by decide
      rw [hhead]
      rfl
    rw [List.modifyHead_cons, List.forall_mem_cons, List.tail_cons]
    exact ⟨And.right, fun h => ⟨hfirst, h⟩⟩

section Annotated

variable {note : List Char} (body : List Char) (producer : Producer)

/-- **The note is stripped** where the blockquote holds together. -/
theorem stripAdvisoryBlock_annotateChildBody (hblock : KeepsBlock note) (hnote : ANCHOR <+: note) :
    stripAdvisoryBlock (annotateChildBody body note producer) = body := by
  have hquoted : ∀ line ∈ noteLines note ++ [['>', '\n'], flagLine producer ++ ['\n']], isQuoted line = true := by
    refine List.forall_mem_append.2 ⟨keepsBlock_iff.2 hblock, ?_⟩
    exact List.forall_mem_cons.2 ⟨by decide, List.forall_mem_singleton.2 (isQuoted_flagLine producer)⟩
  have hlines : splitKeepends [] (annotateChildBody body note producer) =
      (noteLines note ++ [['>', '\n'], flagLine producer ++ ['\n']]) ++ (['\n'] :: splitKeepends [] body) := by
    rw [splitKeepends_annotateChildBody, List.append_assoc]
    rfl
  have hbehind : behindBlock (annotateChildBody body note producer) = '\n' :: body := by
    rw [behindBlock, hlines, List.dropWhile_append_of_pos hquoted, List.dropWhile_cons_of_neg (by decide),
      List.flatten_cons, flatten_splitKeepends]
    rfl
  have hanchored : Anchored (annotateChildBody body note producer) := by
    unfold Anchored
    rw [leadingBlock, hlines, List.takeWhile_append_of_pos hquoted, List.takeWhile_cons_of_neg (by decide),
      List.append_nil, List.flatten_append, noteLines, flatten_splitKeepends]
    refine hnote.isInfix.trans
      ⟨"> [!warning] ".toList, ['\n'] ++ [['>', '\n'], flagLine producer ++ ['\n']].flatten, ?_⟩
    rw [List.reverse_nil, List.nil_append, List.append_assoc, List.append_assoc, List.append_assoc]
  rw [stripAdvisoryBlock_of_anchored hanchored, hbehind]
  rfl

/-- Otherwise more than the body is left. -/
theorem length_lt_of_not_keepsBlock (hblock : ¬ KeepsBlock note) :
    body.length < (stripAdvisoryBlock (annotateChildBody body note producer)).length := by
  have hlonger : body.length + 3 ≤ (behindBlock (annotateChildBody body note producer)).length := by
    have hopen : (noteLines note).dropWhile isQuoted ≠ [] := fun h =>
      hblock (keepsBlock_iff.1 fun line => List.dropWhile_eq_nil_iff.1 h line)
    rw [behindBlock, splitKeepends_annotateChildBody, List.dropWhile_append,
      if_neg (by rwa [List.isEmpty_iff]), List.flatten_append, List.flatten_cons, List.flatten_cons, List.flatten_cons,
      flatten_splitKeepends]
    simp only [List.length_append, List.length_cons, List.length_nil, List.reverse_nil, List.nil_append]
    omega
  by_cases hanchored : Anchored (annotateChildBody body note producer)
  · have hskip := (length_skipNewline (behindBlock (annotateChildBody body note producer))).2
    rw [stripAdvisoryBlock_of_anchored hanchored]
    omega
  · have hsplit := congrArg List.length (leadingBlock_append_behindBlock (annotateChildBody body note producer))
    rw [List.length_append] at hsplit
    rw [stripAdvisoryBlock_of_not_anchored hanchored]
    omega

/-- **The body is read back** exactly if the note keeps the blockquote together. -/
theorem body_iff (hnote : ANCHOR <+: note) :
    (∃ k, stripAdvisoryBlock (annotateChildBody body note producer) = stripAdvisoryBlock^[k] body) ↔
      KeepsBlock note := by
  constructor
  · rintro ⟨k, hk⟩
    by_contra hblock
    have hlonger := length_lt_of_not_keepsBlock body producer hblock
    -- stripping the body only shortens it, and what is left is longer
    have hshorter := length_iterate_le k body
    rw [hk] at hlonger
    omega
  · intro hblock
    exact ⟨0, stripAdvisoryBlock_annotateChildBody body producer hblock hnote⟩

end Annotated

/-! ## The ticket that is named -/

/-- Without the phrase at its start, nothing matches there. -/
theorem ADVISORY_RE_eq_nil (h : ¬ ANCHOR ++ [' '] <+: text) : ADVISORY_RE text = [] := by
  unfold ADVISORY_RE Matcher.seq
  rw [Matcher.lit_eq_nil h, List.flatMap_nil]

theorem ADVISORY_RE_anchor (rest : List Char) :
    ADVISORY_RE (ANCHOR ++ ' ' :: rest) = Matcher.plus notSpace rest := by
  have hsplit : ANCHOR ++ ' ' :: rest = (ANCHOR ++ [' ']) ++ rest := by rw [List.append_assoc]; rfl
  unfold ADVISORY_RE Matcher.seq
  rw [hsplit, Matcher.lit_append, List.flatMap_singleton]

/-- What is found behind the phrase. -/
theorem search_anchor {c : Char} (hc : notSpace c = true) (rest : List Char) :
    ADVISORY_RE.search (ANCHOR ++ ' ' :: c :: rest) = some (ANCHOR ++ ' ' :: (c :: rest).takeWhile notSpace) := by
  have hhead : (ADVISORY_RE (ANCHOR ++ ' ' :: c :: rest)).head? = some ((c :: rest).dropWhile notSpace) := by
    rw [ADVISORY_RE_anchor, Matcher.plus_cons, if_pos hc, Matcher.head?_many, List.dropWhile_cons_of_pos hc]
  have hsplit : ANCHOR ++ ' ' :: c :: rest =
      (ANCHOR ++ ' ' :: (c :: rest).takeWhile notSpace) ++ (c :: rest).dropWhile notSpace := by
    rw [List.append_assoc, List.cons_append, List.takeWhile_append_dropWhile]
  obtain ⟨a, as, heq⟩ : ∃ a as, ANCHOR ++ ' ' :: c :: rest = a :: as := ⟨_, _, rfl⟩
  rw [heq] at hhead ⊢
  rw [Matcher.search_of_head? hhead, ← heq, hsplit, List.length_append, Nat.add_sub_cancel, List.take_left]

/-- **A leading advisory** is the first to be found. -/
theorem advisoryCandidateId_of_leading {c : Char} (hc : notSpace c = true) (rest : List Char) :
    advisoryCandidateId (PREFIX ++ c :: rest) = some ((c :: rest).takeWhile notSpace) := by
  have hsplit : PREFIX ++ c :: rest = "> [!warning] ".toList ++ (ANCHOR ++ ' ' :: c :: rest) := by
    unfold PREFIX
    simp only [List.append_assoc, List.cons_append, List.nil_append]
  have hskip : ∀ pre suf, "> [!warning] ".toList = pre ++ suf → suf ≠ [] →
      ADVISORY_RE (suf ++ (ANCHOR ++ ' ' :: c :: rest)) = [] := by
    intro pre suf heq hne
    refine ADVISORY_RE_eq_nil fun hbegins => ?_
    -- no character before the phrase is its first one
    obtain ⟨d, suf, rfl⟩ := List.exists_cons_of_ne_nil hne
    have hmem : d ∈ "> [!warning] ".toList := heq ▸ List.mem_append_right _ List.mem_cons_self
    have hother : ∀ d ∈ "> [!warning] ".toList, d ≠ 'P' := forall_mem_of_all (by decide)
    exact hother d hmem (List.cons_prefix_cons.1 hbegins).1.symm
  unfold advisoryCandidateId
  rw [hsplit, Matcher.search_append hskip, search_anchor hc, Option.map_some]
  congr 1

/-- Nothing is found in a text without the phrase. -/
theorem advisoryCandidateId_eq_none_iff : advisoryCandidateId text = none ↔ ¬ Mentions text := by
  unfold advisoryCandidateId
  rw [Option.map_eq_none_iff, Matcher.search_eq_none_iff]
  constructor
  · rintro h ⟨before, c, rest, rfl, hc⟩
    -- the pattern matches where the phrase is
    have hnone := h before (ANCHOR ++ ' ' :: c :: rest) (List.append_assoc ..)
    rw [ADVISORY_RE_anchor, Matcher.plus_cons, if_pos hc] at hnone
    have hhead := Matcher.head?_many notSpace rest
    rw [hnone] at hhead
    cases hhead
  · intro h pre suf heq
    by_cases hbegins : ANCHOR ++ [' '] <+: suf
    · obtain ⟨rest, rfl⟩ := hbegins
      rw [List.append_assoc, List.singleton_append, ADVISORY_RE_anchor]
      cases rest with
      | nil => rfl
      | cons c rest =>
        rw [Matcher.plus_cons, if_neg]
        intro hc
        refine h ⟨pre, c, rest, ?_, hc⟩
        rw [heq, List.append_assoc, List.append_assoc]
        rfl
    · exact ADVISORY_RE_eq_nil hbegins

theorem namedTicket_of_not_leading (h : ¬ LeadingAdvisory text) : namedTicket text = none := by
  unfold namedTicket
  split
  · rfl
  · split
    · rename_i hbegins
      obtain ⟨rest, rfl⟩ := hbegins
      rw [List.drop_left]
      cases rest with
      | nil => rfl
      | cons c rest =>
        by_cases hc : notSpace c = true
        · exact absurd ⟨c, rest, rfl, hc⟩ h
        · rw [List.takeWhile_cons_of_neg hc]
    · rfl

theorem namedTicket_of_leading {c : Char} (hc : notSpace c = true) {rest : List Char}
    (hsibling : ¬ SiblingAdvisory (PREFIX ++ c :: rest)) :
    namedTicket (PREFIX ++ c :: rest) = some ((c :: rest).takeWhile notSpace) := by
  unfold namedTicket
  rw [if_neg hsibling, if_pos (List.prefix_append _ _), List.drop_left, List.takeWhile_cons_of_pos hc]

theorem SiblingAdvisory.leading (h : SiblingAdvisory text) : LeadingAdvisory text := by
  obtain ⟨rest, rfl⟩ := h
  exact ⟨'s', "ibling #".toList ++ rest, by rw [List.append_assoc]; rfl, by decide⟩

/-- **The named ticket is found** exactly if the advisory is not on a sibling and, without one, nothing is mentioned. -/
theorem candidate_iff : advisoryCandidateId text = namedTicket text ↔
    ¬ SiblingAdvisory text ∧ (LeadingAdvisory text ∨ ¬ Mentions text) := by
  by_cases hleading : LeadingAdvisory text
  · obtain ⟨c, rest, rfl, hc⟩ := hleading
    rw [advisoryCandidateId_of_leading hc]
    by_cases hsibling : SiblingAdvisory (PREFIX ++ c :: rest)
    · rw [namedTicket, if_pos hsibling]
      exact iff_of_false (Option.some_ne_none _) fun h => h.1 hsibling
    · rw [namedTicket_of_leading hc hsibling]
      exact iff_of_true rfl ⟨hsibling, .inl ⟨c, rest, rfl, hc⟩⟩
  · rw [namedTicket_of_not_leading hleading, advisoryCandidateId_eq_none_iff]
    constructor
    · exact fun h => ⟨fun hsibling => hleading hsibling.leading, .inr h⟩
    · exact fun h => h.2.resolve_left hleading

theorem ticketNote_eq (u : Unicode) (id : Dedup.TicketId) (title signal : List Char) : ticketNote u id title signal =
    ANCHOR ++ ' ' :: (id.text ++ (" (".toList ++ (reprText u title ++ (") — matched on ".toList ++ signal)))) := by
  have hphrase : "Possible duplicate of ".toList = ANCHOR ++ [' '] := by decide
  unfold ticketNote
  rw [hphrase]
  simp only [List.append_assoc, List.cons_append, List.nil_append]

theorem siblingNote_eq (j : Nat) (overlap : List Char) : siblingNote j overlap =
    ANCHOR ++ ' ' :: ("sibling #".toList ++ (Nat.toDigits 10 j ++ (" in this batch — ".toList ++ overlap))) := by
  have hphrase : "Possible duplicate of sibling #".toList = ANCHOR ++ ' ' :: "sibling #".toList := by decide
  unfold siblingNote
  rw [hphrase]
  simp only [List.append_assoc, List.cons_append]

/-! ## The round trip -/

theorem anchor_prefix_of_produced {u : Unicode} {note : List Char} (h : Produced u note) : ANCHOR <+: note := by
  rcases produced_shape h with ⟨id, title, signal, rfl⟩ | ⟨j, overlap, rfl⟩
  · rw [ticketNote_eq]
    exact List.prefix_append _ _
  · rw [siblingNote_eq]
    exact List.prefix_append _ _

/-- **The advisory is read back** exactly where the note keeps the blockquote together and the text is plain. -/
theorem advisory_round_trip_iff {u : Unicode} {n : List Char} (hn : Produced u n) (producer : Producer)
    (b t : List Char) : RoundTrip producer b n t ↔ Plain n t := by
  have hunchanged : (¬ LeadingAdvisory t → stripAdvisoryBlock t = t) ↔ LeadingAdvisory t ∨ ¬ Anchored t := by
    rw [stripAdvisoryBlock_eq_self_iff, or_iff_not_imp_left]
  have hbody := body_iff b producer (anchor_prefix_of_produced hn)
  constructor
  · intro h
    exact ⟨hbody.1 h.body, idempotent_iff.1 h.idempotent, hunchanged.1 h.unchanged, (candidate_iff.1 h.candidate).1,
      (candidate_iff.1 h.candidate).2⟩
  · intro h
    exact ⟨hbody.2 h.keepsBlock, idempotent_iff.2 h.once, hunchanged.2 h.unquoted,
      candidate_iff.2 ⟨h.notSibling, h.unmentioned⟩⟩

/-- The tables, for ASCII. -/
def ascii : Unicode where
  isWord c := c.isAlphanum || c = '_'
  isPrintable c := 32 ≤ c.toNat && c.toNat < 127
  casefold c := [asciiLower c]
  not_word_of_break c hc := by
    cases hword : c.isAlphanum || c = '_' with
    | false => rfl
    | true =>
      rcases Bool.or_eq_true _ _ ▸ hword with h | h
      · rw [not_break_of_isAlphanum h] at hc
        cases hc
      · rw [of_decide_eq_true h] at hc
        cases hc
  not_printable_of_break c hc := by
    simp only [isLineBreak, Bool.or_eq_true, Bool.and_eq_true, decide_eq_true_eq, beq_iff_eq] at hc
    simp only [Bool.and_eq_false_iff, decide_eq_false_iff_not]
    omega

/-- A recent ticket that has the label of a draft. -/
def recentTicket : Dedup.Ticket where
  id := ⟨"20260622T151555Z-ci-d95e".toList, by decide, forall_mem_of_all (by decide)⟩
  title := "CI".toList
  createdAt := some 0
  labels := ["ci_fp:1".toList]

def recentNote : List Char := ticketNote ascii recentTicket.id recentTicket.title "title overlap".toList

theorem produced_recentNote : Produced ascii recentNote :=
  .inflight (show findInflightOverlap ascii { recentTickets := some [recentTicket] } "20260623".toList [] [] {} 0
    ["ci_fp:1".toList] = some recentNote from rfl)

theorem advisory_round_trip_plain : RoundTrip .draftIntake "Fix it.".toList recentNote "Fix it.".toList :=
  (advisory_round_trip_iff produced_recentNote .draftIntake "Fix it.".toList "Fix it.".toList).2
    ⟨by decide, by decide, .inr (by decide), by decide, .inr (advisoryCandidateId_eq_none_iff.1 (by decide))⟩

/-- Of two advisories, stripping once leaves one. -/
theorem second_advisory_left : ¬ ∀ (u : Unicode) (n : List Char), Produced u n → ∀ producer b t,
    RoundTrip producer b n t := by
  intro h
  -- stripped once, `once` is left; stripped twice, the body
  let once := annotateChildBody "Fix it.".toList recentNote .epicDecomposition
  have hblock : KeepsBlock recentNote := by decide
  have hanchor := anchor_prefix_of_produced produced_recentNote
  have hidem := (h ascii recentNote produced_recentNote .draftIntake []
    (annotateChildBody once recentNote .draftIntake)).idempotent
  rw [stripAdvisoryBlock_annotateChildBody once .draftIntake hblock hanchor,
    stripAdvisoryBlock_annotateChildBody "Fix it.".toList .epicDecomposition hblock hanchor] at hidem
  have hlength := congrArg List.length hidem
  rw [show once = _ from annotateChildBody_eq _ _ _] at hlength
  simp only [List.length_append, List.length_cons] at hlength
  omega

end Advisory
end Stages
end RobotsixMill
