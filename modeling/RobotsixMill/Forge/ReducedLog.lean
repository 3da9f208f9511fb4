import RobotsixMill.Forge.LogUtils

/-!
# `Forge.ReducedLog` — the reduced log, line by line

A log is its lines. What a preamble pattern takes out of them is told here without the pattern: the text of a line, a
line, or a block from one line to another. The last pattern joins lines that blank lines separate.

- `LineRule` — what may be taken out from a line on, and `LineRule.reduce`, all of it;
- `Reads` — a pattern takes out what a rule says; `reads_preamble`, of the patterns in use;
- `squeeze` — what becomes of runs of line breaks; `apart`, `frontWhole` — lines that nothing is joined to, and that
  `strip` takes nothing from;
- `Spared` — nothing of this touches a line with an error;
- `reduction_keeps_errors` — the lines with errors stay where they are spared, and the window shows the first marker
  where it needs no anchor.
-/

namespace RobotsixMill
namespace Forge
namespace LogUtils
open Lib
open scoped List

/-! ## A log and its lines -/

/-- The lines have no line break in them. -/
def Clean (ls : List Line) : Prop := ∀ l ∈ ls, '\n' ∉ l

/-- What stands behind a line that these lines follow. -/
def after : List Line → List Char
  | [] => []
  | l :: ls => '\n' :: (l ++ after ls)

/-- The text of some lines. -/
def ofLines : List Line → List Char
  | [] => []
  | l :: ls => l ++ after ls

theorem after_of_ne_nil {ls : List Line} (h : ls ≠ []) : after ls = '\n' :: ofLines ls := by
  cases ls with
  | nil => exact absurd rfl h
  | cons l ls => rfl

theorem append_after (line l : Line) (ls : List Line) :
    line ++ after (l :: ls) = (line ++ ['\n']) ++ (l ++ after ls) := by
  rw [List.append_assoc]
  rfl

theorem Clean.head {l : Line} {ls : List Line} (h : Clean (l :: ls)) : '\n' ∉ l := h l List.mem_cons_self

theorem Clean.tail {l : Line} {ls : List Line} (h : Clean (l :: ls)) : Clean ls :=
  fun k hk => h k (List.mem_cons_of_mem _ hk)

theorem Clean.of_suffix {ls ls' : List Line} (h : Clean ls) (hsuffix : ls' <:+ ls) : Clean ls' :=
  fun l hl => h l (hsuffix.subset hl)

theorem lines_ofLines {ls : List Line} (hne : ls ≠ []) (h : Clean ls) : lines (ofLines ls) = ls := by
  induction ls with
  | nil => exact absurd rfl hne
  | cons l ls ih =>
    cases ls with
    | nil =>
      rw [ofLines, after, List.append_nil]
      exact splitChar_of_not_mem h.head
    | cons k ks =>
      rw [ofLines, after, lines, splitChar_append h.head]
      exact congrArg (l :: ·) (ih (List.cons_ne_nil _ _) h.tail)

theorem ofLines_eq_intercalate (ls : List Line) : ofLines ls = ['\n'].intercalate ls := by
  induction ls with
  | nil => rfl
  | cons l ls ih =>
    cases ls with
    | nil => simp [ofLines, after]
    | cons k ks =>
      rw [List.intercalate_cons_cons, ← ih, List.append_assoc]
      rfl

/-- Every text is that of its lines. -/
theorem ofLines_lines (text : List Char) : ofLines (lines text) = text := by
  rw [ofLines_eq_intercalate]
  exact intercalate_splitChar '\n' text

theorem clean_lines (text : List Char) : Clean (lines text) := fun _ hl => not_mem_of_mem_splitChar hl

/-! ## What a rule takes out -/

/-- What is left behind something that is taken out from a line on: the rest of the line it ends in, if it ends in one,
    and the lines behind. -/
structure Cut where
  rest : Option Line
  left : List Line

def Cut.text (cut : Cut) : List Char :=
  match cut.rest with
  | some rest => rest ++ after cut.left
  | none => ofLines cut.left

/-- What may be taken out from a line on that these lines follow. -/
abbrev LineRule := Line → List Line → Option Cut

namespace LineRule

/-- Something is taken out of a line that begins with the word; what is left is told by the rest of the line and the
    lines behind. -/
def ofWord (word : List Char) (left : Line → List Line → Cut) : LineRule := fun line behind =>
  if word <+: line then some (left (line.drop word.length) behind) else none

/-- The text of a line that begins with the word. -/
def wholeLine (word : String) : LineRule := ofWord word.toList fun _ behind => ⟨some [], behind⟩

/-- The word at the beginning of a line, and the line with it if nothing else is on it. -/
def heading (word : String) : LineRule := ofWord word.toList fun rest behind =>
  if rest = [] ∧ behind ≠ [] then ⟨none, behind⟩ else ⟨some rest, behind⟩

/-- A line that begins with the word. -/
def secretSource : LineRule := ofWord "Secret source:".toList fun _ behind =>
  if behind ≠ [] then ⟨none, behind⟩ else ⟨some [], behind⟩

/-- The first line that begins with the word, and those behind it. -/
def closing (word : List Char) : List Line → Option (Line × List Line)
  | [] => none
  | l :: ls => if word <+: l then some (l, ls) else closing word ls

/-- A block from the title to the next line that begins with the word, two lines below or more. What is left is told by
    that line and the lines behind. -/
def ofBlock (title word : List Char) (left : Line → List Line → Cut) : LineRule := fun line behind =>
  if line = title then (closing word behind.tail).map fun found => left found.1 found.2 else none

/-- A block from a line with the title to the next that begins with `##[endgroup]`, this word included. -/
def group (title : String) : LineRule :=
  ofBlock ("##[group]" ++ title).toList "##[endgroup]".toList fun line behind =>
    ⟨some (line.drop "##[endgroup]".toList.length), behind⟩

/-- A block from the word to the next line that begins with `##[group]`, without this line. -/
def untilGroup (word : String) : LineRule :=
  ofBlock word.toList "##[group]".toList fun line behind => ⟨some [], line :: behind⟩

/-- The lines with everything taken out, from the first on, that the rule allows. -/
def reduceWithin (rule : LineRule) : Nat → List Line → List Line
  | 0, ls => ls
  | _ + 1, [] => []
  | n + 1, line :: behind =>
    match rule line behind with
    | none => line :: reduceWithin rule n behind
    | some cut => cut.rest.toList ++ reduceWithin rule n cut.left

def reduce (rule : LineRule) (ls : List Line) : List Line := reduceWithin rule ls.length ls

end LineRule

/-! ## What a pattern takes out -/

/-- The pattern takes out what the rule says, and nothing else. -/
structure Reads (p : Pattern) (rule : LineRule) : Prop where
  lineStart : p.lineStart = true
  none_of : ∀ {line behind}, Clean (line :: behind) → rule line behind = none →
    (p.body (line ++ after behind)).head? = none
  some_of : ∀ {line behind cut}, Clean (line :: behind) → rule line behind = some cut →
    (p.body (line ++ after behind)).head? = some cut.text
  empty : ∀ behind, rule [] behind = none
  suffix : ∀ {line behind cut}, rule line behind = some cut → cut.left <:+ behind
  /-- What is taken out is not empty, and ends with a line break or in a line. -/
  taken : ∀ {line behind cut}, Clean (line :: behind) → rule line behind = some cut →
    ∃ found last, line ++ after behind = found ++ last :: cut.text ∧
      (cut.rest = none → last = '\n' ∧ cut.left ≠ []) ∧
      ∀ rest, cut.rest = some rest → '\n' ∉ rest ∧ (last = '\n' → rest = [])

section Engine

variable {p : Pattern} {rule : LineRule} {n : Nat} {ls : List Line}

theorem Pattern.starts_of_newline (p : Pattern) : p.starts (some '\n') = true := by
  unfold Pattern.starts
  rw [beq_self_eq_true, Bool.or_true]

theorem Pattern.not_starts (h : p.lineStart = true) {c : Char} (hc : c ≠ '\n') : p.starts (some c) = false := by
  unfold Pattern.starts
  rw [h]
  simp [hc]

/-- No match begins within a line. -/
theorem replaceFrom_within (hstart : p.lineStart = true) {c : Char} (hc : c ≠ '\n') {line : Line} (h : '\n' ∉ line)
    (behind : List Line) : Matcher.replaceFrom p.starts p.body [] (some c) 0 (line ++ after behind) =
      line ++ match behind with
        | [] => []
        | behind => '\n' :: Matcher.replaceFrom p.starts p.body [] (some '\n') 0 (ofLines behind) := by
  induction line generalizing c with
  | nil =>
    cases behind with
    | nil => rfl
    | cons b bs =>
      rw [List.nil_append, List.nil_append, after, Matcher.replaceFrom_cons]
      · rfl
      · intro hstarts
        rw [Pattern.not_starts hstart hc] at hstarts
        cases hstarts
  | cons d line ih =>
    obtain ⟨hd, hline⟩ := not_or.1 (mt List.mem_cons.2 h)
    rw [List.cons_append, Matcher.replaceFrom_cons, ih (Ne.symm hd) hline]
    · rfl
    · intro hstarts
      rw [Pattern.not_starts hstart hc] at hstarts
      cases hstarts

theorem Reads.reduceWithin_ne_nil (h : Reads p rule) (hclean : Clean ls) (hne : ls ≠ []) :
    rule.reduceWithin n ls ≠ [] := by
  induction n generalizing ls with
  | zero => exact hne
  | succ n ih =>
    cases ls with
    | nil => exact absurd rfl hne
    | cons line behind =>
      unfold LineRule.reduceWithin
      cases hrule : rule line behind with
      | none => exact List.cons_ne_nil _ _
      | some cut =>
        obtain ⟨_, _, -, hnone, -⟩ := h.taken hclean hrule
        dsimp only
        cases hrest : cut.rest with
        | some rest => exact List.cons_ne_nil _ _
        | none => exact ih (hclean.tail.of_suffix (h.suffix hrule)) (hnone hrest).2

theorem Reads.clean_reduceWithin (h : Reads p rule) (hclean : Clean ls) : Clean (rule.reduceWithin n ls) := by
  induction n generalizing ls with
  | zero => exact hclean
  | succ n ih =>
    cases ls with
    | nil => exact hclean
    | cons line behind =>
      unfold LineRule.reduceWithin
      cases hrule : rule line behind with
      | none =>
        exact List.forall_mem_cons.2 ⟨hclean.head, ih hclean.tail⟩
      | some cut =>
        obtain ⟨_, _, -, -, hsome⟩ := h.taken hclean hrule
        refine List.forall_mem_append.2 ⟨fun l hl => ?_, ih (hclean.tail.of_suffix (h.suffix hrule))⟩
        exact (hsome l (Option.mem_toList.1 hl)).1

/-- **The pattern, from the beginning of a line on.** -/
theorem Reads.replaceFrom_eq (h : Reads p rule) {last : Option Char} (hstarts : p.starts last = true)
    (hclean : Clean ls) (hne : ls ≠ []) (hn : ls.length ≤ n) :
    Matcher.replaceFrom p.starts p.body [] last 0 (ofLines ls) = ofLines (rule.reduceWithin n ls) := by
  induction n generalizing ls last with
  | zero => exact absurd (List.length_eq_zero_iff.1 (Nat.le_zero.1 hn)) hne
  | succ n ih =>
    -- what comes out behind a line whose rest stays
    have hbreak : ∀ {last : Option Char} {left : List Line}, Clean left → left.length ≤ n →
        Matcher.replaceFrom p.starts p.body [] last 0 (after left) = after (rule.reduceWithin n left) := by
      intro last left hleft hlength
      cases left with
      | nil => cases n <;> rfl
      | cons b bs =>
        have hblank : Clean ([] :: b :: bs) := List.forall_mem_cons.2 ⟨List.not_mem_nil, hleft⟩
        have hnone := h.none_of hblank (h.empty (b :: bs))
        rw [List.nil_append] at hnone
        rw [after_of_ne_nil (h.reduceWithin_ne_nil hleft (List.cons_ne_nil _ _)), after,
          Matcher.replaceFrom_cons fun _ => hnone, ← ih p.starts_of_newline hleft (List.cons_ne_nil _ _) hlength]
        rfl
    have hbehind : ∀ {c : Char} {rest : Line} {left : List Line}, (c = '\n' → rest = []) → '\n' ∉ rest → Clean left →
        left.length ≤ n → Matcher.replaceFrom p.starts p.body [] (some c) 0 (rest ++ after left) =
          rest ++ after (rule.reduceWithin n left) := by
      intro c rest left hc hrest hleft hlength
      by_cases hnewline : c = '\n'
      · rw [hc hnewline]
        exact hbreak hleft hlength
      · rw [replaceFrom_within h.lineStart hnewline hrest]
        cases left with
        | nil => cases n <;> rfl
        | cons b bs =>
          rw [after_of_ne_nil (h.reduceWithin_ne_nil hleft (List.cons_ne_nil _ _))]
          dsimp only
          rw [ih p.starts_of_newline hleft (List.cons_ne_nil _ _) hlength]
    cases ls with
    | nil => exact absurd rfl hne
    | cons line behind =>
      have hlength : behind.length ≤ n := Nat.le_of_succ_le_succ hn
      unfold LineRule.reduceWithin
      cases hrule : rule line behind with
      | none =>
        have hnone := h.none_of hclean hrule
        dsimp only
        rw [ofLines, ofLines]
        cases line with
        | nil => exact hbreak hclean.tail hlength
        | cons c line =>
          obtain ⟨hc, hline⟩ := not_or.1 (mt List.mem_cons.2 hclean.head)
          rw [List.cons_append] at hnone ⊢
          rw [Matcher.replaceFrom_cons fun _ => hnone,
            hbehind (fun heq => absurd heq.symm hc) hline hclean.tail hlength]
          rfl
      | some cut =>
        obtain ⟨found, c, htext, hnone, hsome⟩ := h.taken hclean hrule
        have hmatch := h.some_of hclean hrule
        have hleft := hclean.tail.of_suffix (h.suffix hrule)
        have hshort := (h.suffix hrule).length_le.trans hlength
        dsimp only
        rw [ofLines, htext]
        rw [htext] at hmatch
        rw [Matcher.replaceFrom_match hstarts hmatch, List.nil_append, Cut.text]
        cases hrest : cut.rest with
        | none =>
          obtain ⟨rfl, hcut⟩ := hnone hrest
          exact ih p.starts_of_newline hleft hcut hshort
        | some rest =>
          obtain ⟨hclear, hc⟩ := hsome rest hrest
          exact hbehind hc hclear hleft hshort

/-- **A pattern that reads as a rule** takes out of a log what the rule takes out of its lines. -/
theorem Reads.sub_eq (h : Reads p rule) (hclean : Clean ls) (hne : ls ≠ []) :
    p.sub [] (ofLines ls) = ofLines (rule.reduce ls) := by
  have hstarts : p.starts none = true := by
    unfold Pattern.starts
    rw [beq_self_eq_true, Bool.or_true, Bool.true_or]
  exact h.replaceFrom_eq hstarts hclean hne (Nat.le_refl _)

end Engine

/-! ## The patterns in use -/

section Patterns

variable {word : List Char} {line rest : Line} {behind ls : List Line} {m : Matcher Char}

/-- A word without a line break is in front of a text where it is in front of its first line. -/
theorem prefix_line (hword : '\n' ∉ word) : word <+: line ++ after behind ↔ word <+: line := by
  induction line generalizing word with
  | nil =>
    cases word with
    | nil => exact iff_of_true List.nil_prefix List.nil_prefix
    | cons c word =>
      refine iff_of_false (fun h => ?_) (fun h => List.cons_ne_nil _ _ (List.prefix_nil.1 h))
      cases behind with
      | nil => exact List.cons_ne_nil _ _ (List.prefix_nil.1 h)
      | cons b bs => exact hword (List.mem_cons.2 (.inl (List.cons_prefix_cons.1 h).1.symm))
  | cons d line ih =>
    cases word with
    | nil => exact iff_of_true List.nil_prefix List.nil_prefix
    | cons c word =>
      rw [List.cons_append, List.cons_prefix_cons, List.cons_prefix_cons, ih (mt (List.mem_cons_of_mem c) hword)]

/-- A word and a line break are in front of a text where the word is its first line, and not the only one. -/
theorem prefix_newline (hword : '\n' ∉ word) (hline : '\n' ∉ line) :
    word ++ ['\n'] <+: line ++ after behind ↔ line = word ∧ behind ≠ [] := by
  induction line generalizing word with
  | nil =>
    cases word with
    | nil =>
      cases behind with
      | nil => exact iff_of_false (fun h => List.cons_ne_nil _ _ (List.prefix_nil.1 h)) (fun h => h.2 rfl)
      | cons b bs =>
        exact iff_of_true (List.cons_prefix_cons.2 ⟨rfl, List.nil_prefix⟩) ⟨rfl, List.cons_ne_nil _ _⟩
    | cons c word =>
      refine iff_of_false (fun h => ?_) (fun h => List.cons_ne_nil _ _ h.1.symm)
      cases behind with
      | nil => exact List.cons_ne_nil _ _ (List.prefix_nil.1 h)
      | cons b bs => exact hword (List.mem_cons.2 (.inl (List.cons_prefix_cons.1 h).1.symm))
  | cons d line ih =>
    cases word with
    | nil =>
      refine iff_of_false (fun h => ?_) (fun h => List.cons_ne_nil _ _ h.1)
      exact hline (List.mem_cons.2 (.inl (List.cons_prefix_cons.1 h).1))
    | cons c word =>
      rw [List.cons_append, List.cons_append, List.cons_prefix_cons,
        ih (mt (List.mem_cons_of_mem c) hword) (mt (List.mem_cons_of_mem d) hline), List.cons_eq_cons, and_assoc]
      exact and_congr_left fun _ => eq_comm

theorem exists_last (hne : line ≠ []) : ∃ found last, line = found ++ [last] ∧ last ∈ line := by
  rcases List.eq_nil_or_concat line with h | ⟨found, last, h⟩
  · exact absurd h hne
  · exact ⟨found, last, by rw [h, List.concat_eq_append], by rw [h]; simp⟩

theorem after_append (front : List Line) (l : Line) (ls : List Line) :
    after (front ++ l :: ls) = after front ++ '\n' :: (l ++ after ls) := by
  induction front with
  | nil => rfl
  | cons k front ih =>
    show '\n' :: (k ++ after (front ++ l :: ls)) = '\n' :: (k ++ after front) ++ '\n' :: (l ++ after ls)
    rw [ih, List.cons_append, List.append_assoc]

theorem lineEnd_after (behind : List Line) : Pattern.lineEnd (after behind) = [after behind] := by
  cases behind with
  | nil => rfl
  | cons b bs => rfl

/-- `.*` takes the rest of the line. -/
theorem head?_restOfLine (h : '\n' ∉ line) (behind : List Line) :
    (Matcher.many (fun c => decide (c ≠ '\n')) (line ++ after behind)).head? = some (after behind) := by
  rw [Matcher.head?_many]
  refine congrArg some ?_
  rw [List.dropWhile_append_of_pos]
  · cases behind with
    | nil => rfl
    | cons b bs => exact List.dropWhile_cons_of_neg (by decide)
  · intro c hc
    exact decide_eq_true fun heq => h (heq ▸ hc)

/-- A pattern that begins with a word. -/
theorem reads_ofWord {left : Line → List Line → Cut} (hword : '\n' ∉ word) (hne : word ≠ [])
    (hmatch : ∀ rest behind, '\n' ∉ rest → (m (rest ++ after behind)).head? = some (left rest behind).text)
    (hleft : ∀ rest behind, left rest behind = ⟨none, behind⟩ ∧ behind ≠ [] ∨
      ∃ taken rest', rest = taken ++ rest' ∧ left rest behind = ⟨some rest', behind⟩) :
    Reads ⟨true, Matcher.seq (Matcher.lit word) m⟩ (.ofWord word left) where
  lineStart := rfl
  empty behind := if_neg fun h => hne (List.prefix_nil.1 h)
  none_of := by
    intro line behind _ hrule
    have hnot : ¬ word <+: line := fun h => by
      rw [LineRule.ofWord, if_pos h] at hrule
      cases hrule
    exact congrArg List.head? (Matcher.seq_lit_eq_nil (mt (prefix_line hword).1 hnot))
  some_of := by
    intro line behind cut hclean hrule
    unfold LineRule.ofWord at hrule
    split at hrule
    · rename_i hbegins
      obtain ⟨rest, rfl⟩ := hbegins
      cases hrule
      dsimp only
      rw [List.append_assoc, Matcher.seq_lit_append, List.drop_left]
      exact hmatch rest behind fun h => hclean.head (List.mem_append_right _ h)
    · cases hrule
  suffix := by
    intro line behind cut hrule
    unfold LineRule.ofWord at hrule
    split at hrule
    · cases hrule
      rcases hleft (line.drop word.length) behind with ⟨heq, -⟩ | ⟨_, _, -, heq⟩ <;> rw [heq]
    · cases hrule
  taken := by
    intro line behind cut hclean hrule
    unfold LineRule.ofWord at hrule
    split at hrule
    · rename_i hbegins
      obtain ⟨rest, rfl⟩ := hbegins
      cases hrule
      rw [List.drop_left]
      rcases hleft rest behind with ⟨heq, hbehind⟩ | ⟨taken, rest', rfl, heq⟩ <;> rw [heq]
      · -- the line break belongs to the match
        refine ⟨word ++ rest, '\n', by rw [after_of_ne_nil hbehind]; rfl, fun _ => ⟨rfl, hbehind⟩, ?_⟩
        rintro _ ⟨⟩
      · have htaken : word ++ taken ≠ [] := fun h => hne (List.append_eq_nil_iff.1 h).1
        obtain ⟨found, last, hfound, hlast⟩ := exists_last htaken
        have hline := hclean.head
        rw [← List.append_assoc] at hline ⊢
        refine ⟨found, last, ?_, ?_, ?_⟩
        · rw [hfound, List.append_assoc, List.append_assoc]
          rfl
        · rintro ⟨⟩
        · rintro _ ⟨⟩
          refine ⟨fun h => hline (List.mem_append_right _ h), ?_⟩
          rintro rfl
          exact absurd (List.mem_append_left _ hlast) hline
    · cases hrule

theorem reads_wholeLine {word : String} (hword : '\n' ∉ word.toList) (hne : word.toList ≠ []) :
    Reads (.wholeLine word) (.wholeLine word) := by
  refine reads_ofWord hword hne (fun rest behind hrest => ?_) fun rest behind => ?_
  · refine Matcher.head?_seq (head?_restOfLine hrest behind) ?_
    rw [lineEnd_after]
    rfl
  · exact .inr ⟨rest, [], (List.append_nil rest).symm, rfl⟩

theorem reads_secretSource : Reads .secretSource .secretSource := by
  refine reads_ofWord (by decide) (by decide) (fun rest behind hrest => ?_) fun rest behind => ?_
  · refine Matcher.head?_seq (head?_restOfLine hrest behind) ?_
    rw [Matcher.seq, lineEnd_after, List.flatMap_singleton]
    cases behind <;> rfl
  · cases behind with
    | nil => exact .inr ⟨rest, [], (List.append_nil rest).symm, rfl⟩
    | cons next more => exact .inl ⟨rfl, List.cons_ne_nil _ _⟩

theorem reads_heading {word : String} (hword : '\n' ∉ word.toList) (hne : word.toList ≠ []) :
    Reads (.heading word) (.heading word) := by
  refine reads_ofWord hword hne (fun rest behind hrest => ?_) fun rest behind => ?_
  · cases rest with
    | nil => cases behind <;> rfl
    | cons c rest =>
      -- the word is not all there is on the line
      have hc : ¬ (c == '\n') = true := fun h => hrest (List.mem_cons.2 (.inl (eq_of_beq h).symm))
      rw [if_neg fun h => List.cons_ne_nil _ _ h.1, List.cons_append, Matcher.upTo, if_neg hc]
      rfl
  · by_cases hwhole : rest = [] ∧ behind ≠ []
    · exact .inl ⟨if_pos hwhole, hwhole.2⟩
    · exact .inr ⟨[], rest, rfl, if_neg hwhole⟩

/-! ### Blocks -/

theorem closing_eq_some {found : Line × List Line} (h : LineRule.closing word ls = some found) :
    word <+: found.1 ∧ ∃ front, ls = front ++ found.1 :: found.2 := by
  induction ls with
  | nil => cases h
  | cons l ls ih =>
    unfold LineRule.closing at h
    split at h
    · rename_i hbegins
      cases h
      exact ⟨hbegins, [], rfl⟩
    · obtain ⟨hbegins, front, hls⟩ := ih h
      exact ⟨hbegins, l :: front, by rw [hls]; rfl⟩

/-- `.*?` goes on to the first line break behind which the word comes. -/
theorem head?_manyLazy_closing {f : Line → List Line → List Char} (hnil : m [] = [])
    (hc : ∀ c as, c ≠ '\n' → m (c :: as) = [])
    (hm : ∀ l ls, '\n' ∉ l → (m ('\n' :: (l ++ after ls))).head? = if word <+: l then some (f l ls) else none)
    (hclean : Clean (line :: ls)) : (Matcher.seq (Matcher.manyLazy fun _ => true) m (line ++ after ls)).head? =
      (LineRule.closing word ls).map fun found => f found.1 found.2 := by
  induction ls generalizing line with
  | nil =>
    rw [after, List.append_nil]
    have hline := hclean.head
    clear hclean
    induction line with
    | nil => rw [Matcher.head?_manyLazy_nil, hnil]; rfl
    | cons c line ih =>
      obtain ⟨hne, hline⟩ := not_or.1 (mt List.mem_cons.2 hline)
      rw [Matcher.head?_manyLazy_cons, hc c line (Ne.symm hne), ih hline]
      rfl
  | cons l ls ih =>
    have hline := hclean.head
    have hls := hclean.tail
    clear hclean
    induction line with
    | nil =>
      rw [List.nil_append, after, Matcher.head?_manyLazy_cons, hm l ls hls.head, ih hls, LineRule.closing]
      split <;> rfl
    | cons c line ih =>
      obtain ⟨hne, hline⟩ := not_or.1 (mt List.mem_cons.2 hline)
      rw [List.cons_append, Matcher.head?_manyLazy_cons, hc c _ (Ne.symm hne), ih hline]
      rfl

/-- A pattern for a block. -/
theorem reads_ofBlock {title word : List Char} {left : Line → List Line → Cut} (htitle : '\n' ∉ title) (hne : title ≠ [])
    (hnil : m [] = []) (hc : ∀ c as, c ≠ '\n' → m (c :: as) = [])
    (hm : ∀ l ls, '\n' ∉ l → (m ('\n' :: (l ++ after ls))).head? = if word <+: l then some (left l ls).text else none)
    (hsuffix : ∀ l ls, (left l ls).left <:+ l :: ls)
    (hleft : ∀ rest ls, '\n' ∉ rest → ∃ taken rest', (left (word ++ rest) ls).rest = some rest' ∧ '\n' ∉ rest' ∧
      '\n' :: (word ++ rest ++ after ls) = taken ++ (left (word ++ rest) ls).text ∧
      (rest' = [] ∨ ∃ found last, taken = found ++ [last] ∧ last ≠ '\n')) :
    Reads ⟨true, Matcher.seq (Matcher.lit (title ++ ['\n'])) (Matcher.seq (Matcher.manyLazy fun _ => true) m)⟩
      (.ofBlock title word left) where
  lineStart := rfl
  empty behind := if_neg (Ne.symm hne)
  none_of := by
    intro line behind hclean hrule
    dsimp only
    by_cases hbegins : line = title ∧ behind ≠ []
    · -- the block is not closed
      obtain ⟨rfl, hbehind⟩ := hbegins
      rw [LineRule.ofBlock, if_pos rfl, Option.map_eq_none_iff] at hrule
      cases behind with
      | nil => exact absurd rfl hbehind
      | cons b bs =>
        rw [append_after, Matcher.seq_lit_append, head?_manyLazy_closing hnil hc hm hclean.tail]
        rw [List.tail_cons] at hrule
        rw [hrule]
        rfl
    · rw [Matcher.seq_lit_eq_nil (mt (prefix_newline htitle hclean.head).1 hbegins), List.head?_nil]
  some_of := by
    intro line behind cut hclean hrule
    dsimp only
    unfold LineRule.ofBlock at hrule
    split at hrule
    · rename_i heq
      subst heq
      cases behind with
      | nil => cases hrule
      | cons b bs =>
        rw [append_after, Matcher.seq_lit_append, head?_manyLazy_closing hnil hc hm hclean.tail]
        obtain ⟨found, hfound, rfl⟩ := Option.map_eq_some_iff.1 hrule
        rw [List.tail_cons] at hfound
        rw [hfound]
        rfl
    · cases hrule
  suffix := by
    intro line behind cut hrule
    unfold LineRule.ofBlock at hrule
    split at hrule
    · obtain ⟨found, hfound, rfl⟩ := Option.map_eq_some_iff.1 hrule
      obtain ⟨-, front, htail⟩ := closing_eq_some hfound
      refine (hsuffix found.1 found.2).trans (List.IsSuffix.trans ?_ (List.tail_suffix behind))
      rw [htail]
      exact List.suffix_append front _
    · cases hrule
  taken := by
    intro line behind cut hclean hrule
    unfold LineRule.ofBlock at hrule
    split at hrule
    · rename_i heq
      subst heq
      obtain ⟨⟨l, ls⟩, hfound, rfl⟩ := Option.map_eq_some_iff.1 hrule
      obtain ⟨⟨rest, rfl⟩, front, htail⟩ := closing_eq_some hfound
      dsimp only at htail ⊢
      cases behind with
      | nil =>
        rw [List.tail_nil] at htail
        exact absurd htail.symm (List.append_ne_nil_of_right_ne_nil _ (List.cons_ne_nil _ _))
      | cons b bs =>
        rw [List.tail_cons] at htail
        subst htail
        have hrest : '\n' ∉ rest := fun h =>
          hclean (word ++ rest) (by simp) (List.mem_append_right _ h)
        obtain ⟨taken, rest', hsome, hclear, htext, hlast⟩ := hleft rest ls hrest
        have hblock : line ++ after (b :: (front ++ (word ++ rest) :: ls)) =
            (line ++ after (b :: front) ++ taken) ++ (left (word ++ rest) ls).text := by
          rw [← List.cons_append, after_append, htext, List.append_assoc, List.append_assoc]
        obtain ⟨found, last, hall, hmem⟩ : ∃ found last, line ++ after (b :: front) ++ taken = found ++ [last] ∧
            (rest' = [] ∨ last ≠ '\n') := by
          rcases hlast with hnil | ⟨found, last, rfl, hlast⟩
          · have hfull : line ++ after (b :: front) ++ taken ≠ [] := fun h =>
              hne (List.append_eq_nil_iff.1 (List.append_eq_nil_iff.1 h).1).1
            obtain ⟨found, last, hall, -⟩ := exists_last hfull
            exact ⟨found, last, hall, .inl hnil⟩
          · exact ⟨line ++ after (b :: front) ++ found, last, (List.append_assoc ..).symm, .inr hlast⟩
        refine ⟨found, last, ?_, fun h => ?_, fun rest'' h => ?_⟩
        · rw [hblock, hall, List.append_assoc]
          rfl
        · rw [hsome] at h
          cases h
        · rw [hsome] at h
          cases h
          exact ⟨hclear, fun heq => hmem.resolve_right (fun hne => hne heq)⟩
    · cases hrule

/-- A line break and a word in front of a text. -/
theorem prefix_break {l : Line} (hword : '\n' ∉ word) :
    '\n' :: word <+: '\n' :: (l ++ after ls) ↔ word <+: l := by
  rw [List.cons_prefix_cons, prefix_line hword]
  exact and_iff_right rfl

theorem reads_group {title : String} (htitle : '\n' ∉ title.toList) : Reads (.group title) (.group title) := by
  have hall : '\n' ∉ ("##[group]" ++ title).toList := by
    rw [String.toList_append, List.mem_append]
    exact fun h => h.elim (by decide) htitle
  have hpattern : (("##[group]" ++ title ++ "\n").toList) = ("##[group]" ++ title).toList ++ ['\n'] :=
    String.toList_append
  have hword : '\n' ∉ "##[endgroup]".toList := by decide
  unfold Pattern.group
  rw [hpattern]
  refine reads_ofBlock hall ?_ rfl (fun c as hc => Matcher.lit_eq_nil fun h => hc ?_) (fun l ls hl => ?_)
    (fun l ls => List.suffix_cons l ls) (fun rest ls hrest => ?_)
  · rw [String.toList_append]
    exact List.append_ne_nil_of_left_ne_nil (by decide) _
  · exact (List.cons_prefix_cons.1 h).1.symm
  · by_cases hends : "##[endgroup]".toList <+: l
    · obtain ⟨rest, rfl⟩ := hends
      rw [if_pos (List.prefix_append _ _), List.drop_left, List.append_assoc]
      exact congrArg List.head? (Matcher.lit_append ('\n' :: "##[endgroup]".toList) (rest ++ after ls))
    · rw [if_neg hends]
      exact congrArg List.head? (Matcher.lit_eq_nil (mt (prefix_break hword).1 hends))
  · refine ⟨'\n' :: "##[endgroup]".toList, rest, ?_, hrest, ?_, .inr ⟨"\n##[endgroup".toList, ']', rfl, by decide⟩⟩
    · rw [List.drop_left]
    · rw [List.drop_left, List.append_assoc]
      rfl

theorem reads_untilGroup {word : String} (hword : '\n' ∉ word.toList) (hne : word.toList ≠ []) :
    Reads (.untilGroup word) (.untilGroup word) := by
  have hpattern : (word ++ "\n").toList = word.toList ++ ['\n'] := String.toList_append
  have hmark : '\n' ∉ "##[group]".toList := by decide
  unfold Pattern.untilGroup
  rw [hpattern]
  refine reads_ofBlock hword hne rfl (fun c as hc => if_neg fun h => hc ?_) (fun l ls hl => ?_)
    (fun l ls => List.suffix_refl _) (fun rest ls hrest => ?_)
  · exact (List.cons_prefix_cons.1 (List.isPrefixOf_iff_prefix.1 h)).1.symm
  · have hiff : '\n' :: "##[group]".toList <+: '\n' :: (l ++ after ls) ↔ "##[group]".toList <+: l := prefix_break hmark
    by_cases hends : "##[group]".toList <+: l
    · rw [if_pos hends]
      exact congrArg List.head? (if_pos (List.isPrefixOf_iff_prefix.2 (hiff.2 hends)))
    · rw [if_neg hends]
      exact congrArg List.head? (if_neg fun h => hends (hiff.1 (List.isPrefixOf_iff_prefix.1 h)))
  · exact ⟨[], [], rfl, List.not_mem_nil, rfl, .inl rfl⟩

end Patterns

/-- What the preamble patterns but the last take out. -/
def preambleRules : List LineRule :=
  [.wholeLine "Current runner version:",
    .group "Operating System",
    .group "Runner Image",
    .group "Runner Image Provisioner",
    .group "GITHUB_TOKEN Permissions",
    .secretSource,
    .heading "Prepare workflow directory",
    .untilGroup "Prepare all required actions",
    .untilGroup "Getting action download info",
    .wholeLine "Download action repository '",
    .heading "Post job cleanup."]

theorem reads_preamble : List.Forall₂ Reads RUNNER_PREAMBLE_RES.dropLast preambleRules := by
  refine .cons (reads_wholeLine (by decide) (by decide)) <| .cons (reads_group (by decide)) <|
    .cons (reads_group (by decide)) <| .cons (reads_group (by decide)) <| .cons (reads_group (by decide)) <|
    .cons reads_secretSource <| .cons (reads_heading (by decide) (by decide)) <|
    .cons (reads_untilGroup (by decide) (by decide)) <| .cons (reads_untilGroup (by decide) (by decide)) <|
    .cons (reads_wholeLine (by decide) (by decide)) <| .cons (reads_heading (by decide) (by decide)) .nil

/-- The lines of a log without its preamble. -/
def withoutPreamble (rules : List LineRule) (ls : List Line) : List Line := rules.foldl (fun ls rule => rule.reduce ls) ls

theorem clean_withoutPreamble {ps : List Pattern} {rules : List LineRule} (h : List.Forall₂ Reads ps rules)
    {ls : List Line} (hclean : Clean ls) (hne : ls ≠ []) :
    Clean (withoutPreamble rules ls) ∧ withoutPreamble rules ls ≠ [] := by
  induction h generalizing ls with
  | nil => exact ⟨hclean, hne⟩
  | cons hreads _ ih => exact ih (hreads.clean_reduceWithin hclean) (hreads.reduceWithin_ne_nil hclean hne)

/-- **The preamble patterns**, one after the other, take out what the rules say. -/
theorem foldl_sub_eq {ps : List Pattern} {rules : List LineRule} (h : List.Forall₂ Reads ps rules)
    {ls : List Line} (hclean : Clean ls) (hne : ls ≠ []) :
    ps.foldl (fun text pat => pat.sub [] text) (ofLines ls) = ofLines (withoutPreamble rules ls) := by
  induction h generalizing ls with
  | nil => rfl
  | cons hreads _ ih =>
    rw [List.foldl_cons, hreads.sub_eq hclean hne]
    exact ih (hreads.clean_reduceWithin hclean) (hreads.reduceWithin_ne_nil hclean hne)

/-! ## Lines that no rule takes -/

section Spares

variable {kept : Line → Bool} {ls : List Line}

namespace LineRule

/-- Of the lines that the rule takes out, in whole or in part, none is of the set. -/
def sparesWithin (rule : LineRule) (kept : Line → Bool) : Nat → List Line → Bool
  | 0, _ => true
  | _ + 1, [] => true
  | n + 1, line :: behind =>
    match rule line behind with
    | none => rule.sparesWithin kept n behind
    | some cut => (line :: behind.take (behind.length - cut.left.length)).all (fun l => !kept l) &&
        rule.sparesWithin kept n cut.left

def spares (rule : LineRule) (kept : Line → Bool) (ls : List Line) : Bool := rule.sparesWithin kept ls.length ls

end LineRule

/-- None of the rules, each applied to what the ones before it have left, takes a line of the set. -/
def sparedBy (kept : Line → Bool) : List LineRule → List Line → Bool
  | [], _ => true
  | rule :: rules, ls => rule.spares kept ls && sparedBy kept rules (rule.reduce ls)

theorem Reads.filter_reduceWithin {p : Pattern} {rule : LineRule} (h : Reads p rule) {n : Nat}
    (hspares : rule.sparesWithin kept n ls = true) : ls.filter kept <+ rule.reduceWithin n ls := by
  induction n generalizing ls with
  | zero => exact List.filter_sublist
  | succ n ih =>
    cases ls with
    | nil => exact List.filter_sublist
    | cons line behind =>
      unfold LineRule.sparesWithin at hspares
      unfold LineRule.reduceWithin
      cases hrule : rule line behind with
      | none =>
        rw [hrule] at hspares
        rw [List.filter_cons]
        split
        · exact (ih hspares).cons_cons line
        · exact (ih hspares).cons line
      | some cut =>
        rw [hrule] at hspares
        obtain ⟨htaken, hleft⟩ := Bool.and_eq_true_iff.1 hspares
        obtain ⟨front, hfront⟩ := h.suffix hrule
        have hlines : line :: behind = line :: behind.take (behind.length - cut.left.length) ++ cut.left := by
          rw [← hfront, List.length_append, Nat.add_sub_cancel, List.take_left]
          rfl
        have hnone : (line :: behind.take (behind.length - cut.left.length)).filter kept = [] := by
          refine List.filter_eq_nil_iff.2 fun l hl => ?_
          simpa using List.all_eq_true.1 htaken l hl
        rw [hlines, List.filter_append, hnone, List.nil_append]
        exact (ih hleft).trans (List.sublist_append_right _ _)

theorem filter_withoutPreamble {ps : List Pattern} {rules : List LineRule} (h : List.Forall₂ Reads ps rules)
    (hspared : sparedBy kept rules ls = true) : ls.filter kept <+ (withoutPreamble rules ls).filter kept := by
  induction h generalizing ls with
  | nil => exact List.Sublist.refl _
  | cons hreads _ ih =>
    obtain ⟨hfirst, hrest⟩ := Bool.and_eq_true_iff.1 hspared
    have hkeeps := (hreads.filter_reduceWithin hfirst).filter kept
    simp only [List.filter_filter, Bool.and_self] at hkeeps
    exact hkeeps.trans (ih hrest)

end Spares

/-! ## Blank lines -/

/-- What becomes of `n` line breaks in a row. -/
def breaks (new : List Char) (n : Nat) : List Char := if 3 ≤ n then new else List.replicate n '\n'

/-- Every run of line breaks gives way to what becomes of it; `n` line breaks are in front of the text. -/
def squeeze (new : List Char) : Nat → List Char → List Char
  | n, [] => breaks new n
  | n, c :: text => if c = '\n' then squeeze new (n + 1) text else breaks new n ++ c :: squeeze new 0 text

section Squeeze

variable {new text : List Char} {n : Nat}

theorem squeeze_nil (new : List Char) (n : Nat) : squeeze new n [] = breaks new n := rfl

theorem squeeze_newline (new : List Char) (n : Nat) (text : List Char) :
    squeeze new n ('\n' :: text) = squeeze new (n + 1) text := if_pos rfl

theorem squeeze_cons {c : Char} (h : c ≠ '\n') (new : List Char) (n : Nat) (text : List Char) :
    squeeze new n (c :: text) = breaks new n ++ c :: squeeze new 0 text := if_neg h

/-- The pattern at a run of line breaks. -/
theorem replaceFrom_breaks (new : List Char) (n : Nat) {rest : List Char} (hrest : rest.head? ≠ some '\n')
    (last : Option Char) : ∃ last', Matcher.replaceFrom Pattern.blankRun.starts Pattern.blankRun.body new last 0
        (List.replicate n '\n' ++ rest) =
      breaks new n ++ Matcher.replaceFrom Pattern.blankRun.starts Pattern.blankRun.body new last' 0 rest := by
  have hdrop : ∀ k, (List.replicate k '\n' ++ rest).dropWhile (· == '\n') = rest := by
    intro k
    rw [List.dropWhile_append_of_pos fun c hc => by rw [List.eq_of_mem_replicate hc]; rfl]
    cases rest with
    | nil => rfl
    | cons c rest => exact List.dropWhile_cons_of_neg fun h => hrest (by rw [eq_of_beq h]; rfl)
  have hshort : ∀ k, 0 < k → k < 3 → (Pattern.blankRun.body (List.replicate k '\n' ++ rest)).head? = none := by
    intro k hpos hlt
    refine congrArg List.head? (Matcher.seq_lit_eq_nil fun h => ?_)
    have hrun : ∀ word, ¬ '\n' :: word <+: rest := by
      rintro word ⟨behind, rfl⟩
      exact hrest rfl
    match k, hpos, hlt with
    | 1, _, _ => exact hrun _ (List.cons_prefix_cons.1 h).2
    | 2, _, _ => exact hrun _ (List.cons_prefix_cons.1 (List.cons_prefix_cons.1 h).2).2
  match n with
  | 0 => exact ⟨last, rfl⟩
  | 1 =>
    refine ⟨some '\n', ?_⟩
    exact Matcher.replaceFrom_cons fun _ => hshort 1 (by decide) (by decide)
  | 2 =>
    refine ⟨some '\n', ?_⟩
    exact (Matcher.replaceFrom_cons fun _ => hshort 2 (by decide) (by decide)).trans
      (congrArg ('\n' :: ·) (Matcher.replaceFrom_cons fun _ => hshort 1 (by decide) (by decide)))
  | k + 3 =>
    have hmatch : (Pattern.blankRun.body (List.replicate (k + 2) '\n' ++ '\n' :: rest)).head? = some rest := by
      have htext : List.replicate (k + 2) '\n' ++ '\n' :: rest = "\n\n\n".toList ++ (List.replicate k '\n' ++ rest) := by
        rw [List.append_cons, ← List.replicate_succ']
        rfl
      rw [htext, Pattern.blankRun]
      dsimp only
      rw [Matcher.seq_lit_append, Matcher.head?_many, hdrop]
    refine ⟨some '\n', ?_⟩
    rw [List.replicate_succ', List.append_assoc, List.singleton_append, Matcher.replaceFrom_match rfl hmatch, breaks,
      if_pos (Nat.le_add_left 3 k)]

/-- **The last pattern** replaces the runs of three line breaks or more. -/
theorem sub_blankRun (new text : List Char) : Pattern.blankRun.sub new text = squeeze new 0 text := by
  have hfrom : ∀ (n : Nat) (last : Option Char),
      Matcher.replaceFrom Pattern.blankRun.starts Pattern.blankRun.body new last 0 (List.replicate n '\n' ++ text) =
        squeeze new n text := by
    induction text with
    | nil =>
      intro n last
      obtain ⟨last', hlast⟩ := replaceFrom_breaks new n (by decide : ([] : List Char).head? ≠ some '\n') last
      rw [hlast]
      exact List.append_nil _
    | cons c text ih =>
      intro n last
      by_cases hc : c = '\n'
      · rw [hc, List.append_cons, ← List.replicate_succ', ih, squeeze_newline]
      · have hfirst : (c :: text).head? ≠ some '\n' := fun h => hc (Option.some.inj h)
        obtain ⟨last', hlast⟩ := replaceFrom_breaks new n hfirst last
        have hnone : (Pattern.blankRun.body (c :: text)).head? = none :=
          congrArg List.head? (Matcher.seq_lit_eq_nil fun h => hc (List.cons_prefix_cons.1 h).1.symm)
        rw [hlast, Matcher.replaceFrom_cons fun _ => hnone, squeeze_cons hc]
        exact congrArg (breaks new n ++ c :: ·) (ih 0 (some c))
  exact hfrom 0 none

/-- White space in front comes off before or after. -/
theorem squeeze_dropWhile (hnew : ∀ c ∈ new, isPySpace c = true) (n : Nat) (text : List Char) :
    (squeeze new n text).dropWhile isPySpace = squeeze new 0 (text.dropWhile isPySpace) := by
  have hbreaks : ∀ n, ∀ c ∈ breaks new n, isPySpace c = true := by
    intro n c hc
    unfold breaks at hc
    split at hc
    · exact hnew c hc
    · rw [List.eq_of_mem_replicate hc]
      decide
  induction text generalizing n with
  | nil =>
    rw [squeeze_nil, List.dropWhile_nil]
    exact List.dropWhile_eq_nil_iff.2 fun c hc => hbreaks n c hc
  | cons c text ih =>
    by_cases hc : c = '\n'
    · rw [hc, squeeze_newline, ih, List.dropWhile_cons_of_pos (by decide)]
    · rw [squeeze_cons hc, List.dropWhile_append_of_pos (hbreaks n)]
      by_cases hspace : isPySpace c = true
      · rw [List.dropWhile_cons_of_pos hspace, List.dropWhile_cons_of_pos hspace, ih]
      · rw [List.dropWhile_cons_of_neg hspace, List.dropWhile_cons_of_neg hspace, squeeze_cons hc]
        rfl

theorem squeeze_append {c : Char} (hc : c ≠ '\n') (front behind : List Char) (n : Nat) :
    squeeze new n (front ++ c :: behind) = squeeze new n front ++ c :: squeeze new 0 behind := by
  induction front generalizing n with
  | nil => exact squeeze_cons hc new n behind
  | cons d front ih =>
    rw [List.cons_append]
    by_cases hd : d = '\n'
    · rw [hd, squeeze_newline, squeeze_newline, ih]
    · rw [squeeze_cons hd, squeeze_cons hd, ih, List.append_assoc]
      rfl

theorem squeeze_replicate (new : List Char) (n k : Nat) :
    squeeze new n (List.replicate k '\n') = breaks new (n + k) := by
  induction k generalizing n with
  | zero => rfl
  | succ k ih => rw [List.replicate_succ, squeeze_newline, ih, Nat.add_right_comm, Nat.add_assoc]

/-- Read from its end, a text has the same runs. -/
theorem squeeze_reverse (hnew : new.reverse = new) (n : Nat) (text : List Char) :
    (squeeze new n text).reverse = squeeze new 0 (text.reverse ++ List.replicate n '\n') := by
  have hbreaks : ∀ n, (breaks new n).reverse = breaks new n := by
    intro n
    unfold breaks
    split
    · exact hnew
    · exact List.reverse_replicate
  induction text generalizing n with
  | nil => rw [squeeze_nil, hbreaks, List.reverse_nil, List.nil_append, squeeze_replicate, Nat.zero_add]
  | cons c text ih =>
    by_cases hc : c = '\n'
    · rw [hc, squeeze_newline, ih, List.reverse_cons, List.append_assoc, List.replicate_succ]
      rfl
    · rw [squeeze_cons hc, List.reverse_append, List.reverse_cons, ih, hbreaks, List.reverse_cons, List.append_assoc,
        List.append_assoc, List.replicate_zero, List.append_nil]
      have hend : squeeze new 0 (text.reverse ++ c :: List.replicate n '\n') = _ :=
        squeeze_append hc text.reverse (List.replicate n '\n') 0
      rw [squeeze_replicate, Nat.zero_add] at hend
      exact hend.symm

/-- **Blank lines collapse** in the same way once the white space at both ends is off. -/
theorem stripChars_squeeze (hspace : ∀ c ∈ new, isPySpace c = true) (hnew : new.reverse = new) (text : List Char) :
    stripChars (squeeze new 0 text) = squeeze new 0 (stripChars text) := by
  have hreverse : ∀ t : List Char, (squeeze new 0 t).reverse = squeeze new 0 t.reverse := by
    intro t
    have h := squeeze_reverse hnew 0 t
    rwa [List.replicate_zero, List.append_nil] at h
  unfold stripChars
  rw [squeeze_dropWhile hspace, hreverse, squeeze_dropWhile hspace, hreverse]

end Squeeze

section Collapse

variable {kept : Line → Bool} {line : Line} {behind ls : List Line} {new : List Char} {n : Nat}

/-- No line of the set is parted from other text by two blank lines or more, with nothing else in between. `last` is the
    last line with text, `n` the number of blank lines behind it. -/
def apart (kept : Line → Bool) (last : Line) : Nat → List Line → Bool
  | _, [] => true
  | n, line :: behind =>
    if line = [] then apart kept last (n + 1) behind
    else (decide (n < 2) || last.isEmpty || !(kept last || kept line)) && apart kept line 0 behind

theorem filter_line (kept : Line → Bool) (line : Line) (behind : List Line) :
    (line :: behind).filter kept = [line].filter kept ++ behind.filter kept := by
  rw [← List.filter_append]
  rfl

theorem squeeze_line (h : '\n' ∉ line) (new rest : List Char) :
    squeeze new 0 (line ++ rest) = line ++ squeeze new 0 rest := by
  induction line with
  | nil => rfl
  | cons c line ih =>
    obtain ⟨hc, hline⟩ := not_or.1 (mt List.mem_cons.2 h)
    rw [List.cons_append, squeeze_cons (Ne.symm hc), ih hline]
    rfl

theorem squeeze_after (new : List Char) (n : Nat) (hne : behind ≠ []) :
    squeeze new n (after behind) = squeeze new (n + 1) (ofLines behind) := by
  rw [after_of_ne_nil hne, squeeze_newline]

theorem lines_newline (text : List Char) : lines ('\n' :: text) = [] :: lines text := splitChar_append List.not_mem_nil text

theorem sublist_lines_breaks (n : Nat) (text : List Char) : lines text <+ lines (List.replicate n '\n' ++ text) := by
  induction n with
  | zero => exact List.Sublist.refl _
  | succ n ih =>
    rw [List.replicate_succ, List.cons_append, lines_newline]
    exact ih.cons []

/-- Line breaks between two texts take up no line of the set. -/
theorem filter_lines_breaks (hblank : kept [] = false) (front behind : List Char) (n : Nat) :
    (lines (front ++ (List.replicate (n + 1) '\n' ++ behind))).filter kept =
      (lines front).filter kept ++ (lines behind).filter kept := by
  have hbehind : ∀ k, (lines (List.replicate k '\n' ++ behind)).filter kept = (lines behind).filter kept := by
    intro k
    induction k with
    | zero => rfl
    | succ k ih =>
      rw [List.replicate_succ, List.cons_append, lines_newline, List.filter_cons_of_neg (by rw [hblank]; decide), ih]
  rw [List.replicate_succ, List.cons_append, lines, splitChar_append_sep, List.filter_append, ← lines, ← lines, hbehind]

/-- **The last collapse** keeps all lines that are not blank. -/
theorem filter_lines_squeeze (hblank : kept [] = false) (front : List Char) (n : Nat) (text : List Char) :
    (lines (front ++ squeeze ['\n', '\n'] n text)).filter kept =
      (lines (front ++ (List.replicate n '\n' ++ text))).filter kept := by
  have hbreaks : ∀ (front : List Char) n behind,
      (lines (front ++ (breaks ['\n', '\n'] n ++ behind))).filter kept =
        (lines (front ++ (List.replicate n '\n' ++ behind))).filter kept := by
    intro front n behind
    unfold breaks
    split
    · obtain ⟨k, rfl⟩ : ∃ k, n = k + 1 := ⟨n - 1, by omega⟩
      rw [filter_lines_breaks hblank]
      exact filter_lines_breaks hblank front behind 1
    · rfl
  induction text generalizing front n with
  | nil =>
    rw [squeeze_nil]
    have h := hbreaks front n []
    rwa [List.append_nil] at h
  | cons c text ih =>
    by_cases hc : c = '\n'
    · rw [hc, squeeze_newline, ih, List.replicate_succ', List.append_assoc]
      rfl
    · have hrest := ih (front ++ breaks ['\n', '\n'] n ++ [c]) 0
      simp only [List.append_assoc, List.singleton_append, List.replicate_zero, List.nil_append] at hrest
      rw [squeeze_cons hc, hrest, hbreaks]

theorem keeps_collapse (hblank : kept [] = false) (text : List Char) :
    Keeps kept text (squeeze ['\n', '\n'] 0 text) := by
  have h := filter_lines_squeeze hblank [] 0 text
  rw [List.replicate_zero, List.nil_append, List.nil_append, List.nil_append] at h
  rw [Keeps, ← h]
  exact List.filter_sublist

/-- The pattern keeps the lines of the set that nothing is joined to. `shown` is what is left of the line `last`, which
    `n` line breaks and one follow. -/
theorem filter_squeeze (hblank : kept [] = false) {shown last : Line} (happart : apart kept last n ls = true)
    (hclean : Clean ls) (hshown : '\n' ∉ shown) (hwhole : kept last = true → shown = last)
    (hempty : last = [] → shown = []) :
    [last].filter kept ++ ls.filter kept <+ lines (shown ++ squeeze [] (n + 1) (ofLines ls)) := by
  have hlast : ∀ {l shown : Line}, (kept l = true → shown = l) → [l].filter kept <+ [shown] := by
    intro l shown h
    by_cases hl : kept l = true
    · rw [h hl]
      exact List.filter_sublist
    · rw [List.filter_cons_of_neg hl]
      exact List.nil_sublist _
  -- what a line break follows is a line
  have hbroken : ∀ {shown : Line} {k : Nat} (text : List Char), '\n' ∉ shown →
      lines (shown ++ (List.replicate (k + 1) '\n' ++ text)) = shown :: lines (List.replicate k '\n' ++ text) := by
    intro shown k text h
    exact splitChar_append h (List.replicate k '\n' ++ text)
  induction ls generalizing n shown last with
  | nil =>
    rw [List.filter_nil, List.append_nil]
    refine (hlast hwhole).trans ?_
    show [shown] <+ lines (shown ++ breaks [] (n + 1))
    unfold breaks
    split
    · rw [List.append_nil, lines, splitChar_of_not_mem hshown]
    · have h := hbroken (k := n) [] hshown
      rw [List.append_nil] at h
      rw [h]
      exact (List.nil_sublist _).cons_cons shown
  | cons line behind ih =>
    unfold apart at happart
    by_cases hline : line = []
    · subst hline
      rw [if_pos rfl] at happart
      have hskip : ([] :: behind).filter kept = behind.filter kept := List.filter_cons_of_neg (by rw [hblank]; decide)
      rw [hskip]
      cases behind with
      | nil => exact ih (n := n) rfl hclean.tail hshown hwhole hempty
      | cons b bs =>
        rw [ofLines, List.nil_append, squeeze_after [] (n + 1) (List.cons_ne_nil b bs)]
        exact ih happart hclean.tail hshown hwhole hempty
    · rw [if_neg hline] at happart
      obtain ⟨hpair, hrest⟩ := Bool.and_eq_true_iff.1 happart
      -- the lines from this one on, whatever is left of it
      have hbehind : ∀ shown : Line, '\n' ∉ shown → (kept line = true → shown = line) →
          (line :: behind).filter kept <+ lines (shown ++ squeeze [] 0 (after behind)) := by
        intro shown hshown hwhole
        rw [filter_line]
        cases behind with
        | nil =>
          show [line].filter kept ++ [] <+ lines (shown ++ [])
          rw [List.append_nil, List.append_nil, lines, splitChar_of_not_mem hshown]
          exact hlast hwhole
        | cons b bs =>
          rw [squeeze_after [] 0 (List.cons_ne_nil b bs)]
          exact ih hrest hclean.tail hshown hwhole fun h => absurd h hline
      have hsqueeze : squeeze [] (n + 1) (ofLines (line :: behind)) =
          breaks [] (n + 1) ++ (line ++ squeeze [] 0 (after behind)) := by
        cases line with
        | nil => exact absurd rfl hline
        | cons c line =>
          obtain ⟨hc, hclear⟩ := not_or.1 (mt List.mem_cons.2 hclean.head)
          rw [ofLines, List.cons_append, squeeze_cons (Ne.symm hc), squeeze_line hclear]
          rfl
      rw [hsqueeze]
      unfold breaks
      split
      · -- the blank lines are taken out, and the two lines are one
        rename_i hlong
        have hshort : decide (n < 2) = false := decide_eq_false (by omega)
        rw [hshort, Bool.false_or, Bool.or_eq_true, List.isEmpty_iff] at hpair
        have hnone : [last].filter kept = [] := by
          rw [List.filter_cons_of_neg, List.filter_nil]
          rcases hpair with rfl | hpair
          · rw [hblank]
            decide
          · intro h
            rw [h] at hpair
            cases hpair
        rw [hnone, List.nil_append, List.nil_append, ← List.append_assoc]
        refine hbehind _ (fun h => (List.mem_append.1 h).elim hshown hclean.head) fun h => ?_
        rcases hpair with hnil | hpair
        · rw [hempty hnil]
          rfl
        · rw [h, Bool.or_true] at hpair
          cases hpair
      · rw [hbroken _ hshown]
        exact (hlast hwhole).append ((hbehind line hclean.head fun _ => rfl).trans (sublist_lines_breaks n _))

/-- **Lines with two blank lines to no other text** stay lines. -/
theorem keeps_squeeze (hblank : kept [] = false) {text : List Char}
    (h : apart kept ((lines text).headD []) 0 (lines text).tail = true) : Keeps kept text (squeeze [] 0 text) := by
  have hclean := clean_lines text
  have htext := ofLines_lines text
  rw [Keeps]
  generalize lines text = ls at h hclean htext
  subst htext
  cases ls with
  | nil => exact List.nil_sublist _
  | cons line behind =>
    rw [ofLines, squeeze_line hclean.head]
    cases behind with
    | nil =>
      show [line].filter kept <+ lines (line ++ [])
      rw [List.append_nil, lines, splitChar_of_not_mem hclean.head]
      exact List.filter_sublist
    | cons b bs =>
      rw [filter_line, squeeze_after [] 0 (List.cons_ne_nil b bs)]
      exact filter_squeeze hblank h hclean.tail hclean.head (fun _ => rfl) id

end Collapse

/-! ## White space at the ends -/

section Strip

variable {kept : Line → Bool} {ls : List Line} {text text' : List Char}

/-- Where a line of the set is the first with more than white space, it does not begin with any. -/
def frontWhole (kept : Line → Bool) (ls : List Line) : Bool :=
  match ls.dropWhile fun l => l.all isPySpace with
  | [] => true
  | line :: _ => !kept line || !line.head?.any isPySpace

theorem filter_dropWhile (hspace : ∀ l : Line, l.all isPySpace = true → kept l = false) (hclean : Clean ls)
    (h : frontWhole kept ls = true) : ls.filter kept <+ lines ((ofLines ls).dropWhile isPySpace) := by
  induction ls with
  | nil => exact List.nil_sublist _
  | cons line behind ih =>
    unfold frontWhole at h
    by_cases hblank : line.all isPySpace = true
    · have hdrop : (line :: behind).dropWhile (fun l => l.all isPySpace) = behind.dropWhile fun l => l.all isPySpace :=
        List.dropWhile_cons_of_pos hblank
      rw [hdrop] at h
      rw [List.filter_cons_of_neg (by rw [hspace line hblank]; decide), ofLines,
        List.dropWhile_append_of_pos (List.all_eq_true.1 hblank)]
      cases behind with
      | nil => exact List.nil_sublist _
      | cons b bs => exact ih hclean.tail h
    · -- this is the line that white space may be taken from
      have hfirst : (line :: behind).dropWhile (fun l => l.all isPySpace) = line :: behind :=
        List.dropWhile_cons_of_neg hblank
      rw [hfirst] at h
      dsimp only at h
      have hne : line.dropWhile isPySpace ≠ [] := fun hnil =>
        hblank (List.all_eq_true.2 (List.dropWhile_eq_nil_iff.1 hnil))
      have hclear : Clean (line.dropWhile isPySpace :: behind) :=
        List.forall_mem_cons.2 ⟨fun hmem => hclean.head ((List.dropWhile_sublist _).subset hmem), hclean.tail⟩
      have htext : (ofLines (line :: behind)).dropWhile isPySpace = ofLines (line.dropWhile isPySpace :: behind) := by
        rw [ofLines, List.dropWhile_append, if_neg (by rwa [List.isEmpty_iff])]
        rfl
      rw [htext, lines_ofLines (List.cons_ne_nil _ _) hclear, List.filter_cons]
      split
      · rename_i hkept
        rw [hkept, Bool.not_true, Bool.false_or] at h
        have hwhole : line.dropWhile isPySpace = line := by
          cases line with
          | nil => rfl
          | cons c line => exact List.dropWhile_cons_of_neg (by simpa using h)
        rw [hwhole]
        exact List.filter_sublist.cons_cons line
      · exact List.filter_sublist.cons _

theorem ofLines_reverse (ls : List Line) : (ofLines ls).reverse = ofLines (ls.reverse.map List.reverse) := by
  induction ls with
  | nil => rfl
  | cons line behind ih =>
    rw [ofLines, List.reverse_append, List.reverse_cons, List.map_append]
    cases behind with
    | nil => exact (List.append_nil _).symm
    | cons b bs =>
      rw [after_of_ne_nil (List.cons_ne_nil b bs), List.reverse_cons, ih]
      cases hfront : (b :: bs).reverse.map List.reverse with
      | nil => simp at hfront
      | cons k ks =>
        rw [List.map_singleton, List.cons_append, ofLines, ofLines, after_append, List.append_assoc, List.append_assoc]
        simp [after]

/-- A text read from its end has its lines read from their ends. -/
theorem lines_reverse (text : List Char) : lines text.reverse = (lines text).reverse.map List.reverse := by
  have hclean : Clean ((lines text).reverse.map List.reverse) := by
    intro l hl
    obtain ⟨k, hk, rfl⟩ := List.mem_map.1 hl
    exact fun h => clean_lines text k (List.mem_reverse.1 hk) (List.mem_reverse.1 h)
  have hne : (lines text).reverse.map List.reverse ≠ [] := by
    intro h
    exact splitChar_ne_nil '\n' text (List.reverse_eq_nil_iff.1 (List.map_eq_nil_iff.1 h))
  rw [← lines_ofLines hne hclean, ← ofLines_reverse, ofLines_lines]

theorem keeps_of_reverse (h : Keeps (fun l => kept l.reverse) text.reverse text'.reverse) : Keeps kept text text' := by
  have hreversed : ∀ ls : List Line, ((ls.reverse.map List.reverse).map List.reverse).reverse = ls := fun ls => by simp
  have hsub := (h.map List.reverse).reverse
  rw [lines_reverse, lines_reverse, hreversed] at hsub
  rw [Keeps]
  convert hsub using 1
  simp [List.filter_map, Function.comp_def]

/-- **What `strip` keeps.** -/
theorem keeps_stripChars (hspace : ∀ l : Line, l.all isPySpace = true → kept l = false)
    (hfront : frontWhole kept (lines text) = true)
    (hback : frontWhole (fun l => kept l.reverse) (lines (text.dropWhile isPySpace).reverse) = true) :
    Keeps kept text (stripChars text) := by
  have hfirst : Keeps kept text (text.dropWhile isPySpace) := by
    have h := filter_dropWhile hspace (clean_lines text) hfront
    rwa [ofLines_lines] at h
  refine hfirst.trans (keeps_of_reverse ?_)
  have h : (lines (text.dropWhile isPySpace).reverse).filter (fun l => kept l.reverse) <+ _ := filter_dropWhile
    (fun l hl => hspace l.reverse (by rwa [List.all_reverse])) (clean_lines _) hback
  rw [ofLines_lines] at h
  unfold stripChars
  rw [List.reverse_reverse]
  exact h

end Strip

/-! ## The reduction -/

theorem hasError_of_space {line : Line} (h : line.all isPySpace = true) : hasError line = false := by
  refine eq_false_of_ne_true fun herror => ?_
  have hmem : '#' ∈ line := (containsChars_iff.1 herror).subset (by decide)
  exact absurd (List.all_eq_true.1 h '#' hmem) (by decide)

/-- The log without its preamble. -/
def body (log : List Char) : List Char := ofLines (withoutPreamble preambleRules (lines log))

/-- Nothing that is taken out of the log, and nothing that lines are joined to, touches a line with an error. -/
structure Spared (log : List Char) : Prop where
  preamble : sparedBy hasError preambleRules (lines log) = true
  front : frontWhole hasError (lines (body log)) = true
  back : frontWhole (fun line => hasError line.reverse) (lines ((body log).dropWhile isPySpace).reverse) = true
  apart : apart hasError ((lines (stripChars (body log))).headD []) 0 (lines (stripChars (body log))).tail = true

/-- What is left of a log: its body without white space at the ends, and without most of its blank lines. -/
theorem stripRunnerNoise_eq (log : List Char) :
    stripRunnerNoise log = squeeze ['\n', '\n'] 0 (squeeze [] 0 (stripChars (body log))) := by
  have hpatterns : RUNNER_PREAMBLE_RES = RUNNER_PREAMBLE_RES.dropLast ++ [.blankRun] := rfl
  have hbody : RUNNER_PREAMBLE_RES.dropLast.foldl (fun text pat => pat.sub [] text) log = body log := by
    have h := foldl_sub_eq reads_preamble (clean_lines log) (splitChar_ne_nil '\n' log)
    rwa [ofLines_lines] at h
  have hspace : ∀ c ∈ ['\n', '\n'], isPySpace c = true := forall_mem_of_all (by decide)
  rw [stripRunnerNoise, hpatterns, List.foldl_append, hbody]
  dsimp only [List.foldl_cons, List.foldl_nil]
  rw [sub_blankRun, sub_blankRun, stripChars_squeeze hspace rfl,
    stripChars_squeeze (fun _ h => absurd h List.not_mem_nil) rfl]

/-- **Lines with errors** that are spared stay. -/
theorem Spared.keeps {log : List Char} (h : Spared log) : Keeps hasError log (stripRunnerNoise log) := by
  have hblank : hasError [] = false := rfl
  have hbody : Keeps hasError log (body log) := by
    obtain ⟨hclean, hne⟩ := clean_withoutPreamble reads_preamble (clean_lines log) (splitChar_ne_nil '\n' log)
    rw [Keeps, body, lines_ofLines hne hclean]
    exact (filter_withoutPreamble reads_preamble h.preamble).trans List.filter_sublist
  rw [stripRunnerNoise_eq]
  -- the preamble, the ends, and the blank lines twice
  exact ((hbody.trans (keeps_stripChars (fun _ => hasError_of_space) h.front h.back)).trans
    (keeps_squeeze hblank h.apart)).trans (keeps_collapse hblank _)

/-- **Error lines are kept** where nothing that is taken out or joined touches one of them. The window is as long as
    allowed and shows the first failure marker exactly where it needs no anchor. -/
theorem reduction_keeps_errors {job_log clean_log : List Char} {max_bytes tail_context : Nat} {failure_re : FailureRe}
    (hspared : Spared job_log) (hmax : 0 < max_bytes) :
    Keeps hasError job_log (stripRunnerNoise job_log) ∧
      (ShowsMarker clean_log max_bytes failure_re (captureFailureWindow clean_log max_bytes failure_re tail_context) ↔
        clean_log.length ≤ max_bytes ∨
          ∀ m, failure_re clean_log = some m → clean_log.length - max_bytes ≤ m.val) :=
  ⟨hspared.keeps, showsMarker_iff hmax⟩

/-- A job with preamble blocks, two errors, and blank lines around other text and at its end. -/
def shortJob : List Char :=
  ("Current runner version: '2.317.0'\n##[group]Operating System\nUbuntu\n##[endgroup]\nSecret source: Actions\n" ++
    "##[error]a\nPost job cleanup.\n##[error]b\ndone\n\n\nend\n\n\n\n").toList

theorem reduction_keeps_errors_shortJob :
    Keeps hasError shortJob (stripRunnerNoise shortJob) ∧
      (ShowsMarker shortJob 40 (.literal "##[error]".toList)
          (captureFailureWindow shortJob 40 (.literal "##[error]".toList) 4096) ↔
        shortJob.length ≤ 40 ∨
          ∀ m, FailureRe.literal "##[error]".toList shortJob = some m → shortJob.length - 40 ≤ m.val) :=
  reduction_keeps_errors
    ⟨by decide +kernel, by decide +kernel, by decide +kernel, by decide +kernel⟩ (by decide)

/-- Text is joined where three line breaks were, an error is inside a preamble block, behind a heading on the same line,
    or indented on the first line; and of one character nothing is left for the marker. -/
theorem reduction_loses_errors :
    (∀ log ∈ ["##[error]a\n\n\n##[error]b", "##[group]Operating System\n##[error]a\n##[endgroup]",
        "Post job cleanup.##[error]a", " ##[error]a"],
      ¬ Keeps hasError log.toList (stripRunnerNoise log.toList)) ∧
    captureFailureWindow "a##[error]b".toList 1 (.literal "##[error]".toList) 4096 = anchorPrefix ++ ['a'] := by
  decide +kernel

end LogUtils
end Forge
end RobotsixMill
