import Mathlib.Algebra.GroupWithZero.Nat
import RobotsixMill.Core.DiffContext
import RobotsixMill.Lib.Intervals

/-!
# `Agents.ReadBounds` — what a preload and a full read show of a file

A preload shows the changed ranges of a file with some lines of context. A full read that is over the cap shows the
first lines and the last ones, and a marker in between that says which lines it leaves out. Both ends show at least
one line each.

- `expandAndMergeRanges`, `MergedRanges` — the ranges, and what is asked of them;
- `takeWithin`, `boundFullRead` — the greedy loop, from both ends;
- `ShowsOnce` — head, omitted lines and tail are the lines of the text, and the marker tells which are omitted;
- `excerpts_cover_iff` — the ranges are always right, and the read is if the text has two lines.
-/

namespace RobotsixMill
namespace Agents
open Lib RobotsixMill.Core

/-! ## Ranges -/

/-- A range with `context_lines` on both sides, clamped to the file. -/
def expandRange (context_lines total_lines : Nat) (range : Interval) : Interval :=
  (max 1 (range.1 - context_lines), min total_lines (range.2 + context_lines))

/-- `_expand_and_merge_ranges`. -/
def expandAndMergeRanges (ranges : List Interval) (context_lines total_lines : Nat) : List Interval :=
  mergeIntervals ((ranges.map (expandRange context_lines total_lines)).filter fun r => decide (r.1 ≤ r.2))

/-- The ranges lie in the file, are sorted, disjoint and not adjacent, and cover the lines that are within the context
    of a given one. -/
structure MergedRanges (ranges : List Interval) (context_lines total_lines : Nat) (merged : List Interval) : Prop where
  inside : ∀ r ∈ merged, 1 ≤ r.1 ∧ r.1 ≤ r.2 ∧ r.2 ≤ total_lines
  apart : Apart merged
  covers : ∀ line : Int, CoveredBy merged line ↔
    1 ≤ line ∧ line ≤ total_lines ∧ ∃ r ∈ ranges, r.1 - context_lines ≤ line ∧ line ≤ r.2 + context_lines

theorem mergedRanges (ranges : List Interval) (context_lines total_lines : Nat) :
    MergedRanges ranges context_lines total_lines (expandAndMergeRanges ranges context_lines total_lines) := by
  refine ⟨fun r hr => ?_, apart_mergeIntervals _, fun line => ?_⟩
  · obtain ⟨⟨a, ha, hlo⟩, b, hb, hhi⟩ := mem_mergeIntervals hr
    obtain ⟨a', -, rfl⟩ := List.mem_map.1 (List.mem_filter.1 ha).1
    obtain ⟨b', -, rfl⟩ := List.mem_map.1 (List.mem_filter.1 hb).1
    refine ⟨?_, nonempty_mergeIntervals (fun s hs => of_decide_eq_true (List.mem_filter.1 hs).2) r hr, ?_⟩
    · rw [hlo]
      exact le_max_left _ _
    · rw [hhi]
      exact min_le_left _ _
  · rw [expandAndMergeRanges, coveredBy_mergeIntervals]
    constructor
    · rintro ⟨r, hr, hlo, hhi⟩
      obtain ⟨range, hrange, rfl⟩ := List.mem_map.1 (List.mem_filter.1 hr).1
      obtain ⟨hone, hlo⟩ := max_le_iff.1 hlo
      obtain ⟨htotal, hhi⟩ := le_min_iff.1 hhi
      exact ⟨hone, htotal, range, hrange, hlo, hhi⟩
    · rintro ⟨hone, htotal, range, hrange, hlo, hhi⟩
      have hlo' : (expandRange context_lines total_lines range).1 ≤ line := max_le hone hlo
      have hhi' : line ≤ (expandRange context_lines total_lines range).2 := le_min htotal hhi
      refine ⟨_, List.mem_filter.2 ⟨List.mem_map.2 ⟨range, hrange, rfl⟩, ?_⟩, hlo', hhi'⟩
      exact decide_eq_true (hlo'.trans hhi')

example : expandAndMergeRanges [(30, 31), (3, 5), (10, 12), (7, 7)] 1 30 = [(2, 13), (29, 30)] := by decide

/-! ## A bounded read -/

/-- The greedy loop: lines as long as they fit into the budget, and at least one. -/
def takeWithin (budget : Int) (used : Nat) (taken : Bool) : List (List Char) → List (List Char)
  | [] => []
  | line :: rest =>
    -- the first line is taken whatever it costs
    if taken ∧ budget < used + line.length then [] else line :: takeWithin budget (used + line.length) true rest

/-- The marker between the two slices. -/
def truncationMarker (total_lines length : Nat) (max_chars : Int)
    (head_count tail_count omitted_start omitted_end : Nat) : List Char :=
  (s!"\n\n[... read_file truncated: file has {total_lines} lines ({length} chars), over the " ++
    s!"read_file_max_chars cap of {max_chars}. Showing the first {head_count} and last {tail_count} lines. " ++
    s!"To read the omitted region (lines {omitted_start}-{omitted_end}), call read_file again with " ++
    "offset/limit. ...]\n\n").toList

/-- `_bound_full_read`. -/
def boundFullRead (text : List Char) (max_chars : Int) : List Char :=
  if max_chars ≤ 0 ∨ (text.length : Int) ≤ max_chars then text
  else
    let lines := splitKeepends [] text
    let head_budget := max_chars * 2 / 3
    let tail_budget := max_chars - head_budget
    let head_lines := takeWithin head_budget 0 false lines
    let tail_lines := (takeWithin tail_budget 0 false lines.reverse).reverse
    head_lines.flatten ++
      truncationMarker lines.length text.length max_chars head_lines.length tail_lines.length (head_lines.length + 1)
        (lines.length - tail_lines.length) ++
      tail_lines.flatten

/-- The lines of the text are those of the head, the omitted ones and those of the tail; the read shows the first and
    the last of them, and announces the others. -/
def ShowsOnce (text : List Char) (max_chars : Int) (shown : List Char) : Prop :=
  ∃ head omitted tail, splitKeepends [] text = head ++ omitted ++ tail ∧
    shown = head.flatten ++
      truncationMarker (splitKeepends [] text).length text.length max_chars head.length tail.length (head.length + 1)
        (head.length + omitted.length) ++
      tail.flatten

/-! ## The two loops -/

section Loops

variable {budget : Int} {lines : List (List Char)}

/-- The characters of some lines. -/
def charCount (lines : List (List Char)) : Nat := (lines.map List.length).sum

theorem takeWithin_prefix (budget : Int) (lines : List (List Char)) (used : Nat) (taken : Bool) :
    takeWithin budget used taken lines <+: lines := by
  induction lines generalizing used taken with
  | nil => exact List.prefix_rfl
  | cons line lines ih =>
    rw [takeWithin]
    split
    · exact List.nil_prefix
    · exact (List.prefix_cons_inj line).2 (ih _ _)

/-- Behind the first line the loop keeps to its budget. -/
theorem takeWithin_fits (budget : Int) (lines : List (List Char)) (used : Nat) :
    takeWithin budget used true lines = [] ∨ used + charCount (takeWithin budget used true lines) ≤ budget := by
  induction lines generalizing used with
  | nil => exact .inl rfl
  | cons line lines ih =>
    rw [takeWithin]
    by_cases hover : budget < (used : Int) + line.length
    · rw [if_pos ⟨rfl, hover⟩]
      exact .inl rfl
    · rw [if_neg fun h => hover h.2]
      right
      rcases @ih (used + line.length) with hempty | hfits
      · rw [hempty, charCount, List.map_singleton, List.sum_singleton]
        omega
      · unfold charCount at hfits ⊢
        rw [List.map_cons, List.sum_cons]
        omega

/-- The loop takes a line if there is one, and no second line that is over the budget. -/
theorem takeWithin_spec (budget : Int) (hne : lines ≠ []) : (takeWithin budget 0 false lines).length ≠ 0 ∧
    ((takeWithin budget 0 false lines).length = 1 ∨ charCount (takeWithin budget 0 false lines) ≤ budget) := by
  obtain ⟨line, lines, rfl⟩ := List.exists_cons_of_ne_nil hne
  rw [takeWithin, if_neg fun h => Bool.false_ne_true h.1]
  refine ⟨by rw [List.length_cons]; omega, ?_⟩
  rcases takeWithin_fits budget lines (0 + line.length) with hempty | hfits
  · rw [hempty]
    exact .inl rfl
  · right
    unfold charCount at hfits ⊢
    rw [List.map_cons, List.sum_cons]
    omega

theorem charCount_append (xs ys : List (List Char)) : charCount (xs ++ ys) = charCount xs + charCount ys := by
  unfold charCount
  rw [List.map_append, List.sum_append]

theorem charCount_reverse (xs : List (List Char)) : charCount xs.reverse = charCount xs := by
  unfold charCount
  rw [List.map_reverse, List.sum_reverse]

theorem charCount_splitKeepends (text : List Char) : charCount (splitKeepends [] text) = text.length := by
  have hlength := congrArg List.length (flatten_splitKeepends [] text)
  rwa [List.length_flatten] at hlength

/-- **The two loops do not meet** in a text of two lines that is over the cap. -/
theorem loops_apart {max_chars : Int} (hpos : 0 < max_chars) (hover : max_chars < charCount lines)
    (hlines : 2 ≤ lines.length) :
    (takeWithin (max_chars * 2 / 3) 0 false lines).length +
      (takeWithin (max_chars - max_chars * 2 / 3) 0 false lines.reverse).length ≤ lines.length := by
  have hne : lines ≠ [] := by
    rintro rfl
    exact absurd hlines (by decide)
  obtain ⟨-, hhead⟩ := takeWithin_spec (max_chars * 2 / 3) hne
  obtain ⟨-, htail⟩ := takeWithin_spec (max_chars - max_chars * 2 / 3) (mt List.reverse_eq_nil_iff.1 hne)
  obtain ⟨behind, hfirst⟩ := takeWithin_prefix (max_chars * 2 / 3) lines 0 false
  obtain ⟨before, hlast⟩ := takeWithin_prefix (max_chars - max_chars * 2 / 3) lines.reverse 0 false
  generalize takeWithin (max_chars * 2 / 3) 0 false lines = head at *
  generalize takeWithin (max_chars - max_chars * 2 / 3) 0 false lines.reverse = tail at *
  have hcountHead : charCount lines = charCount head + charCount behind := by rw [← hfirst, charCount_append]
  have hcountTail : charCount lines = charCount tail + charCount before := by
    rw [← charCount_reverse lines, ← hlast, charCount_append]
  by_contra hmeet
  -- they take more than all lines, so more than all characters
  have hboth : charCount lines ≤ charCount head + charCount tail := by
    have hsplit : before.reverse ++ tail.reverse = lines := by
      rw [← List.reverse_append, hlast, List.reverse_reverse]
    have hlength : before.reverse.length ≤ head.length := by
      have := congrArg List.length hsplit
      rw [List.length_append, List.length_reverse, List.length_reverse] at this
      rw [List.length_reverse]
      omega
    -- what the tail leaves is all in the head
    have hbegins : before.reverse <+: head := by
      refine List.prefix_of_prefix_length_le ⟨tail.reverse, hsplit⟩ ⟨behind, hfirst⟩ hlength
    obtain ⟨middle, hmiddle⟩ := hbegins
    have := congrArg charCount hmiddle
    rw [charCount_append, charCount_reverse] at this
    omega
  have hlengthHead := congrArg List.length hfirst
  have hlengthTail := congrArg List.length hlast
  rw [List.length_append] at hlengthHead hlengthTail
  rw [List.length_reverse] at hlengthTail
  have hall : ∀ {xs ys : List (List Char)}, xs.length + ys.length = lines.length → xs.length = lines.length →
      charCount ys = 0 := by
    intro xs ys hsum heq
    have hnil : ys = [] := List.eq_nil_of_length_eq_zero (by omega)
    rw [hnil]
    rfl
  -- a loop that is over its budget has one line, and the other one then has all lines
  rcases hhead with hone | hhead
  · have hrest := hall hlengthTail (by omega)
    rcases htail with htail | htail <;> omega
  · rcases htail with hone | htail
    · have hrest := hall hlengthHead (by omega)
      omega
    · omega

end Loops

/-! ## What a bounded read shows -/

section Shows

variable {text : List Char} {max_chars : Int}

theorem boundFullRead_over (hpos : 0 < max_chars) (hover : max_chars < text.length) :
    boundFullRead text max_chars =
      (takeWithin (max_chars * 2 / 3) 0 false (splitKeepends [] text)).flatten ++
        truncationMarker (splitKeepends [] text).length text.length max_chars
          (takeWithin (max_chars * 2 / 3) 0 false (splitKeepends [] text)).length
          (takeWithin (max_chars - max_chars * 2 / 3) 0 false (splitKeepends [] text).reverse).length
          ((takeWithin (max_chars * 2 / 3) 0 false (splitKeepends [] text)).length + 1)
          ((splitKeepends [] text).length -
            (takeWithin (max_chars - max_chars * 2 / 3) 0 false (splitKeepends [] text).reverse).length) ++
        (takeWithin (max_chars - max_chars * 2 / 3) 0 false (splitKeepends [] text).reverse).reverse.flatten := by
  unfold boundFullRead
  rw [if_neg (by omega)]
  dsimp only
  rw [List.length_reverse]

/-- Of two lines or more each is shown at most once, and the others are announced. -/
theorem showsOnce_of_two_lines (hpos : 0 < max_chars) (hover : max_chars < text.length)
    (hlines : 2 ≤ (splitKeepends [] text).length) : ShowsOnce text max_chars (boundFullRead text max_chars) := by
  rw [boundFullRead_over hpos hover]
  have hcount := charCount_splitKeepends text
  unfold ShowsOnce
  generalize splitKeepends [] text = lines at *
  have hapart := loops_apart hpos (by omega) hlines
  obtain ⟨behind, hfirst⟩ := takeWithin_prefix (max_chars * 2 / 3) lines 0 false
  obtain ⟨before, hlast⟩ := takeWithin_prefix (max_chars - max_chars * 2 / 3) lines.reverse 0 false
  generalize takeWithin (max_chars * 2 / 3) 0 false lines = head at *
  generalize takeWithin (max_chars - max_chars * 2 / 3) 0 false lines.reverse = tail at *
  have hsplit : before.reverse ++ tail.reverse = lines := by
    rw [← List.reverse_append, hlast, List.reverse_reverse]
  have hlength := congrArg List.length hsplit
  rw [List.length_append, List.length_reverse, List.length_reverse] at hlength
  -- the head ends before the tail begins, and the omitted lines are in between
  obtain ⟨omitted, homitted⟩ : head <+: before.reverse := by
    refine List.prefix_of_prefix_length_le ⟨behind, hfirst⟩ ⟨tail.reverse, hsplit⟩ ?_
    rw [List.length_reverse]
    omega
  refine ⟨head, omitted, tail.reverse, by rw [homitted, hsplit], ?_⟩
  have hbefore := congrArg List.length homitted
  rw [List.length_append, List.length_reverse] at hbefore
  rw [List.length_reverse, hbefore, ← hlength, Nat.add_sub_cancel]

/-- The length of a marker with small numbers depends on the file alone. -/
theorem length_truncationMarker {total_lines length h t a b h' t' a' b' : Nat} (hh : h < 10) (ht : t < 10) (ha : a < 10)
    (hb : b < 10) (hh' : h' < 10) (ht' : t' < 10) (ha' : a' < 10) (hb' : b' < 10) :
    (truncationMarker total_lines length max_chars h t a b).length =
      (truncationMarker total_lines length max_chars h' t' a' b').length := by
  have hdigit : ∀ n < 10, (toString n).toList.length = 1 := by decide
  unfold truncationMarker
  simp only [String.toList_append, List.length_append, hdigit _ hh, hdigit _ ht, hdigit _ ha, hdigit _ hb, hdigit _ hh',
    hdigit _ ht', hdigit _ ha', hdigit _ hb']

/-- A single line is shown twice. -/
theorem not_showsOnce_of_one_line (hpos : 0 < max_chars) (hover : max_chars < text.length)
    (hlines : splitKeepends [] text = [text]) : ¬ ShowsOnce text max_chars (boundFullRead text max_chars) := by
  -- each loop takes the line
  have hall : ∀ budget : Int, takeWithin budget 0 false [text] = [text] := by
    intro budget
    rw [takeWithin, if_neg fun h => Bool.false_ne_true h.1]
    rfl
  rintro ⟨head, omitted, tail, hsplit, hshown⟩
  rw [boundFullRead_over hpos hover] at hshown
  rw [hlines, List.reverse_singleton, hall, hall] at hshown
  rw [hlines] at hsplit
  have hcounts := congrArg List.length hsplit
  have hchars := congrArg charCount hsplit
  rw [charCount_append, charCount_append] at hchars
  rw [List.length_append, List.length_append] at hcounts
  have hlength := congrArg List.length hshown
  rw [List.length_append, List.length_append, List.length_append, List.length_append, List.length_flatten,
    List.length_flatten, List.length_flatten, List.length_flatten] at hlength
  have hone : [text].length = 1 := rfl
  -- both markers have one digit a number, so that lengths decide
  have hmarker : (truncationMarker 1 text.length max_chars 1 1 2 0).length =
      (truncationMarker 1 text.length max_chars head.length tail.length (head.length + 1)
        (head.length + omitted.length)).length :=
    length_truncationMarker (by omega) (by omega) (by omega) (by omega) (by omega) (by omega) (by omega) (by omega)
  unfold charCount at hchars
  have htext : ([text].map List.length).sum = text.length := by rw [List.map_singleton, List.sum_singleton]
  rw [List.reverse_singleton, htext] at hlength
  rw [htext] at hchars
  rw [hone] at hlength hcounts
  simp only [Nat.reduceAdd, Nat.reduceSub] at hlength
  omega

end Shows

/-- **What is shown of a file.** The ranges of a preload are always right. A full read over the cap shows each line at
    most once and announces all others, if and only if the text has two lines. -/
theorem excerpts_cover_iff (ranges : List Interval) (context_lines total_lines : Nat) {text : List Char}
    {max_chars : Int} (hpos : 0 < max_chars) (hover : max_chars < text.length) :
    MergedRanges ranges context_lines total_lines (expandAndMergeRanges ranges context_lines total_lines) ∧
      (ShowsOnce text max_chars (boundFullRead text max_chars) ↔ 2 ≤ (splitKeepends [] text).length) := by
  refine ⟨mergedRanges ranges context_lines total_lines, fun hshows => ?_, showsOnce_of_two_lines hpos hover⟩
  by_contra hfew
  have hflatten : (splitKeepends [] text).flatten = text := flatten_splitKeepends [] text
  cases hlines : splitKeepends [] text with
  | nil =>
    rw [hlines] at hflatten
    rw [← hflatten] at hover
    exact absurd hover (Int.not_lt.2 (Int.le_of_lt hpos))
  | cons line rest =>
    rw [hlines, List.length_cons] at hfew
    have hrest : rest = [] := List.eq_nil_of_length_eq_zero (by omega)
    rw [hlines, hrest, List.flatten_singleton] at hflatten
    refine not_showsOnce_of_one_line hpos hover ?_ hshows
    rw [hlines, hrest, hflatten]

/-- A range with its context, and a file of two lines, both of which are shown. -/
theorem excerpts_cover_two_lines : MergedRanges [(3, 5)] 1 30 [(2, 6)] ∧
    ShowsOnce "ab\ncde\n".toList 4 (boundFullRead "ab\ncde\n".toList 4) := by
  obtain ⟨hmerged, hshows⟩ := excerpts_cover_iff [(3, 5)] 1 30 (by decide : (0 : Int) < 4)
    (by decide : (4 : Int) < "ab\ncde\n".toList.length)
  exact ⟨hmerged, hshows.2 (by decide)⟩

/-- The only line of a file is shown twice. -/
theorem one_line_shown_twice :
    ¬ ((∀ (ranges : List Interval) (context_lines total_lines : Nat),
        MergedRanges ranges context_lines total_lines (expandAndMergeRanges ranges context_lines total_lines)) ∧
      ∀ (text : List Char) (max_chars : Int), 0 < max_chars → max_chars < text.length →
        ShowsOnce text max_chars (boundFullRead text max_chars)) := by
  rintro ⟨-, h⟩
  exact not_showsOnce_of_one_line (by decide) (by decide) (by decide) (h "aaaa".toList 3 (by decide) (by decide))

end Agents
end RobotsixMill
