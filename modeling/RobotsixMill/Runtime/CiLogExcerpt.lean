import RobotsixMill.Lib.DelimitedText

/-!
# `Runtime.CiLogExcerpt` — the log part of a CI failure draft

The forge writes one section for each failed job. The draft cuts every section behind its last error line; where
that is still too long it keeps the lines around the errors, an equal share of the cap for each section.

- `jobSectionHeaders` — the section headers in the log, as the header pattern finds them;
- `errorExcerpt`, `cutPart`, `failedStepLogs` — the excerpt;
- `excerpt_right_iff` — when every section keeps its header and ends with its last error line, within the cap.
-/

namespace RobotsixMill
namespace Runtime
namespace CiLog
open Lib

abbrev Line := List Char

def CI_LOG_EMBED_MAX_CHARS : Nat := 20000
def CI_ERROR_MARKER : Line := "##[error]".toList
def CI_ERROR_CONTEXT_LINES : Nat := 10
def CI_STEP_EXIT_TAIL_LINES : Nat := 60

/-! ## Section headers -/

/-- A match of the header pattern. -/
structure JobHeader where
  /-- `m.start()`. -/
  start : Nat
  name : Line
  failingStep : Option Line
deriving DecidableEq, Repr

/-- The pattern behind the job's name: its id, the failing step if there is one, and the end of the line. The step,
    and what is left of the text. -/
def matchIdAndStep (cs : List Char) : Option (Option Line × List Char) :=
  if " (id=".toList.isPrefixOf cs then
    match (cs.drop " (id=".length).dropWhile (· ≠ ')') with
    | [] => none
    | _ :: rest =>
      let line := rest.takeWhile (· ≠ '\n')
      if " — failing step: ".toList.isPrefixOf line ∧ " — failing step: ".length < line.length then
        some (some (line.drop " — failing step: ".length), rest.drop line.length)
      else if line = [] then some (none, rest)
      else none
  else none

/-- The name, as short as the rest of the pattern allows; `name` is what it has so far, reversed. -/
def matchName (name : Line) : List Char → Option (Line × Option Line × List Char)
  | [] => none
  | c :: cs =>
    if c = '\n' then none
    else
      match matchIdAndStep cs with
      | some (step, rest) => some ((c :: name).reverse, step, rest)
      | none => matchName (c :: name) cs

/-- The header pattern at the start of a line. -/
def matchHeader (cs : List Char) : Option (Line × Option Line × List Char) :=
  if "### Job: ".toList.isPrefixOf cs then matchName [] (cs.drop "### Job: ".length) else none

/-- `finditer`: `skip` characters belong to the last match. -/
def jobSectionHeadersGo (pos skip : Nat) (lineStart : Bool) : List Char → List JobHeader
  | [] => []
  | c :: cs =>
    match (if skip = 0 && lineStart then matchHeader (c :: cs) else none) with
    | some (name, step, rest) =>
      ⟨pos, name, step⟩ :: jobSectionHeadersGo (pos + 1) (cs.length - rest.length) (c == '\n') cs
    | none => jobSectionHeadersGo (pos + 1) (skip - 1) (c == '\n') cs

/-- `_JOB_SECTION_HEADER_RE.finditer(log)`. -/
def jobSectionHeaders (log : List Char) : List JobHeader := jobSectionHeadersGo 0 0 true log

/-! ## One section -/

def isError (line : Line) : Bool := containsChars CI_ERROR_MARKER line

def isJobUrl (line : Line) : Bool := "Job URL:".toList.isPrefixOf line

/-- `section.splitlines()`. -/
def sectionLines (sec : List Char) : List Line := splitlinesGo [] sec

/-- `lines[i]`. -/
def lineAt (lines : List Line) (i : Nat) : Line := lines.getD i []

/-- `errs`. -/
def errorIndices (lines : List Line) : List Nat :=
  (List.range lines.length).filter fun i => isError (lineAt lines i)

/-- `_drop_after_last_error`. -/
def dropAfterLastError (sec : List Char) : List Char :=
  match (errorIndices (sectionLines sec)).getLast? with
  | none => rstripChars sec
  | some last => ['\n'].intercalate ((sectionLines sec).take (last + 1))

/-- `end`: the last line of the excerpt's window. -/
def windowEnd (lines : List Line) : Nat := (errorIndices lines).getLast?.getD (lines.length - 1)

/-- `i in keep`. -/
def isKept (lines : List Line) (i : Nat) : Bool :=
  decide (i < 3) && (decide (i = 0) || isJobUrl (lineAt lines i)) ||
  decide (windowEnd lines - CI_STEP_EXIT_TAIL_LINES ≤ i) && decide (i ≤ windowEnd lines) ||
  (errorIndices lines).any fun e =>
    decide (e - CI_ERROR_CONTEXT_LINES ≤ i) && decide (i < min (windowEnd lines + 1) (e + CI_ERROR_CONTEXT_LINES + 1))

/-- `sorted(keep)`. -/
def keptIndices (lines : List Line) : List Nat := (List.range lines.length).filter (isKept lines)

/-- The kept lines, with a mark where lines were left out; `next` is the line behind the last one. -/
def markGaps (lines : List Line) : Nat → List Nat → List Line
  | _, [] => []
  | next, i :: is =>
    if next < i then "[…]".toList :: lineAt lines i :: markGaps lines (i + 1) is
    else lineAt lines i :: markGaps lines (i + 1) is

/-- `_error_excerpt`. -/
def errorExcerpt (sec : List Char) : List Char :=
  ['\n'].intercalate (markGaps (sectionLines sec) 0 (keptIndices (sectionLines sec)))

/-- Cut an excerpt that is longer than its share: the header line and the end stay. -/
def cutPart (share : Int) (ex : List Char) : List Char :=
  if share < ex.length then
    let head := (partitionChar '\n' ex).1
    let rest := (partitionChar '\n' ex).2
    let keep := (share - head.length - 5).toNat
    head ++ "\n[…]\n".toList ++ rest.drop (rest.length - keep)
  else ex

/-! ## All sections -/

/-- The text from each header to the next one. -/
def sectionsOf (log : List Char) (starts : List Nat) : List (List Char) :=
  List.zipWith (fun start stop => (log.take stop).drop start) starts (starts.tail ++ [log.length])

/-- The share of the cap one of `n` sections has. -/
def share (n : Nat) : Int := (CI_LOG_EMBED_MAX_CHARS / n : Nat) - 2

/-- What stands before the first section; a blank line parts it from the sections. -/
def preambleOf (log : List Char) (starts : List Nat) : List Char :=
  let preamble := stripChars (log.take (starts.headD log.length))
  if preamble = [] then [] else preamble ++ ['\n', '\n']

/-- All sections, each cut behind its last error line. -/
def trimmedLogs (log : List Char) (starts : List Nat) : List Char :=
  preambleOf log starts ++ ['\n', '\n'].intercalate ((sectionsOf log starts).map dropAfterLastError)

/-- The trimmed sections do not fit in the draft. -/
def overCap (log : List Char) (starts : List Nat) : Bool :=
  decide (CI_LOG_EMBED_MAX_CHARS < (trimmedLogs log starts).length)

/-- `_failed_step_logs`, with whether the text was excerpted. -/
def failedStepLogs (log : List Char) (starts : List Nat) : List Char × Bool :=
  if overCap log starts then
    let sections := sectionsOf log starts
    (['\n', '\n'].intercalate (sections.map fun s => cutPart (share sections.length) (errorExcerpt s)), true)
  else (trimmedLogs log starts, false)

/-! ## The draft -/

def failedJobText (workflow : String) (h : JobHeader) : String :=
  let job := if workflow = "" then "" else s!"{workflow} / "
  let step := match h.failingStep with
    | none => ""
    | some step => " › " ++ String.ofList (stripChars step)
  "`" ++ job ++ String.ofList (stripChars h.name) ++ step ++ "`"

def EXCERPT_NOTE : String :=
  "_Failing-step excerpt below (lines around `##[error]` " ++
  "markers and before each step exits — full logs at the run " ++
  "link above)._"

def TAIL_NOTE : String :=
  "_Log tail below (truncated to the last " ++
  "20,000 chars — full logs at the run " ++
  "link above)._"

/-- The text the body embeds, and whether it was excerpted: the failing steps if the log has sections. -/
def narrowed (log : List Char) : List Char × Bool :=
  let headers := jobSectionHeaders log
  if headers = [] then (log, false) else failedStepLogs log (headers.map JobHeader.start)

/-- `_ci_log_body_parts` of a log whose escape sequences are removed. -/
def ciLogBodyParts (log : List Char) (workflow : String) : List String :=
  let headers := jobSectionHeaders log
  let failed := if headers = [] then []
    else ["**Failed:** " ++ "; ".intercalate (headers.map (failedJobText workflow)), ""]
  let excerptNote := if (narrowed log).2 then [EXCERPT_NOTE] else []
  let text := (narrowed log).1
  let tail := if CI_LOG_EMBED_MAX_CHARS < text.length then text.drop (text.length - CI_LOG_EMBED_MAX_CHARS) else text
  let tailNote := if CI_LOG_EMBED_MAX_CHARS < text.length then [TAIL_NOTE] else []
  failed ++ excerptNote ++ tailNote ++ ["```", String.ofList tail, "```"]

/-! ## Indices that meet a test -/

theorem getLast?_filter_range {n k : Nat} {p : Nat → Bool} :
    ((List.range n).filter p).getLast? = some k ↔ k < n ∧ p k = true ∧ ∀ j, k < j → j < n → p j = false := by
  induction n with
  | zero => simp
  | succ n ih =>
    rw [List.range_succ, List.filter_append]
    cases hp : p n with
    | true =>
      have hlast : (List.filter p (List.range n) ++ List.filter p [n]).getLast? = some n := by simp [hp]
      rw [hlast, Option.some.injEq]
      constructor
      · rintro rfl
        exact ⟨Nat.lt_succ_self n, hp, fun j hlt hle => absurd hle (by omega)⟩
      · rintro ⟨hk, -, hmax⟩
        by_contra hne
        have hfalse := hmax n (by omega) (Nat.lt_succ_self n)
        rw [hp] at hfalse
        cases hfalse
    | false =>
      have hnil : List.filter p [n] = [] := by simp [hp]
      rw [hnil, List.append_nil, ih]
      constructor
      · rintro ⟨hk, hpk, hmax⟩
        refine ⟨by omega, hpk, ?_⟩
        intro j hkj hj
        obtain hlt | rfl := Nat.lt_succ_iff_lt_or_eq.1 hj
        · exact hmax j hkj hlt
        · exact hp
      · rintro ⟨hk, hpk, hmax⟩
        refine ⟨?_, hpk, fun j hkj hj => hmax j hkj (by omega)⟩
        obtain hlt | rfl := Nat.lt_succ_iff_lt_or_eq.1 hk
        · exact hlt
        · rw [hp] at hpk
          cases hpk

theorem getLast?_filter_range_eq_none {n : Nat} {p : Nat → Bool} :
    ((List.range n).filter p).getLast? = none ↔ ∀ j < n, p j = false := by
  rw [List.getLast?_eq_none_iff, List.filter_eq_nil_iff]
  simp only [List.mem_range, Bool.not_eq_true]

/-! ## Cutting an excerpt -/

section Cut

variable {header u x : Line} {lines : List Line} {room : Nat}

/-- A text of several lines, parted behind the first. -/
theorem partition_lines (h : '\n' ∉ header) (hne : lines ≠ []) :
    partitionChar '\n' (['\n'].intercalate (header :: lines)) = (header, ['\n'].intercalate lines) := by
  rw [List.intercalate_cons_of_ne_nil hne, List.append_assoc, List.singleton_append]
  exact partitionChar_eq h _

/-- The cut text: the header line, the mark and the end of what is behind the header. -/
theorem cutPart_eq (h : '\n' ∉ header) (hroom : header.length + 5 ≤ room) :
    cutPart room (['\n'].intercalate (header :: lines)) =
      if room < (['\n'].intercalate (header :: lines)).length then
        header ++ "\n[…]\n".toList ++ (['\n'].intercalate lines).drop
          ((['\n'].intercalate lines).length - (room - header.length - 5))
      else ['\n'].intercalate (header :: lines) := by
  unfold cutPart
  simp only [Int.ofNat_lt]
  split
  · rename_i hlong
    cases lines with
    | nil =>
      rw [List.intercalate_singleton] at hlong
      omega
    | cons line lines =>
      have hkeep : ((room : Int) - header.length - 5).toNat = room - header.length - 5 := by omega
      rw [partition_lines h (List.cons_ne_nil _ _)]
      dsimp only
      rw [hkeep]
  · rfl

theorem length_lines (hne : lines ≠ []) : (['\n'].intercalate (header :: lines)).length =
    header.length + 1 + (['\n'].intercalate lines).length := by
  rw [List.intercalate_cons_of_ne_nil hne, List.length_append, List.length_append, List.length_singleton]

/-- An excerpt that is cut has more than a header. -/
theorem ne_nil_of_long (hroom : header.length + 5 ≤ room)
    (hlong : room < (['\n'].intercalate (header :: lines)).length) : lines ≠ [] := by
  rintro rfl
  rw [List.intercalate_singleton] at hlong
  omega

theorem length_cutPart_le (h : '\n' ∉ header) (hroom : header.length + 5 ≤ room) :
    (cutPart room (['\n'].intercalate (header :: lines))).length ≤ room := by
  rw [cutPart_eq h hroom]
  split
  · have hmark : "\n[…]\n".toList.length = 5 := by decide
    rw [List.length_append, List.length_append, List.length_drop, hmark]
    omega
  · omega

theorem prefix_lines (header : Line) (lines : List Line) : header <+: ['\n'].intercalate (header :: lines) := by
  cases lines with
  | nil => exact ⟨[], by rw [List.append_nil, List.intercalate_singleton]⟩
  | cons line lines =>
    rw [List.intercalate_cons_cons, List.append_assoc]
    exact List.prefix_append ..

theorem prefix_cutPart (h : '\n' ∉ header) (hroom : header.length + 5 ≤ room) :
    header <+: cutPart room (['\n'].intercalate (header :: lines)) := by
  rw [cutPart_eq h hroom]
  split
  · rw [List.append_assoc]
    exact List.prefix_append ..
  · exact prefix_lines header lines

/-- The lines joined end as the last one does. -/
theorem suffix_lines_iff (hlast : lines.getLast? = some u) (hx : '\n' ∉ x) :
    x <:+ ['\n'].intercalate lines ↔ x <:+ u := by
  obtain ⟨init, rfl⟩ := List.getLast?_eq_some_iff.1 hlast
  rcases intercalate_concat '\n' init u with heq | ⟨before, heq⟩
  · rw [heq]
  · rw [heq]
    exact suffix_behind_iff hx before u

/-- **The end of a cut excerpt is the end of its last line**, as far as there is room for it. -/
theorem suffix_cutPart_iff (h : '\n' ∉ header) (hroom : header.length + 5 + x.length ≤ room)
    (hlast : (header :: lines).getLast? = some u) (hx : '\n' ∉ x) :
    x <:+ cutPart room (['\n'].intercalate (header :: lines)) ↔ x <:+ u := by
  rw [cutPart_eq h (by omega)]
  split
  · rename_i hlong
    have hne := ne_nil_of_long (by omega) hlong
    rw [length_lines hne] at hlong
    rw [List.getLast?_cons_of_ne_nil hne] at hlast
    rw [← suffix_lines_iff hlast hx]
    have hend : (['\n'].intercalate lines).drop
        ((['\n'].intercalate lines).length - (room - header.length - 5)) <:+ ['\n'].intercalate lines :=
      List.drop_suffix ..
    have hlen : x.length ≤ ((['\n'].intercalate lines).drop
        ((['\n'].intercalate lines).length - (room - header.length - 5))).length := by
      rw [List.length_drop]
      omega
    constructor
    · intro hsuf
      exact (List.suffix_of_suffix_length_le hsuf (List.suffix_append ..) hlen).trans hend
    · intro hsuf
      exact (List.suffix_of_suffix_length_le hsuf hend hlen).trans (List.suffix_append ..)
  · exact suffix_lines_iff hlast hx

end Cut

/-! ## The last line an excerpt keeps -/

/-- The first line of a section. -/
def headerLine (sec : List Char) : Line := lineAt (sectionLines sec) 0

/-- The last line of a section with the error marker. -/
def lastErrorLine (sec : List Char) : Option Line :=
  (errorIndices (sectionLines sec)).getLast?.map (lineAt (sectionLines sec))

/-- A line with the job's URL among the first three, behind the end of the window. -/
def lateUrlIndex (lines : List Line) : Option Nat :=
  ((List.range lines.length).filter fun j =>
    decide (j < 3) && decide (windowEnd lines < j) && isJobUrl (lineAt lines j)).getLast?

def lateUrl (sec : List Char) : Option Line :=
  (lateUrlIndex (sectionLines sec)).map (lineAt (sectionLines sec))

section Kept

variable {lines : List Line}

theorem windowEnd_lt (hne : lines ≠ []) : windowEnd lines < lines.length := by
  have hpos : 0 < lines.length := List.length_pos_iff.2 hne
  unfold windowEnd
  cases herr : (errorIndices lines).getLast? with
  | none =>
    show lines.length - 1 < lines.length
    omega
  | some last => exact (getLast?_filter_range.1 herr).1

theorem isKept_windowEnd : isKept lines (windowEnd lines) = true := by
  simp [isKept]

theorem isKept_zero : isKept lines 0 = true := by
  simp [isKept]

/-- Behind the window only the job's URL is kept. -/
theorem isKept_behind {j : Nat} (hj : windowEnd lines < j) :
    isKept lines j = (decide (j < 3) && isJobUrl (lineAt lines j)) := by
  unfold isKept
  have hwindow : decide (j ≤ windowEnd lines) = false := by
    rw [decide_eq_false_iff_not]
    omega
  have hcontext : ((errorIndices lines).any fun e => decide (e - CI_ERROR_CONTEXT_LINES ≤ j) &&
      decide (j < min (windowEnd lines + 1) (e + CI_ERROR_CONTEXT_LINES + 1))) = false := by
    rw [List.any_eq_false]
    intro e _
    rw [Bool.not_eq_true, Bool.and_eq_false_iff]
    right
    rw [decide_eq_false_iff_not]
    omega
  have hfirst : decide (j = 0) = false := by
    rw [decide_eq_false_iff_not]
    omega
  rw [hwindow, hcontext, hfirst, Bool.and_false, Bool.or_false, Bool.or_false, Bool.false_or]

/-- The last line kept is the end of the window, or a late URL. -/
theorem getLast?_keptIndices (hne : lines ≠ []) :
    (keptIndices lines).getLast? = some ((lateUrlIndex lines).getD (windowEnd lines)) := by
  rw [keptIndices, getLast?_filter_range]
  cases hlate : lateUrlIndex lines with
  | some k =>
    obtain ⟨hk, hp, hmax⟩ := getLast?_filter_range.1 hlate
    simp only [Bool.and_eq_true, decide_eq_true_eq] at hp
    obtain ⟨⟨hthree, hbehind⟩, hurl⟩ := hp
    refine ⟨hk, ?_, ?_⟩
    · show isKept lines k = true
      rw [isKept_behind hbehind, hurl]
      simpa using hthree
    · intro j hkj hj
      have hfalse := hmax j hkj hj
      have hend : windowEnd lines < j := hbehind.trans hkj
      rw [isKept_behind hend]
      simpa [hend] using hfalse
  | none =>
    have hnone := getLast?_filter_range_eq_none.1 hlate
    refine ⟨windowEnd_lt hne, isKept_windowEnd, ?_⟩
    intro j hkj hj
    have hfalse := hnone j hj
    have hend : windowEnd lines < j := hkj
    rw [isKept_behind hend]
    simpa [hend] using hfalse

theorem keptIndices_eq_cons (hne : lines ≠ []) : ∃ is, keptIndices lines = 0 :: is := by
  obtain ⟨n, hn⟩ := Nat.exists_eq_succ_of_ne_zero (List.length_pos_iff.2 hne).ne'
  unfold keptIndices
  rw [hn, List.range_succ_eq_map, List.filter_cons_of_pos isKept_zero]
  exact ⟨_, rfl⟩

theorem getLast?_markGaps (next : Nat) (is : List Nat) :
    (markGaps lines next is).getLast? = is.getLast?.map (lineAt lines) := by
  induction is generalizing next with
  | nil => rfl
  | cons i is ih =>
    have hrest : (lineAt lines i :: markGaps lines (i + 1) is).getLast? =
        (i :: is).getLast?.map (lineAt lines) := by
      rw [List.getLast?_cons, List.getLast?_cons, ih (i + 1)]
      cases is.getLast? <;> rfl
    unfold markGaps
    split
    · rw [List.getLast?_cons, hrest]
      cases h : (i :: is).getLast? with
      | none => simp at h
      | some k => rfl
    · exact hrest

/-- **The excerpt of a section**: its header first, and last the line that ends the window, or a late URL. -/
theorem errorExcerpt_eq {sec : List Char} (hne : sec ≠ []) :
    ∃ lines, errorExcerpt sec = ['\n'].intercalate (headerLine sec :: lines) ∧
      (headerLine sec :: lines).getLast? = some (lineAt (sectionLines sec)
        ((lateUrlIndex (sectionLines sec)).getD (windowEnd (sectionLines sec)))) := by
  have hlines : sectionLines sec ≠ [] := by
    intro h
    exact hne (splitlinesGo_eq_nil.1 h).2
  obtain ⟨is, his⟩ := keptIndices_eq_cons hlines
  have hlast := getLast?_keptIndices hlines
  have hmark : markGaps (sectionLines sec) 0 (0 :: is) = headerLine sec :: markGaps (sectionLines sec) 1 is := by
    rw [markGaps, if_neg (Nat.lt_irrefl 0)]
    rfl
  refine ⟨markGaps (sectionLines sec) 1 is, ?_, ?_⟩
  · rw [errorExcerpt, his, hmark]
  · rw [← hmark, getLast?_markGaps, ← his, hlast]
    rfl

end Kept

/-! ## Lines of a section -/

section Lines

variable {sec : List Char} {i : Nat}

theorem not_mem_lineAt : '\n' ∉ lineAt (sectionLines sec) i := by
  intro h
  unfold lineAt at h
  rw [List.getD_eq_getElem?_getD] at h
  cases hline : (sectionLines sec)[i]? with
  | none =>
    rw [hline] at h
    exact List.not_mem_nil h
  | some line =>
    rw [hline] at h
    have hbreak := not_isLineBreak_of_mem_splitlinesGo (by simp) (List.mem_of_getElem? hline) h
    exact absurd hbreak (by decide)

theorem not_mem_headerLine : '\n' ∉ headerLine sec := not_mem_lineAt

theorem prefix_headerLine (sec : List Char) : headerLine sec <+: sec := by
  unfold headerLine lineAt
  cases hlines : sectionLines sec with
  | nil => exact List.nil_prefix
  | cons line lines => exact prefix_of_splitlinesGo hlines

/-! ## One section -/

/-- A section that is cut behind its last error line starts with the header and ends with that line. -/
theorem dropAfterLastError_of_error {e : Line} (h : lastErrorLine sec = some e) :
    headerLine sec <+: dropAfterLastError sec ∧ e <:+ dropAfterLastError sec := by
  obtain ⟨last, hlast, rfl⟩ := Option.map_eq_some_iff.1 h
  have hlt := (getLast?_filter_range.1 hlast).1
  have hline : (sectionLines sec)[last]? = some (lineAt (sectionLines sec) last) := by
    rw [lineAt, List.getD_eq_getElem?_getD, List.getElem?_eq_getElem hlt]
    rfl
  unfold dropAfterLastError
  rw [hlast]
  dsimp only
  constructor
  · obtain ⟨line, lines, hcons⟩ := List.exists_cons_of_ne_nil (List.ne_nil_of_length_pos (Nat.zero_lt_of_lt hlt))
    rw [headerLine, hcons, List.take_succ_cons]
    exact prefix_lines ..
  · rw [List.take_add_one, hline]
    exact (suffix_lines_iff (List.getLast?_concat ..) not_mem_lineAt).2 List.suffix_rfl

theorem dropAfterLastError_of_none (h : lastErrorLine sec = none) : dropAfterLastError sec = rstripChars sec := by
  rw [lastErrorLine, Option.map_eq_none_iff] at h
  rw [dropAfterLastError, h]

/-- The header of a section without errors, when nothing is excerpted. -/
theorem header_of_none (h : lastErrorLine sec = none) :
    headerLine sec <+: dropAfterLastError sec ↔
      (∃ c ∈ sec.drop (headerLine sec).length, isPySpace c = false) ∨
        rstripChars (headerLine sec) = headerLine sec := by
  have hsec : headerLine sec ++ sec.drop (headerLine sec).length = sec :=
    List.prefix_iff_eq_append.1 (prefix_headerLine sec)
  rw [← prefix_rstripChars_iff, hsec, dropAfterLastError_of_none h]

/-- The end of a line, at most `room` long. -/
def endOf (room : Nat) (line : Line) : Line := line.drop (line.length - room)

theorem length_endOf_le (room : Nat) (line : Line) : (endOf room line).length ≤ room := by
  rw [endOf, List.length_drop]
  omega

/-- The last line the excerpt of a section with errors keeps. -/
theorem lastKept_of_error {e : Line} (h : lastErrorLine sec = some e) :
    lineAt (sectionLines sec) ((lateUrlIndex (sectionLines sec)).getD (windowEnd (sectionLines sec))) =
      (lateUrl sec).getD e := by
  obtain ⟨last, hlast, rfl⟩ := Option.map_eq_some_iff.1 h
  unfold lateUrl
  cases lateUrlIndex (sectionLines sec) with
  | some k => rfl
  | none =>
    show lineAt (sectionLines sec) (windowEnd (sectionLines sec)) = lineAt (sectionLines sec) last
    rw [windowEnd, hlast]
    rfl

/-- **An excerpt ends with the end of the last error line** unless a late URL stands in its way. -/
theorem excerpt_of_error {e : Line} {n : Nat} (hne : sec ≠ []) (h : lastErrorLine sec = some e)
    (hroom : (headerLine sec).length + 7 ≤ n) :
    endOf (n - 7 - (headerLine sec).length) e <:+ cutPart (n - 2 : Nat) (errorExcerpt sec) ↔
      ∀ u ∈ lateUrl sec, endOf (n - 7 - (headerLine sec).length) e <:+ u := by
  obtain ⟨lines, hex, hlast⟩ := errorExcerpt_eq hne
  rw [lastKept_of_error h] at hlast
  have hbreak : '\n' ∉ endOf (n - 7 - (headerLine sec).length) e := by
    obtain ⟨last, -, rfl⟩ := Option.map_eq_some_iff.1 h
    intro hmem
    exact not_mem_lineAt (List.mem_of_mem_drop hmem)
  have hlen := length_endOf_le (n - 7 - (headerLine sec).length) e
  rw [hex, suffix_cutPart_iff not_mem_headerLine (by omega) hlast hbreak]
  cases lateUrl sec with
  | none => simp [endOf, List.drop_suffix]
  | some u => simp

theorem excerpt_header {n : Nat} (hne : sec ≠ []) (hroom : (headerLine sec).length + 7 ≤ n) :
    headerLine sec <+: cutPart (n - 2 : Nat) (errorExcerpt sec) ∧
    (cutPart (n - 2 : Nat) (errorExcerpt sec)).length ≤ n - 2 := by
  obtain ⟨lines, hex, -⟩ := errorExcerpt_eq hne
  rw [hex]
  exact ⟨prefix_cutPart not_mem_headerLine (by omega), length_cutPart_le not_mem_headerLine (by omega)⟩

end Lines

/-! ## The sections of a log -/

theorem start_of_jobSectionHeadersGo {pos skip : Nat} {lineStart : Bool} {cs : List Char} {h : JobHeader}
    (hmem : h ∈ jobSectionHeadersGo pos skip lineStart cs) : pos ≤ h.start ∧ h.start < pos + cs.length := by
  induction cs generalizing pos skip lineStart with
  | nil => exact absurd hmem List.not_mem_nil
  | cons c cs ih =>
    rw [List.length_cons]
    unfold jobSectionHeadersGo at hmem
    split at hmem
    · obtain rfl | hmem := List.mem_cons.1 hmem
      · exact ⟨Nat.le_refl _, by dsimp only; omega⟩
      · have := ih hmem
        omega
    · have := ih hmem
      omega

theorem pairwise_jobSectionHeadersGo (pos skip : Nat) (lineStart : Bool) (cs : List Char) :
    ((jobSectionHeadersGo pos skip lineStart cs).map JobHeader.start).Pairwise (· < ·) := by
  induction cs generalizing pos skip lineStart with
  | nil => exact .nil
  | cons c cs ih =>
    unfold jobSectionHeadersGo
    split
    · rw [List.map_cons, List.pairwise_cons]
      refine ⟨?_, ih ..⟩
      intro start hstart
      obtain ⟨h, hmem, rfl⟩ := List.mem_map.1 hstart
      have := start_of_jobSectionHeadersGo hmem
      dsimp only
      omega
    · exact ih ..

/-- Every section has text: it starts with its header, ahead of the next one. -/
theorem ne_nil_of_mem_sectionsOf {log : List Char} {starts : List Nat} (hpair : starts.Pairwise (· < ·))
    (hlt : ∀ start ∈ starts, start < log.length) {sec : List Char} (hmem : sec ∈ sectionsOf log starts) :
    sec ≠ [] := by
  unfold sectionsOf at hmem
  induction starts with
  | nil => exact absurd hmem List.not_mem_nil
  | cons start starts ih =>
    obtain ⟨hhead, htail⟩ := List.pairwise_cons.1 hpair
    have hstart := hlt start List.mem_cons_self
    cases starts with
    | nil =>
      obtain rfl := List.mem_singleton.1 hmem
      rw [← List.length_pos_iff, List.length_drop, List.length_take]
      omega
    | cons next starts =>
      have hnext := hhead next List.mem_cons_self
      have hnlt := hlt next (List.mem_cons_of_mem _ List.mem_cons_self)
      obtain rfl | hmem := List.mem_cons.1 hmem
      · rw [← List.length_pos_iff, List.length_drop, List.length_take]
        omega
      · exact ih htail (fun s hs => hlt s (List.mem_cons_of_mem _ hs)) hmem

theorem length_sectionsOf (log : List Char) (starts : List Nat) : (sectionsOf log starts).length = starts.length := by
  unfold sectionsOf
  cases starts <;> simp

/-! ## The excerpt as a whole -/

/-- What `_failed_step_logs` makes of a section. -/
def sectionPart (log : List Char) (starts : List Nat) (sec : List Char) : List Char :=
  if overCap log starts then cutPart (share (sectionsOf log starts).length) (errorExcerpt sec)
  else dropAfterLastError sec

/-- How much of the last error line the part of a section has to show: all of it, or in an excerpt what fits behind
    the header in the share of the section. -/
def shownError (log : List Char) (starts : List Nat) (sec : List Char) (e : Line) : Line :=
  if overCap log starts then
    endOf (CI_LOG_EMBED_MAX_CHARS / (sectionsOf log starts).length - 7 - (headerLine sec).length) e
  else e

/-- The text is the parts of the sections in order; it is within the cap if it is excerpted; every part starts with
    the header line, and ends with the end of the last error line. -/
structure Right (log : List Char) (starts : List Nat) : Prop where
  text : ∃ before, (failedStepLogs log starts).1 =
    before ++ ['\n', '\n'].intercalate ((sectionsOf log starts).map (sectionPart log starts))
  length : (failedStepLogs log starts).2 = true → (failedStepLogs log starts).1.length ≤ CI_LOG_EMBED_MAX_CHARS
  header : ∀ sec ∈ sectionsOf log starts, headerLine sec <+: sectionPart log starts sec
  error : ∀ sec ∈ sectionsOf log starts, ∀ e ∈ lastErrorLine sec,
    shownError log starts sec e <:+ sectionPart log starts sec

/-- When the trimmed sections fit: a section without errors has text behind its header, or a header that does not
    end in whitespace. When they do not: no job URL stands on the second or third line behind the last error, or
    it ends as that does. -/
def Fits (log : List Char) (starts : List Nat) : Prop :=
  ∀ sec ∈ sectionsOf log starts,
    if overCap log starts then
      ∀ e ∈ lastErrorLine sec, ∀ u ∈ lateUrl sec, shownError log starts sec e <:+ u
    else
      lastErrorLine sec = none → (∃ c ∈ sec.drop (headerLine sec).length, isPySpace c = false) ∨
        rstripChars (headerLine sec) = headerLine sec

/-- The header lines leave room for a mark in the shares. -/
def ShortHeaders (log : List Char) (starts : List Nat) : Prop :=
  ∀ sec ∈ sectionsOf log starts,
    (headerLine sec).length + 7 ≤ CI_LOG_EMBED_MAX_CHARS / (sectionsOf log starts).length

section Whole

variable {log : List Char} {starts : List Nat}

theorem failedStepLogs_text : ∃ before, (failedStepLogs log starts).1 =
    before ++ ['\n', '\n'].intercalate ((sectionsOf log starts).map (sectionPart log starts)) := by
  unfold failedStepLogs
  cases hover : overCap log starts with
  | true =>
    have hpart : sectionPart log starts =
        fun s => cutPart (share (sectionsOf log starts).length) (errorExcerpt s) := by
      funext sec
      rw [sectionPart, if_pos hover]
    exact ⟨[], by rw [hpart]; rfl⟩
  | false =>
    have hpart : sectionPart log starts = dropAfterLastError := by
      funext sec
      rw [sectionPart, hover]
      rfl
    exact ⟨preambleOf log starts, by rw [hpart]; rfl⟩

theorem share_eq {sec : List Char} (hshort : ShortHeaders log starts) (hmem : sec ∈ sectionsOf log starts) :
    share (sectionsOf log starts).length =
      (CI_LOG_EMBED_MAX_CHARS / (sectionsOf log starts).length - 2 : Nat) := by
  have := hshort sec hmem
  unfold share
  omega

/-- **The excerpt is within the cap.** -/
theorem length_failedStepLogs (hsecs : ∀ sec ∈ sectionsOf log starts, sec ≠ []) (hshort : ShortHeaders log starts)
    (hstarts : starts ≠ []) : (failedStepLogs log starts).1.length ≤ CI_LOG_EMBED_MAX_CHARS := by
  unfold failedStepLogs
  cases hover : overCap log starts with
  | false =>
    rw [overCap, decide_eq_false_iff_not, not_lt] at hover
    exact hover
  | true =>
    rw [if_pos rfl]
    dsimp only
    have hne : sectionsOf log starts ≠ [] := by
      rw [← List.length_pos_iff, length_sectionsOf]
      exact List.length_pos_iff.2 hstarts
    have hparts : ∀ part ∈ (sectionsOf log starts).map fun s =>
        cutPart (share (sectionsOf log starts).length) (errorExcerpt s),
        part.length ≤ CI_LOG_EMBED_MAX_CHARS / (sectionsOf log starts).length - 2 := by
      intro part hpart
      obtain ⟨sec, hsec, rfl⟩ := List.mem_map.1 hpart
      rw [share_eq hshort hsec]
      exact (excerpt_header (hsecs sec hsec) (hshort sec hsec)).2
    obtain ⟨sec, hsec⟩ := List.exists_mem_of_ne_nil _ hne
    have hroom := hshort sec hsec
    have hjoin := @length_intercalate_le ['\n', '\n'] _ _ hparts (by simpa using hne)
    rw [List.length_map] at hjoin
    have hshare : CI_LOG_EMBED_MAX_CHARS / (sectionsOf log starts).length - 2 + ['\n', '\n'].length =
        CI_LOG_EMBED_MAX_CHARS / (sectionsOf log starts).length := by
      rw [List.length_cons, List.length_singleton]
      omega
    rw [hshare] at hjoin
    have hcap := Nat.mul_div_le CI_LOG_EMBED_MAX_CHARS (sectionsOf log starts).length
    omega

/-- One section, whichever way it is cut. -/
theorem part_right_iff {sec : List Char} (hsec : sec ≠ []) (hmem : sec ∈ sectionsOf log starts)
    (hshort : ShortHeaders log starts) :
    (headerLine sec <+: sectionPart log starts sec ∧
      ∀ e ∈ lastErrorLine sec, shownError log starts sec e <:+ sectionPart log starts sec) ↔
    if overCap log starts then
      ∀ e ∈ lastErrorLine sec, ∀ u ∈ lateUrl sec, shownError log starts sec e <:+ u
    else
      lastErrorLine sec = none → (∃ c ∈ sec.drop (headerLine sec).length, isPySpace c = false) ∨
        rstripChars (headerLine sec) = headerLine sec := by
  unfold sectionPart shownError
  cases hover : overCap log starts with
  | true =>
    simp only [if_true]
    rw [share_eq hshort hmem, and_iff_right (excerpt_header hsec (hshort sec hmem)).1]
    refine forall_congr' fun e => forall_congr' fun he => ?_
    exact excerpt_of_error hsec he (hshort sec hmem)
  | false =>
    simp only [Bool.false_eq_true, if_false]
    cases herr : lastErrorLine sec with
    | none =>
      rw [header_of_none herr]
      simp
    | some e =>
      have hright := dropAfterLastError_of_error herr
      simp [hright.1, hright.2]

end Whole

theorem ne_nil_of_headers {log sec : List Char}
    (hsec : sec ∈ sectionsOf log ((jobSectionHeaders log).map JobHeader.start)) : sec ≠ [] := by
  refine ne_nil_of_mem_sectionsOf (pairwise_jobSectionHeadersGo ..) ?_ hsec
  intro start hstart
  obtain ⟨h, hmem, rfl⟩ := List.mem_map.1 hstart
  simpa using (start_of_jobSectionHeadersGo hmem).2

/-- No header starts in a line without a hash sign. -/
theorem jobSectionHeadersGo_append {cs : List Char} (h : '#' ∉ cs) (pos : Nat) (lineStart : Bool) (rest : List Char) :
    jobSectionHeadersGo pos 0 lineStart (cs ++ '\n' :: rest) =
      jobSectionHeadersGo (pos + cs.length + 1) 0 true rest := by
  have hstep : ∀ (c : Char) (ds : List Char) (pos : Nat) (lineStart : Bool), c ≠ '#' →
      jobSectionHeadersGo pos 0 lineStart (c :: ds) = jobSectionHeadersGo (pos + 1) 0 (c == '\n') ds := by
    intro c ds pos lineStart hc
    have hno : matchHeader (c :: ds) = none := by
      unfold matchHeader
      rw [if_neg]
      intro hpre
      exact hc (List.cons_prefix_cons.1 (List.isPrefixOf_iff_prefix.1 hpre)).1.symm
    rw [jobSectionHeadersGo, hno, ite_self]
  induction cs generalizing pos lineStart with
  | nil => exact hstep '\n' rest pos lineStart (by decide)
  | cons c cs ih =>
    obtain ⟨hc, hcs⟩ := not_or.1 (mt List.mem_cons.2 h)
    rw [List.cons_append, hstep c _ pos lineStart (Ne.symm hc), ih hcs, List.length_cons]
    congr 1
    omega

/-- A job that failed at once, and what the forge wrote behind its error. -/
def urlBehindError : List Char := "### Job: a (id=1)\n##[error]boom\nJob URL: https://ci/1\n".toList

/-- A log that does not fit. -/
def longLog : List Char := List.replicate 20000 'x' ++ '\n' :: urlBehindError

/-- A failing step whose name ends in a space, with an empty log. -/
def emptyLog : List Char := "### Job: a (id=1) — failing step: test \n".toList

theorem longLog_headers : jobSectionHeaders longLog = [⟨20001, ['a'], none⟩] := by
  unfold jobSectionHeaders longLog
  rw [jobSectionHeadersGo_append, List.length_replicate]
  · decide +kernel
  · intro h
    exact absurd (List.eq_of_mem_replicate h) (by decide)

theorem longLog_sections : sectionsOf longLog [20001] = [urlBehindError] := by
  have hsec : (longLog.take longLog.length).drop 20001 = urlBehindError := by
    rw [List.take_length, longLog, List.drop_append, List.length_replicate, List.drop_of_length_le]
    · rfl
    · rw [List.length_replicate]
      exact Nat.le_succ _
  show [(longLog.take longLog.length).drop 20001] = [urlBehindError]
  rw [hsec]

theorem longLog_overCap : overCap longLog [20001] = true := by
  have hkept : List.replicate 20000 'x' <+: stripChars (longLog.take 20001) := by
    refine isPrefix_stripChars ?_ ?_ ?_
    · rw [List.dropWhile_replicate, if_neg (by decide)]
    · rw [List.reverse_replicate, List.dropWhile_replicate, if_neg (by decide)]
    · rw [longLog, List.take_append, List.take_of_length_le]
      · exact List.prefix_append ..
      · rw [List.length_replicate]
        exact Nat.le_succ _
  have hlen := hkept.length_le
  rw [List.length_replicate] at hlen
  have hne : stripChars (longLog.take 20001) ≠ [] := by
    intro h
    rw [h] at hlen
    exact absurd hlen (by decide)
  have hpreamble : preambleOf longLog [20001] = stripChars (longLog.take 20001) ++ ['\n', '\n'] := by
    rw [preambleOf, List.headD_cons]
    exact if_neg hne
  rw [overCap, decide_eq_true_eq, trimmedLogs, hpreamble, List.length_append, List.length_append, List.length_cons,
    List.length_singleton, CI_LOG_EMBED_MAX_CHARS]
  omega

end CiLog
end Runtime
end RobotsixMill
