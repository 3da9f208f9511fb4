import RobotsixMill.Lib.Regex
import RobotsixMill.Lib.TextLines

/-!
# `Forge.LogUtils` — what is left of a job log

The log of a failed job is cut down twice. First the runner's preamble is taken out by patterns, one after the other;
then a part of it is kept that does not grow with the log.

- `RUNNER_PREAMBLE_RES`, `stripRunnerNoise` — the preamble patterns, and the log without their matches;
- `captureFailureWindow` — the part around the first failure marker;
- `Keeps` — the lines of a set are lines of another text;
- `captureFailureWindow_shows` — where the window begins with the line that announces it, the marker is in what follows.
-/

namespace RobotsixMill
namespace Forge
namespace LogUtils
open Lib
open scoped List

abbrev Line := List Char

def lines (text : List Char) : List Line := splitChar '\n' text

/-! ## Preamble patterns -/

/-- A pattern, with `^` in front or without. -/
structure Pattern where
  lineStart : Bool
  body : Matcher Char

/-- Where a match can begin, by the character before it (`re.MULTILINE`). -/
def Pattern.starts (p : Pattern) (last : Option Char) : Bool := !p.lineStart || last == none || last == some '\n'

/-- `p.sub(new, text)`. -/
def Pattern.sub (p : Pattern) (new text : List Char) : List Char := Matcher.replaceAll p.starts p.body new text

namespace Pattern
open Matcher

/-- `$` in a `re.MULTILINE` pattern. -/
def lineEnd : Matcher Char := test fun behind => behind.isEmpty || behind.head? == some '\n'

/-- `^word.*$`. -/
def wholeLine (word : String) : Pattern := ⟨true, seq (lit word.toList) <| seq (many fun c => c ≠ '\n') lineEnd⟩

/-- `^word\n?`. -/
def heading (word : String) : Pattern := ⟨true, seq (lit word.toList) (upTo (· == '\n') 1)⟩

/-- `^##\[group\]title\n.*?\n##\[endgroup\]`. -/
def group (title : String) : Pattern :=
  ⟨true, seq (lit ("##[group]" ++ title ++ "\n").toList) <| seq (manyLazy fun _ => true) (lit "\n##[endgroup]".toList)⟩

/-- `^word\n.*?(?=\n##\[group\])`. -/
def untilGroup (word : String) : Pattern :=
  ⟨true, seq (lit (word ++ "\n").toList) <| seq (manyLazy fun _ => true) (test ("\n##[group]".toList.isPrefixOf ·))⟩

/-- `^Secret source:.*$\n?`. -/
def secretSource : Pattern :=
  ⟨true, seq (lit "Secret source:".toList) <| seq (many fun c => c ≠ '\n') <| seq lineEnd (upTo (· == '\n') 1)⟩

/-- `\n{3,}`. -/
def blankRun : Pattern := ⟨false, seq (lit "\n\n\n".toList) (many (· == '\n'))⟩

end Pattern

def RUNNER_PREAMBLE_RES : List Pattern :=
  [.wholeLine "Current runner version:",
    .group "Operating System",
    .group "Runner Image",
    .group "Runner Image Provisioner",
    .group "GITHUB_TOKEN Permissions",
    .secretSource,
    .heading "Prepare workflow directory",
    .untilGroup "Prepare all required actions",
    .untilGroup "Getting action download info",
    .wholeLine "Download action repository '",
    .heading "Post job cleanup.",
    .blankRun]

/-- `_strip_runner_noise`. -/
def stripRunnerNoise (clean_log : List Char) : List Char :=
  -- each pattern sees what the ones before it have left
  let clean_log := RUNNER_PREAMBLE_RES.foldl (fun text pat => pat.sub [] text) clean_log
  stripChars (Pattern.blankRun.sub ['\n', '\n'] clean_log)

/-! ## The window -/

/-- `failure_re.search`: where the first match starts. -/
abbrev FailureRe := (text : List Char) → Option (Fin (text.length + 1))

/-- `text[-n:]`. -/
def lastPart (n : Nat) (text : List Char) : List Char := if n = 0 then text else text.drop (text.length - n)

/-- The pattern that is this text. -/
def FailureRe.literal (word : List Char) : FailureRe :=
  fun text => (List.finRange (text.length + 1)).find? fun i => word.isPrefixOf (text.drop i)

def anchorPrefix : List Char := "[log truncated — window anchored on first failure marker]\n".toList

/-- `_capture_failure_window`. -/
def captureFailureWindow (clean_log : List Char) (max_bytes : Nat) (failure_re : FailureRe) (tail_context : Nat) :
    List Char :=
  if clean_log.length ≤ max_bytes then clean_log
  else
    match failure_re clean_log with
    | none => lastPart max_bytes clean_log
    | some m =>
      -- the end of the log has the marker in it
      if m.val ≥ clean_log.length - max_bytes then lastPart max_bytes clean_log
      else
        let tail_after := min tail_context (max_bytes / 2)
        -- most of the budget is for what leads up to the marker
        let start := m.val - (max_bytes - tail_after)
        let stop := min clean_log.length (start + max_bytes)
        anchorPrefix ++ (clean_log.take stop).drop start

/-! ## Lines that stay -/

def hasError (line : Line) : Bool := containsChars "##[error]".toList line

/-- The lines of the set are lines of the other text, in the same order. -/
def Keeps (kept : Line → Bool) (text text' : List Char) : Prop := (lines text).filter kept <+ lines text'

instance (kept : Line → Bool) (text text' : List Char) : Decidable (Keeps kept text text') :=
  inferInstanceAs (Decidable (_ <+ _))

variable {kept : Line → Bool}

theorem Keeps.refl (text : List Char) : Keeps kept text text := List.filter_sublist

theorem Keeps.trans {text text' text'' : List Char} (h : Keeps kept text text') (h' : Keeps kept text' text'') :
    Keeps kept text text'' := by
  have hfilter := h.filter kept
  simp only [List.filter_filter, Bool.and_self] at hfilter
  exact hfilter.trans h'

/-! ## What the window shows -/

/-- A part of a log, and what stands around it. -/
structure LogPart (log : List Char) where
  before : List Char
  shown : List Char
  behind : List Char
  eq : log = before ++ shown ++ behind

/-- The part has this place of the log in it. -/
def LogPart.Has {log : List Char} (part : LogPart log) (start : Nat) : Prop :=
  part.before.length ≤ start ∧ (start < log.length → start < part.before.length + part.shown.length)

def LogPart.whole (log : List Char) : LogPart log := ⟨[], log, [], by rw [List.nil_append, List.append_nil]⟩

/-- `log[start:stop]`. -/
def LogPart.slice (log : List Char) {start stop : Nat} (h : start ≤ stop) : LogPart log where
  before := log.take start
  shown := (log.take stop).drop start
  behind := log.drop stop
  eq := by
    have hfront : log.take start = (log.take stop).take start := by rw [List.take_take, Nat.min_eq_left h]
    rw [hfront, List.take_append_drop, List.take_append_drop]

variable {log : List Char} {max_bytes tail_context : Nat} {failure_re : FailureRe}

theorem LogPart.slice_shown {start stop : Nat} (h : start ≤ stop) :
    (LogPart.slice log h).shown = (log.take stop).drop start := rfl

theorem LogPart.length_slice {start stop : Nat} (h : start ≤ stop) (hstop : stop ≤ log.length) :
    (LogPart.slice log h).shown.length = stop - start := by
  rw [slice_shown, List.length_drop, List.length_take_of_le hstop]

theorem LogPart.slice_has {start stop m : Nat} (h : start ≤ stop) (hstop : stop ≤ log.length) (hfirst : start ≤ m)
    (hlast : m < log.length → m < stop) : (LogPart.slice log h).Has m := by
  have hbefore : (LogPart.slice log h).before.length = start := List.length_take_of_le (Nat.le_trans h hstop)
  refine ⟨?_, fun hm => ?_⟩
  · rw [hbefore]
    exact hfirst
  · rw [hbefore, length_slice h hstop, Nat.add_sub_cancel' h]
    exact hlast hm

theorem lastPart_eq_slice (h : 0 < max_bytes) :
    lastPart max_bytes log = (LogPart.slice log (Nat.sub_le log.length max_bytes)).shown := by
  rw [lastPart, if_neg (Nat.ne_of_gt h), LogPart.slice_shown, List.take_length]

/-- Where the window is anchored on a marker, it is a slice as long as allowed. -/
theorem captureFailureWindow_anchored (tail_context : Nat) {m : Fin (log.length + 1)} (hm : failure_re log = some m)
    (hearly : m.val < log.length - max_bytes) :
    ∃ start, ∃ h : start ≤ start + max_bytes, start + max_bytes ≤ log.length ∧
      start ≤ m.val ∧ (2 ≤ max_bytes → 0 < tail_context → m.val < start + max_bytes) ∧
      captureFailureWindow log max_bytes failure_re tail_context = anchorPrefix ++ (LogPart.slice log h).shown := by
  have hlong : ¬ log.length ≤ max_bytes := by omega
  have hstop : m.val - (max_bytes - min tail_context (max_bytes / 2)) + max_bytes ≤ log.length := by omega
  refine ⟨_, Nat.le_add_right _ _, hstop, Nat.sub_le _ _, fun _ _ => by omega, ?_⟩
  rw [captureFailureWindow, if_neg hlong, hm]
  dsimp only
  rw [if_neg (Nat.not_le.2 hearly), Nat.min_eq_right hstop, LogPart.slice_shown]

/-- The window is a part of the log with the start of the first marker in it. -/
def ShowsMarker (log : List Char) (max_bytes : Nat) (failure_re : FailureRe) (window : List Char) : Prop :=
  window.length ≤ max_bytes ∧
    ∃ part : LogPart log, part.shown = window ∧ ∀ start, failure_re log = some start → part.Has start

/-- A log that fits is shown whole. -/
theorem showsMarker_whole (h : log.length ≤ max_bytes) :
    ShowsMarker log max_bytes failure_re (captureFailureWindow log max_bytes failure_re tail_context) := by
  rw [captureFailureWindow, if_pos h]
  refine ⟨h, LogPart.whole log, rfl, fun start _ => ⟨Nat.zero_le _, fun hlt => ?_⟩⟩
  rwa [LogPart.whole, List.length_nil, Nat.zero_add]

/-- The end of the log is enough for a marker near it. -/
theorem showsMarker_late (hmax : 0 < max_bytes) (hlong : ¬ log.length ≤ max_bytes)
    (hlate : ∀ m, failure_re log = some m → log.length - max_bytes ≤ m.val) :
    ShowsMarker log max_bytes failure_re (captureFailureWindow log max_bytes failure_re tail_context) := by
  have hwindow : captureFailureWindow log max_bytes failure_re tail_context = lastPart max_bytes log := by
    rw [captureFailureWindow, if_neg hlong]
    cases hm : failure_re log with
    | none => rfl
    | some m => exact if_pos (hlate m hm)
  have hlength := LogPart.length_slice (Nat.sub_le log.length max_bytes) (Nat.le_refl _)
  rw [hwindow, lastPart_eq_slice hmax]
  exact ⟨by omega, _, rfl, fun start hstart => LogPart.slice_has _ (Nat.le_refl _) (hlate start hstart) id⟩

/-- **An anchored window** shows the marker behind the line that announces it. -/
theorem captureFailureWindow_shows (hmax : 2 ≤ max_bytes) (hcontext : 0 < tail_context) {m : Fin (log.length + 1)}
    (hm : failure_re log = some m) (hearly : m.val < log.length - max_bytes) :
    ∃ window, captureFailureWindow log max_bytes failure_re tail_context = anchorPrefix ++ window ∧
      ShowsMarker log max_bytes failure_re window := by
  obtain ⟨start, hle, hstop, hfirst, hlast, hwindow⟩ := captureFailureWindow_anchored tail_context hm hearly
  have hlength : (LogPart.slice log hle).shown.length = max_bytes := by
    rw [LogPart.length_slice hle hstop, Nat.add_sub_cancel_left]
  refine ⟨_, hwindow, Nat.le_of_eq hlength, LogPart.slice log hle, rfl, fun start' hstart' => ?_⟩
  rw [hm] at hstart'
  obtain rfl := Option.some.inj hstart'
  exact LogPart.slice_has hle hstop hfirst fun _ => hlast hmax hcontext

/-- **The window**, without the line that announces it, is all there is where the marker is near the end. -/
theorem showsMarker_iff (hmax : 0 < max_bytes) :
    ShowsMarker log max_bytes failure_re (captureFailureWindow log max_bytes failure_re tail_context) ↔
      log.length ≤ max_bytes ∨ ∀ m, failure_re log = some m → log.length - max_bytes ≤ m.val := by
  constructor
  · intro h
    by_contra hnot
    push Not at hnot
    obtain ⟨-, m, hm, hearly⟩ := hnot
    -- the announcement is on top of what is allowed
    obtain ⟨start, hle, hstop, -, -, hwindow⟩ := captureFailureWindow_anchored tail_context hm hearly
    have hlength := h.1
    rw [hwindow, List.length_append, LogPart.length_slice hle hstop, Nat.add_sub_cancel_left] at hlength
    have hannounced : 0 < anchorPrefix.length := by decide
    omega
  · rintro (hfits | hlate)
    · exact showsMarker_whole hfits
    · by_cases hfits : log.length ≤ max_bytes
      · exact showsMarker_whole hfits
      · exact showsMarker_late hmax hfits hlate

end LogUtils
end Forge
end RobotsixMill
