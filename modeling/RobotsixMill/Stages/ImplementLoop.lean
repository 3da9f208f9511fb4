import Mathlib
import RobotsixMill.Lib.PyText
import RobotsixMill.Lib.SharedCell
import RobotsixMill.Lib.Streak
import RobotsixMill.Stages.Base

/-!
# `Stages.ImplementLoop` — the fix loop of the implement stage

`_implement_loop` runs passes of the agent until one of them passes, pauses or escalates. A pass that is to be
retried goes through the stuck detection: three passes in a row without a diff, or fifty tool calls without one,
block the ticket. The two counters are attributes of the class; each loop clears them when it starts, "for this
ticket's loop", and every loop of the process counts in them.

- `endOfPass` — the bookkeeping at the end of a pass;
- `loopStep` — the loop as it finds the counters: reset, pass, bookkeeping;
- `Earned` — what the counters of a loop that is alone say of its own passes;
- `loops_do_not_leak` — when every loop finds the counters it has left, all end as they would alone.
-/

namespace RobotsixMill
namespace Stages
open RobotsixMill.Core Lib

def STUCK_NO_DIFF_PASSES : Nat := 3
def STUCK_MAX_TOOL_CALLS_NO_DIFF : Nat := 50
def STUCK_SAME_TOOL_WINDOW : Nat := 5
def ENV_ERROR_PREFIX : String := "ENV-ERROR:"

/-! ## What a pass did -/

def EDIT_TOOL_NAMES : List String :=
  ["write_file", "edit_file", "delete_file", "Write", "Edit", "MultiEdit", "NotebookEdit"]

def NON_PROGRESS_TOOLS : List String :=
  ["read_ticket", "list_epic_children", "list_threads", "read_file", "list_dir", "explore", "parallel_explore",
    "consult_expert", "ask_web_knowledge"]

/-- What the stuck detection reads of `analyze_pass_progress`. -/
structure PassProgress where
  total : Nat
  editCalls : Nat
  stuckSameTool : Option String
  lastNonProgressRun : Nat

/-- `run_invoked_edit_tools`. -/
def runInvokedEditTools (toolNames : List String) : List String := toolNames.filter EDIT_TOOL_NAMES.contains

/-- `_detect_stuck_same_tool`. -/
def detectStuckSameTool (toolNames : List String) (sameToolWindow : Nat) : Option String :=
  if toolNames.length < sameToolWindow then none
  else
    match toolNames.getLast? with
    | none => none
    | some tail =>
      if !NON_PROGRESS_TOOLS.contains tail then none
      else if sameToolWindow ≤ (toolNames.reverse.takeWhile fun name => name == tail).length then some tail else none

/-- `analyze_pass_progress` of the tool names in the messages. -/
def analyzePassProgress (toolNames : List String) : PassProgress where
  total := toolNames.length
  editCalls := (runInvokedEditTools toolNames).length
  stuckSameTool := detectStuckSameTool toolNames STUCK_SAME_TOOL_WINDOW
  lastNonProgressRun := (toolNames.reverse.takeWhile NON_PROGRESS_TOOLS.contains).length

/-- `next_action`. -/
inductive NextAction
  | proceed | retry | escalate | returns | pause | skip
deriving DecidableEq, Repr

/-- One pass: its `_SinglePassResult`, and what git says after it. -/
structure PassResult where
  nextAction : NextAction := .retry
  /-- What a pass that ends the loop returns. -/
  outcome : StageOutcome := { nextState := .deliverable }
  feedback : Option String := none
  /-- `ic.feedback`, when the pass returns a context. -/
  icFeedback : Option (Option String) := none
  /-- The tool names in `new_msgs`, when there are messages. -/
  newMsgs : Option (List String) := none
  /-- `has_changes` and `branch_is_ahead_of_main`, unless one of them raises. -/
  repo : Option (Bool × Bool) := some (false, false)
  /-- Of every other workspace repository: has it a diff, unless asking raises. -/
  extraRoots : List (Option Bool) := []
  /-- `_edits_formatter_reverted`. -/
  formatterReverted : Option Bool := none

namespace PassResult

variable (r : PassResult)

def hasChanges : Bool := (r.repo.map Prod.fst).getD true

def branchAhead : Bool := (r.repo.map Prod.snd).getD true

/-- `has_diff`: what raises counts as a diff. -/
def hasDiff : Bool := r.hasChanges || r.branchAhead || r.extraRoots.any fun root => root.getD true

def progress : PassProgress := analyzePassProgress (r.newMsgs.getD [])

/-- The pass does not end the loop by itself. -/
def retries : Bool := r.nextAction == .retry || r.nextAction == .skip

/-- A pass to be retried that changed nothing. -/
def NoDiff : Prop := r.retries = true ∧ r.hasDiff = false

/-- The diagnosis for the circuit breaker: `a or b or ""`. -/
def diag : String :=
  let feedback := r.feedback.getD ""
  if feedback = "" then (r.icFeedback.getD none).getD "" else feedback

end PassResult

/-! ## The bookkeeping -/

/-- `_stuck_no_diff_passes` and `_stuck_total_tool_calls_no_diff`. -/
structure StuckCounters where
  noDiffPasses : Nat := 0
  totalToolCallsNoDiff : Nat := 0
deriving DecidableEq, Repr

/-- How the loop ends. -/
inductive LoopExit
  | returned (outcome : StageOutcome)
  | advanced (note : String)
  | zeroToolCalls (attempt : Nat) (hasDiff : Bool)
  | editClaimContradiction (attempt : Nat) (tools : List String)
  | stuckNoDiffPasses (passes attempt : Nat) (progress : PassProgress)
  | stuckToolCalls (calls passes attempt : Nat)
  | envRepeat (diag : String) (attempt : Nat)
  | tripleRepeat (times : Nat) (diag : String) (attempt : Nat)
  | exhausted

/-- `diag[:200]`. -/
def shownDiag (diag : String) : String := .ofList (diag.toList.take 200)

/-- What it returns. -/
def LoopExit.outcome : LoopExit → StageOutcome
  | .returned outcome => outcome
  | .advanced note => { nextState := .deliverable, note := some note }
  | .zeroToolCalls attempt hasDiff =>
    let detail := if !hasDiff then "and produced no file changes"
      else "but the working tree carries uncommitted changes (likely from a prior session)"
    .block (s!"zero tool calls — the implement agent completed pass {attempt} without issuing a single tool call " ++
      s!"{detail}.  This indicates a prompt/context assembly failure, workspace inaccessibility, or a spec the " ++
      "agent cannot act on.  Short-circuiting to BLOCKED.")
  | .editClaimContradiction attempt tools =>
    let toolDesc := if tools = [] then "edit" else ", ".intercalate tools
    .block (s!"edit-claim contradiction on pass {attempt}: the agent invoked {toolDesc} tool(s) ({tools.length} " ++
      "call(s)) but the working tree is unchanged.  Replaying the edits + running the formatter still produced a " ++
      "real change (or could not be verified), so the edits did NOT persist.  Short-circuiting to BLOCKED instead " ++
      "of exhausting the full retry budget.")
  | .stuckNoDiffPasses passes attempt progress =>
    let detail := match progress.stuckSameTool with
      | some tool => s!"same-tool loop ({pyRepr tool} × {progress.lastNonProgressRun} calls)"
      | none => s!"{progress.total} tool calls, {progress.editCalls} edit calls"
    .block (s!"stuck — {passes} consecutive passes with no file edits after {attempt} iteration(s). " ++
      s!"Last pass: {detail}. Short-circuiting to BLOCKED.")
  | .stuckToolCalls calls passes attempt =>
    .block (s!"stuck — {calls} cumulative tool calls across {passes} passes without a single file edit. " ++
      s!"Budget cap ({STUCK_MAX_TOOL_CALLS_NO_DIFF}) exhausted after {attempt} iteration(s). " ++
      "Short-circuiting to BLOCKED.")
  | .envRepeat diag attempt =>
    .block (s!"environment failure not fixable by code edits — {shownDiag diag} (short-circuited after {attempt} " ++
      "cycle(s) of identical diagnosis)")
  | .tripleRepeat times diag attempt =>
    .block (s!"identical diagnosis repeated {times} times — {shownDiag diag} (short-circuited after " ++
      s!"{attempt} cycle(s))")
  | .exhausted => .block "implement loop exhausted — resumable"

/-- A pass counts in the counters and is judged by them: it goes on past the checks that look at it alone. -/
def PassResult.counts (r : PassResult) : Bool :=
  r.retries && !r.hasDiff && !(r.progress.total == 0 && r.newMsgs.isSome) &&
    (r.progress.editCalls == 0 || r.formatterReverted == some true)

/-- The circuit breaker: the same diagnosis again. -/
def repeatedDiag (attempt : Nat) (history : List String) (diag : String) : Option LoopExit :=
  let last := history.getLast?
  let previous := history.dropLast.getLast?
  if startsWith diag ENV_ERROR_PREFIX ∧ last = some diag then some (.envRepeat diag attempt)
  else if diag ≠ "" ∧ last = some diag ∧ previous = some diag then
    some (.tripleRepeat (history.length + 1) diag attempt)
  else none

/-- The end of a pass that is to be retried, with the counters it finds and those it leaves. -/
def endOfPass (attempt : Nat) (history : List String) (found : StuckCounters) (r : PassResult) :
    StuckCounters × Option LoopExit :=
  let progress := r.progress
  let left : StuckCounters :=
    if !r.hasDiff then ⟨found.noDiffPasses + 1, found.totalToolCallsNoDiff + progress.total⟩ else ⟨0, 0⟩
  if progress.total = 0 ∧ r.newMsgs.isSome then
    if r.branchAhead then
      (left, some (.advanced ("branch has committed implementation work ahead of origin/main and the implement " ++
        "agent produced no further changes — advancing to DELIVERABLE for PR delivery")))
    else (left, some (.zeroToolCalls attempt r.hasDiff))
  else if r.branchAhead ∧ r.hasChanges = false ∧ progress.editCalls = 0 then
    (left, some (.advanced ("branch has committed implementation work ahead of origin/main and the implement " ++
      "agent produced no new file changes — advancing to DELIVERABLE for PR delivery")))
  else
    let claims := r.hasDiff = false ∧ 0 < progress.editCalls
    if claims ∧ r.formatterReverted ≠ some true then
      (left, some (.editClaimContradiction attempt (runInvokedEditTools (r.newMsgs.getD []))))
    else
      -- edits that the formatter reverted do not count as a stuck pass
      let left := if claims then { left with noDiffPasses := left.noDiffPasses - 1 } else left
      if STUCK_NO_DIFF_PASSES ≤ left.noDiffPasses then
        (left, some (.stuckNoDiffPasses left.noDiffPasses attempt progress))
      else if STUCK_MAX_TOOL_CALLS_NO_DIFF ≤ left.totalToolCallsNoDiff then
        (left, some (.stuckToolCalls left.totalToolCallsNoDiff left.noDiffPasses attempt))
      else (left, repeatedDiag attempt history r.diag)

/-! ## The loop -/

/-- Where a loop is. -/
inductive LoopPhase
  | starting
  | running
  | judging (r : PassResult)
  | ended (exit : LoopExit)

structure ImplementLoop where
  phase : LoopPhase := .starting
  /-- The pass it is at; none before the first. -/
  attempt : Nat := 0
  diagHistory : List String := []

/-- A ticket of the implement stage: the settings of its loop, and what its passes do. -/
structure LoopTicket where
  maxFixIterations : Nat := 8
  /-- The result of the pass with this number. -/
  passes : Nat → PassResult

section Loop

variable (t : LoopTicket)

/-- `_implement_loop`, one step at a time; the cell are the counters of the class. -/
def loopStep : CellStep ImplementLoop StuckCounters := fun l found =>
  match l.phase with
  | .starting => ({ l with phase := .running, attempt := 1 }, some {})
  | .running => ({ l with phase := .judging (t.passes l.attempt) }, none)
  | .judging r =>
    if r.retries then
      let (left, exit) := endOfPass l.attempt l.diagHistory found r
      match exit with
      | some exit => ({ l with phase := .ended exit }, some left)
      | none =>
        let diagHistory := l.diagHistory ++ [r.diag]
        if l.attempt < max 1 t.maxFixIterations then
          ({ phase := .running, attempt := l.attempt + 1, diagHistory := diagHistory }, some left)
        else ({ l with phase := .ended .exhausted, diagHistory := diagHistory }, some left)
    else ({ l with phase := .ended (.returned r.outcome) }, none)
  | .ended _ => (l, none)

def ImplementLoop.Ended (l : ImplementLoop) : Prop := ∃ exit, l.phase = .ended exit

/-- The loop is about to count a pass in the counters. -/
def ImplementLoop.counts (l : ImplementLoop) : Bool :=
  match l.phase with
  | .judging r => r.counts
  | _ => false

/-- The loop alone, after `n` steps. -/
def runAlone (n : Nat) : ImplementLoop × StuckCounters := (alone (loopStep t))^[n] ({}, {})

/-- The passes up to the one the loop is at. -/
def passesBy (l : ImplementLoop) : List PassResult := (List.range l.attempt).map fun k => t.passes (k + 1)

/-! ## What the counters of a loop that is alone say -/

/-- `n` of the last passes in a row changed nothing, and they made these tool calls. -/
def Earned (c : StuckCounters) (es : List PassResult) : Prop :=
  ∃ before last, es = before ++ last ∧ (∀ r ∈ last, r.NoDiff) ∧ c.noDiffPasses ≤ last.length ∧
    c.totalToolCallsNoDiff = (last.map fun r => r.progress.total).sum

/-- The loop is blocked as stuck on account of its own passes only. -/
def OwnStuck (exit : LoopExit) (es : List PassResult) : Prop :=
  match exit with
  | .stuckNoDiffPasses _ _ _ => LastMeet PassResult.NoDiff STUCK_NO_DIFF_PASSES es
  | .stuckToolCalls _ _ _ => ∃ before last, es = before ++ last ∧ (∀ r ∈ last, r.NoDiff) ∧
      STUCK_MAX_TOOL_CALLS_NO_DIFF ≤ (last.map fun r => r.progress.total).sum
  | _ => True

theorem Earned.cleared (es : List PassResult) : Earned {} es :=
  ⟨es, [], (List.append_nil es).symm, fun _ hr => absurd hr List.not_mem_nil, Nat.zero_le _, rfl⟩

theorem Earned.counted {c : StuckCounters} {es : List PassResult} {r : PassResult} (h : Earned c es) (hr : r.NoDiff) :
    Earned ⟨c.noDiffPasses + 1, c.totalToolCallsNoDiff + r.progress.total⟩ (es ++ [r]) := by
  obtain ⟨before, last, rfl, hall, hpasses, hcalls⟩ := h
  refine ⟨before, last ++ [r], List.append_assoc .., ?_, ?_, ?_⟩
  · intro r' hr'
    rcases List.mem_append.1 hr' with hlast | hnew
    · exact hall r' hlast
    · rwa [List.mem_singleton.1 hnew]
  · rw [List.length_append]
    exact Nat.succ_le_succ hpasses
  · simp [hcalls]

theorem Earned.lowered {c : StuckCounters} {es : List PassResult} (h : Earned c es) :
    Earned { c with noDiffPasses := c.noDiffPasses - 1 } es := by
  obtain ⟨before, last, rfl, hall, hpasses, hcalls⟩ := h
  exact ⟨before, last, rfl, hall, (Nat.sub_le _ _).trans hpasses, hcalls⟩

theorem Earned.stuckNoDiffPasses {c : StuckCounters} {es : List PassResult} (h : Earned c es)
    (hle : STUCK_NO_DIFF_PASSES ≤ c.noDiffPasses) : LastMeet PassResult.NoDiff STUCK_NO_DIFF_PASSES es := by
  obtain ⟨before, last, rfl, hall, hpasses, -⟩ := h
  have hlast : LastMeet PassResult.NoDiff last.length (before ++ last) := ⟨before, last, rfl, rfl, hall⟩
  exact hlast.of_le (hle.trans hpasses)

theorem Earned.stuckToolCalls {c : StuckCounters} {es : List PassResult} (h : Earned c es)
    (hle : STUCK_MAX_TOOL_CALLS_NO_DIFF ≤ c.totalToolCallsNoDiff) :
    ∃ before last, es = before ++ last ∧ (∀ r ∈ last, r.NoDiff) ∧
      STUCK_MAX_TOOL_CALLS_NO_DIFF ≤ (last.map fun r => r.progress.total).sum := by
  obtain ⟨before, last, rfl, hall, -, hcalls⟩ := h
  exact ⟨before, last, rfl, hall, hcalls ▸ hle⟩

/-- **The end of a pass**: the counters go on telling the truth, and so does a block. -/
theorem endOfPass_earned (attempt : Nat) (history : List String) {found : StuckCounters} {es : List PassResult}
    {r : PassResult} (h : Earned found es) (hr : r.retries = true) :
    Earned (endOfPass attempt history found r).1 (es ++ [r]) ∧
      ∀ exit, (endOfPass attempt history found r).2 = some exit → OwnStuck exit (es ++ [r]) := by
  have hleft : Earned (if !r.hasDiff then ⟨found.noDiffPasses + 1, found.totalToolCallsNoDiff + r.progress.total⟩
      else ⟨0, 0⟩) (es ++ [r]) := by
    cases hdiff : r.hasDiff with
    | false => exact h.counted ⟨hr, hdiff⟩
    | true => exact .cleared _
  unfold endOfPass
  dsimp only
  generalize (if !r.hasDiff then (⟨found.noDiffPasses + 1, found.totalToolCallsNoDiff + r.progress.total⟩ : StuckCounters)
      else ⟨0, 0⟩) = left at hleft
  split
  · split
    · exact ⟨hleft, fun exit heq => by cases heq; trivial⟩
    · exact ⟨hleft, fun exit heq => by cases heq; trivial⟩
  · split
    · exact ⟨hleft, fun exit heq => by cases heq; trivial⟩
    · split
      · exact ⟨hleft, fun exit heq => by cases heq; trivial⟩
      · -- the counters after the correction for edits the formatter reverted
        have hjudged : Earned (if r.hasDiff = false ∧ 0 < r.progress.editCalls then
            { left with noDiffPasses := left.noDiffPasses - 1 } else left) (es ++ [r]) := by
          split
          · exact hleft.lowered
          · exact hleft
        generalize (if r.hasDiff = false ∧ 0 < r.progress.editCalls then
            { left with noDiffPasses := left.noDiffPasses - 1 } else left) = judged at hjudged
        split
        · rename_i hpasses
          exact ⟨hjudged, fun exit heq => by cases heq; exact hjudged.stuckNoDiffPasses hpasses⟩
        · split
          · rename_i hcalls
            exact ⟨hjudged, fun exit heq => by cases heq; exact hjudged.stuckToolCalls hcalls⟩
          · refine ⟨hjudged, fun exit heq => ?_⟩
            unfold repeatedDiag at heq
            dsimp only at heq
            split at heq
            · cases heq
              trivial
            · split at heq
              · cases heq
                trivial
              · cases heq

/-- What holds of a loop that is alone, wherever it is. -/
def OwnCounters (p : ImplementLoop × StuckCounters) : Prop :=
  match p.1.phase with
  | .starting => True
  | .running => 0 < p.1.attempt ∧ Earned p.2 ((List.range (p.1.attempt - 1)).map fun k => t.passes (k + 1))
  | .judging r => 0 < p.1.attempt ∧ r = t.passes p.1.attempt ∧
      Earned p.2 ((List.range (p.1.attempt - 1)).map fun k => t.passes (k + 1))
  | .ended exit => OwnStuck exit (passesBy t p.1)

/-- The passes up to an attempt, and the pass itself. -/
theorem passes_snoc {n : Nat} (hn : 0 < n) : (List.range n).map (fun k => t.passes (k + 1)) =
    (List.range (n - 1)).map (fun k => t.passes (k + 1)) ++ [t.passes n] := by
  obtain ⟨m, rfl⟩ : ∃ m, n = m + 1 := ⟨n - 1, by omega⟩
  rw [List.range_succ, List.map_append]
  rfl

theorem ownCounters_step {p : ImplementLoop × StuckCounters} (h : OwnCounters t p) :
    OwnCounters t (alone (loopStep t) p) := by
  obtain ⟨⟨phase, attempt, history⟩, c⟩ := p
  cases phase with
  | starting => exact ⟨Nat.one_pos, .cleared _⟩
  | running => exact ⟨h.1, rfl, h.2⟩
  | ended exit => exact h
  | judging r =>
    obtain ⟨hpos, hr, hearned⟩ := h
    have hpos : 0 < attempt := hpos
    have hr : r = t.passes attempt := hr
    show OwnCounters t ((loopStep t ⟨.judging r, attempt, history⟩ c).1,
      (loopStep t ⟨.judging r, attempt, history⟩ c).2.getD c)
    unfold loopStep
    dsimp only
    by_cases hretry : r.retries = true
    · rw [if_pos hretry]
      obtain ⟨hleft, hexit⟩ := endOfPass_earned attempt history hearned hretry
      have hpasses : (List.range attempt).map (fun k => t.passes (k + 1)) =
          (List.range (attempt - 1)).map (fun k => t.passes (k + 1)) ++ [r] := by
        rw [passes_snoc t hpos, hr]
      generalize endOfPass attempt history c r = res at hleft hexit ⊢
      obtain ⟨left, exit⟩ := res
      cases exit with
      | some exit =>
        show OwnStuck exit ((List.range attempt).map fun k => t.passes (k + 1))
        rw [hpasses]
        exact hexit exit rfl
      | none =>
        dsimp only
        split
        · refine ⟨Nat.succ_pos _, ?_⟩
          show Earned left ((List.range attempt).map fun k => t.passes (k + 1))
          rw [hpasses]
          exact hleft
        · exact trivial
    · rw [if_neg hretry]
      exact trivial

theorem ownCounters_runAlone (n : Nat) : OwnCounters t (runAlone t n) := by
  induction n with
  | zero => exact trivial
  | succ n ih =>
    rw [runAlone, Function.iterate_succ_apply']
    exact ownCounters_step t ih

/-! ## Loops of several tickets -/

theorem loopStep_ended {l : ImplementLoop} (h : l.Ended) (c : StuckCounters) : loopStep t l c = (l, none) := by
  obtain ⟨exit, hphase⟩ := h
  unfold loopStep
  rw [hphase]

/-- A pass that does not count comes to the same whatever the counters are. -/
theorem endOfPass_congr (attempt : Nat) (history : List String) {r : PassResult} (hretry : r.retries = true)
    (h : r.counts = false) (found own : StuckCounters) :
    (endOfPass attempt history found r).2 = (endOfPass attempt history own r).2 ∧
      ((endOfPass attempt history found r).2.isSome ∨ endOfPass attempt history found r = endOfPass attempt history own r) := by
  cases hdiff : r.hasDiff with
  | true =>
    have heq : endOfPass attempt history found r = endOfPass attempt history own r := by
      unfold endOfPass
      rw [hdiff]
      rfl
    exact ⟨congrArg Prod.snd heq, .inr heq⟩
  | false =>
    -- the pass ends the loop by itself
    have hahead : r.branchAhead = false := by
      unfold PassResult.hasDiff at hdiff
      rw [Bool.or_eq_false_iff, Bool.or_eq_false_iff] at hdiff
      exact hdiff.1.2
    unfold PassResult.counts at h
    rw [hretry, hdiff] at h
    have hends : ∃ exit, ∀ c, (endOfPass attempt history c r).2 = some exit := by
      by_cases hzero : r.progress.total = 0 ∧ r.newMsgs.isSome = true
      · refine ⟨.zeroToolCalls attempt false, fun c => ?_⟩
        unfold endOfPass
        rw [hdiff, hahead]
        dsimp only
        rw [if_pos hzero]
        rfl
      · have hclaims : (false = false ∧ 0 < r.progress.editCalls) ∧ r.formatterReverted ≠ some true := by
          refine ⟨⟨rfl, Nat.pos_of_ne_zero fun h0 => ?_⟩, fun hrev => ?_⟩
          · rw [h0] at h
            simp at h
            exact hzero h
          · rw [hrev] at h
            simp at h
            exact hzero h
        refine ⟨.editClaimContradiction attempt (runInvokedEditTools (r.newMsgs.getD [])), fun c => ?_⟩
        unfold endOfPass
        rw [hdiff, hahead]
        dsimp only
        rw [if_neg hzero, if_neg (by simp), if_pos hclaims]
    obtain ⟨exit, hexit⟩ := hends
    rw [hexit found, hexit own]
    exact ⟨rfl, .inl rfl⟩

/-- A step that does not count, or finds what the loop has left, is unaffected by the other loops. -/
theorem unaffected_of_own {l : ImplementLoop} {found own : StuckCounters} (h : l.counts = true → found = own) :
    Unaffected (loopStep t) ImplementLoop.Ended l found own := by
  by_cases hcounts : l.counts = true
  · rw [h hcounts]
    exact ⟨rfl, .inr rfl⟩
  · obtain ⟨phase, attempt, history⟩ := l
    cases phase with
    | starting => exact ⟨rfl, .inr rfl⟩
    | running => exact ⟨rfl, .inr rfl⟩
    | ended exit => exact ⟨rfl, .inr rfl⟩
    | judging r =>
      unfold Unaffected loopStep
      dsimp only
      by_cases hretry : r.retries = true
      · simp only [hretry, if_true]
        have hcounts : r.counts = false := Bool.of_not_eq_true hcounts
        obtain ⟨hexit, hsame⟩ := endOfPass_congr attempt history hretry hcounts found own
        rcases hsame with hsome | heq
        · obtain ⟨exit, hsome⟩ := Option.isSome_iff_exists.1 hsome
          rw [← hexit, hsome]
          exact ⟨rfl, .inl ⟨exit, rfl⟩⟩
        · rw [heq]
          exact ⟨rfl, .inr rfl⟩
      · simp only [hretry]
        exact ⟨rfl, .inr rfl⟩

end Loop

section Tickets

variable {ι : Type*} [DecidableEq ι] (tickets : ι → LoopTicket)

/-- No loop has started. -/
def unstarted (ι : Type*) : Shared ι ImplementLoop StuckCounters := ⟨{}, fun _ => {}, fun _ => {}⟩

/-- Loop `i` counts a pass, and the class holds other counters than it has left. -/
def countsForeign (σ : Shared ι ImplementLoop StuckCounters) (i : ι) : Bool :=
  (σ.loops i).counts && decide (σ.cell ≠ σ.own i)

/-- **Stuck detection does not leak.** In an interleaving in which every loop that counts a pass finds the counters
    it has left, each loop is after its steps where it would be alone, and is blocked as stuck on account of its
    own passes only. -/
theorem loops_do_not_leak {σ : Shared ι ImplementLoop StuckCounters} {schedule : List ι}
    (h : Run (Guarded (fun σ i => countsForeign σ i = false) (Shared.Step fun i => loopStep (tickets i)))
      (unstarted ι) schedule σ) (i : ι) :
    σ.loops i = (runAlone (tickets i) (schedule.count i)).1 ∧
      ∀ exit, (σ.loops i).phase = .ended exit → OwnStuck exit (passesBy (tickets i) (σ.loops i)) := by
  have hun : Run (Guarded (fun σ i => Unaffected (loopStep (tickets i)) ImplementLoop.Ended (σ.loops i) σ.cell (σ.own i))
      (Shared.Step fun i => loopStep (tickets i))) (unstarted ι) schedule σ := by
    refine h.mono fun σ i σ' hs => ⟨unaffected_of_own (tickets i) fun hcounts => ?_, hs.2⟩
    have hown : countsForeign σ i = false := hs.1
    unfold countsForeign at hown
    rw [hcounts, Bool.true_and, decide_eq_false_iff_not, not_not] at hown
    exact hown
  have halone : AsAlone ImplementLoop.Ended σ i (runAlone (tickets i) (schedule.count i)) :=
    asAlone_of_unaffected (fun j l c hl => loopStep_ended (tickets j) hl c) hun i ⟨rfl, .inr rfl⟩
  refine ⟨halone.1, fun exit hexit => ?_⟩
  have hown := ownCounters_runAlone (tickets i) (schedule.count i)
  unfold OwnCounters at hown
  rw [← halone.1, hexit] at hown
  exact hown

end Tickets

/-! ## Two tickets -/

/-- A pass that reads a file, changes nothing and fails the tests. -/
def READING_PASS : PassResult := { newMsgs := some ["read_file"], feedback := some "1 failed" }

/-- A pass that leaves a change in the working tree and fails the tests. -/
def EDITING_PASS : PassResult :=
  { newMsgs := some ["edit_file"], repo := some (true, false), feedback := some "2 failed" }

/-- A ticket whose passes all read, and one whose passes all edit. -/
def READER_AND_EDITOR : Bool → LoopTicket
  | true => { passes := fun _ => READING_PASS }
  | false => { passes := fun _ => EDITING_PASS }

/-- The reader counts its first pass before the editor's pass ends: it is where it would be alone. -/
theorem loops_do_not_leak_apart :
    ∃ σ, Run (Guarded (fun σ i => countsForeign σ i = false) (Shared.Step fun i => loopStep (READER_AND_EDITOR i)))
      (unstarted Bool) [false, true, true, true, false, false] σ ∧
      σ.loops true = (runAlone (READER_AND_EDITOR true) 3).1 := by
  have hrun : Run (Guarded (fun σ i => countsForeign σ i = false) (Shared.Step fun i => loopStep (READER_AND_EDITOR i)))
      (unstarted Bool) [false, true, true, true, false, false]
      ([false, true, true, true, false, false].foldl (Shared.advance fun i => loopStep (READER_AND_EDITOR i))
        (unstarted Bool)) := by
    refine .cons ⟨?_, rfl⟩ (.cons ⟨?_, rfl⟩ (.cons ⟨?_, rfl⟩ (.cons ⟨?_, rfl⟩ (.cons ⟨?_, rfl⟩ (.cons ⟨?_, rfl⟩ (.nil _))))))
    all_goals decide +kernel
  exact ⟨_, hrun, (loops_do_not_leak READER_AND_EDITOR hrun true).1⟩

/-- Two passes of one ticket and the first of another: the other is blocked as stuck after a single pass. -/
theorem stuck_on_passes_of_another :
    ¬ ∀ (tickets : Bool → LoopTicket) (σ : Shared Bool ImplementLoop StuckCounters) (schedule : List Bool),
      Run (Shared.Step fun i => loopStep (tickets i)) (unstarted Bool) schedule σ → ∀ i,
        σ.loops i = (runAlone (tickets i) (schedule.count i)).1 ∧
          ∀ exit, (σ.loops i).phase = .ended exit → OwnStuck exit (passesBy (tickets i) (σ.loops i)) := by
  intro hclaim
  have hrun := Shared.run_schedule (fun _ : Bool => loopStep { passes := fun _ => READING_PASS }) (unstarted Bool)
    [true, false, true, true, true, true, false, false]
  have hleak := (hclaim _ _ _ hrun false).2
    (.stuckNoDiffPasses 3 1 READING_PASS.progress) rfl
  obtain ⟨before, last, hpasses, hlast, -⟩ := hleak
  have hlen := congrArg List.length hpasses
  rw [List.length_append, hlast] at hlen
  exact absurd hlen (by show 1 ≠ before.length + 3; omega)

end Stages
end RobotsixMill
