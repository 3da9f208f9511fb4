import Mathlib.Data.List.Nodup
import Mathlib.Data.String.Basic
import RobotsixMill.Lib.Latest
import RobotsixMill.Lib.PyText

/-!
# `Forge.CheckStatus` — the CI verdict of a commit

`_check_status` asks three endpoints what there is at a commit: check runs, commit statuses and workflow
runs. A check can have several runs, and the last one with a verdict counts; commit statuses are looked at
only where there are no check runs; workflow runs only add failures. Of each endpoint the first page is read.
All endpoints answer.

- `checkStatus` — the verdict, with what fails and what is pending;
- `CompleteVerdict` — it says success only over verdicts that are all there and none a failure, failure
  exactly where there is one, and the same in whatever order runs are listed;
- `conclusion_eq` — the verdict, said of what the first pages show;
- `completeVerdict_iff` — exactly when it is complete, where the first pages hold everything: a matter of what the three
  sources hide from each other.
-/

namespace RobotsixMill
namespace Forge
open Lib

/-! ## What there is at a commit -/

inductive RunStatus
  | queued | inProgress | completed | waiting | requested | pending
deriving DecidableEq, Repr

inductive Conclusion
  | success | failure | neutral | cancelled | skipped | timedOut | actionRequired | stale | startupFailure
deriving DecidableEq, Repr

structure CheckRun where
  name : String
  status : RunStatus
  conclusion : Option Conclusion
  /-- As text, that sorts by time; missing is `""`. -/
  startedAt : String
  completedAt : String
deriving DecidableEq, Repr

inductive StatusState
  | error | failure | pending | success
deriving DecidableEq, Repr

structure CommitStatus where
  context : String
  state : StatusState
deriving DecidableEq, Repr

structure WorkflowRun where
  name : String := ""
  path : String := ""
  workflowId : Nat
  /-- `none` while it runs. -/
  conclusion : Option Conclusion
  createdAt : String
deriving DecidableEq, Repr

/-- All there is at a commit, as the endpoints list it. -/
structure Head where
  checkRuns : List CheckRun
  statuses : List CommitStatus
  runs : List WorkflowRun
  /-- The latest status of each context. -/
  contexts : (statuses.map CommitStatus.context).Nodup

/-! ## The vocabularies -/

def FAILING_CONCLUSIONS : List Conclusion := [.failure, .timedOut, .actionRequired, .startupFailure]

def WORKFLOW_FAILING_CONCLUSIONS : List Conclusion := [.failure, .startupFailure]

def INCONCLUSIVE_CONCLUSIONS : List Conclusion := [.cancelled, .stale]

def PENDING_STATUSES : List RunStatus := [.inProgress, .queued, .waiting, .requested, .pending]

/-- The conclusion is one of these. -/
def isIn (conclusions : List Conclusion) (c : Option Conclusion) : Bool := c.any fun c => decide (c ∈ conclusions)

/-- `_in_flight`: a run with a conclusion and a completion time is over whatever its status says. -/
def inFlight (cr : CheckRun) : Bool :=
  decide (cr.status ∈ PENDING_STATUSES) && !(cr.conclusion.isSome && decide (cr.completedAt ≠ ""))

inductive Category
  | pending | failure | neutral
deriving DecidableEq, Repr

/-- `_conclusion_for_check`. -/
def conclusionForCheck (cr : CheckRun) : Category :=
  if inFlight cr then .pending
  else if isIn INCONCLUSIVE_CONCLUSIONS cr.conclusion then .pending
  else if isIn FAILING_CONCLUSIONS cr.conclusion then .failure
  else .neutral

/-- The run is over, with a verdict. -/
def definitive (cr : CheckRun) : Bool := !inFlight cr && !isIn INCONCLUSIVE_CONCLUSIONS cr.conclusion

/-- `a` is listed before `b` and did not start after it. -/
def startedBefore (a b : CheckRun) : Bool := decide (a.startedAt ≤ b.startedAt)

/-! ## The verdict -/

inductive CiConclusion
  | success | failure | pending
deriving DecidableEq, Repr

/-- What `_check_status` reports; of a failing check its name only. -/
structure CiResult where
  conclusion : Option CiConclusion
  failing : List String := []
  pending : List String := []
  jobs : List (String × Option Conclusion) := []
  noChecks : Bool := false
deriving DecidableEq, Repr

/-- The run that stands for all runs of a check. -/
def representative (runs : List CheckRun) : Option CheckRun :=
  let sorted := runs.mergeSort startedBefore
  (sorted.filter definitive).getLast?.or sorted.getLast?

/-- `_latest_definitive_runs`. -/
def latestDefinitiveRuns (runs : List CheckRun) : List CheckRun :=
  (runs.map CheckRun.name).eraseDups.filterMap fun name =>
    representative (runs.filter fun cr => decide (cr.name = name))

/-- `_derive_check_conclusion`. -/
def deriveCheckConclusion (runs : List CheckRun) : CiResult :=
  if runs = [] then { conclusion := none }
  else
    let runs := latestDefinitiveRuns runs
    let failing := (runs.filter fun cr => decide (conclusionForCheck cr = .failure)).map CheckRun.name
    let pending := (runs.filter fun cr => decide (conclusionForCheck cr = .pending)).map CheckRun.name
    let jobs := runs.map fun cr => (cr.name, cr.conclusion)
    if failing ≠ [] then { conclusion := some .failure, failing, pending, jobs }
    else if pending ≠ [] then { conclusion := some .pending, pending, jobs }
    else { conclusion := some .success, jobs }

/-- A status, in the shape of a check run. -/
def CommitStatus.checkRun (st : CommitStatus) : CheckRun where
  name := st.context
  status := if st.state = .pending then .inProgress else .completed
  conclusion :=
    match st.state with
    | .pending => none
    | .error => some .failure
    | .failure => some .failure
    | .success => some .success
  startedAt := ""
  completedAt := ""

/-- `_statuses_to_check_runs`: of each context the status that is listed first. -/
def statusesToCheckRuns (statuses : List CommitStatus) : List CheckRun :=
  (statuses.map CommitStatus.context).eraseDups.filterMap fun ctx =>
    (statuses.find? fun st => decide (st.context = ctx)).map CommitStatus.checkRun

/-- `a` is listed before `b` and was created before it. -/
def createdBefore (a b : WorkflowRun) : Bool := decide (a.createdAt < b.createdAt)

/-- The completed runs of a workflow. -/
def completedRuns (runs : List WorkflowRun) (workflowId : Nat) : List WorkflowRun :=
  runs.filter fun run => run.conclusion.isSome && decide (run.workflowId = workflowId)

/-- `_latest_failing_workflow_runs`: one entry a workflow. -/
def latestFailingWorkflowRuns (runs : List WorkflowRun) : List WorkflowRun :=
  let done := runs.filter fun run => run.conclusion.isSome
  ((done.map WorkflowRun.workflowId).eraseDups.filterMap fun workflowId =>
    latest createdBefore (completedRuns runs workflowId)).filter fun run =>
      isIn WORKFLOW_FAILING_CONCLUSIONS run.conclusion

/-- `run.get("name") or run.get("path") or "workflow"`. -/
def WorkflowRun.label (run : WorkflowRun) : String :=
  if run.name ≠ "" then run.name else if run.path ≠ "" then run.path else "workflow"

/-- The labels of failing runs that are not in the list yet, each once. -/
def addLabels (failing : List String) : List WorkflowRun → List String
  | [] => failing
  | run :: runs =>
    let label := strip run.label
    addLabels (if label ∈ failing.map strip then failing else failing ++ [label]) runs

/-- `_merge_workflow_run_failures`. -/
def mergeWorkflowRunFailures (result : CiResult) (runs : List WorkflowRun) : CiResult :=
  let failingRuns := latestFailingWorkflowRuns runs
  if failingRuns = [] then result
  else if result.conclusion = some .failure then result
  else
    { result with
      conclusion := some .failure
      failing := addLabels result.failing failingRuns
      pending := [] }

def CHECK_RUNS_PER_PAGE : Nat := 100

/-- The default of the endpoint. -/
def STATUSES_PER_PAGE : Nat := 30

def WORKFLOW_RUNS_PER_PAGE : Nat := 30

/-- The check runs that are read. -/
def Head.shownCheckRuns (head : Head) : List CheckRun := head.checkRuns.take CHECK_RUNS_PER_PAGE

/-- The statuses that are read. -/
def Head.shownStatuses (head : Head) : List CommitStatus := head.statuses.take STATUSES_PER_PAGE

/-- The workflow runs that are read, `status=completed` or of any status. -/
def Head.shownRuns (head : Head) (anyStatus : Bool) : List WorkflowRun :=
  (if anyStatus then head.runs else head.runs.filter fun run => run.conclusion.isSome).take WORKFLOW_RUNS_PER_PAGE

/-- `_check_status` of a commit. -/
def checkStatus (head : Head) (requireChecks : Bool) : CiResult :=
  let statusRuns := statusesToCheckRuns head.shownStatuses
  let checkRuns := if head.shownCheckRuns = [] then statusRuns else head.shownCheckRuns
  if checkRuns = [] ∧ statusRuns = [] then
    if requireChecks then
      mergeWorkflowRunFailures { conclusion := some .pending, noChecks := true } (head.shownRuns false)
    else
      let runs := head.shownRuns true
      let inFlightRuns := runs.filter fun run => run.conclusion.isNone
      let result : CiResult :=
        if inFlightRuns ≠ [] then
          { conclusion := some .pending, pending := inFlightRuns.map WorkflowRun.label, noChecks := true }
        else { conclusion := some .success }
      mergeWorkflowRunFailures result runs
  else mergeWorkflowRunFailures (deriveCheckConclusion checkRuns) (head.shownRuns false)

/-! ## A complete verdict -/

/-- The latest run of a check that has a verdict. -/
def latestVerdict (runs : List CheckRun) (name : String) : Option CheckRun :=
  latest startedBefore ((runs.filter fun cr => decide (cr.name = name)).filter definitive)

/-- The latest verdict on a check is a failure. -/
def FailsCheck (runs : List CheckRun) (name : String) : Prop :=
  ∃ cr, latestVerdict runs name = some cr ∧ isIn FAILING_CONCLUSIONS cr.conclusion = true

/-- There is no verdict on a check: its runs are running, cancelled or stale. -/
def LacksCheck (runs : List CheckRun) (name : String) : Prop :=
  (∃ cr ∈ runs, cr.name = name) ∧ latestVerdict runs name = none

def CommitStatus.Fails (st : CommitStatus) : Prop := st.state = .failure ∨ st.state = .error

/-- The run is over, and neither cancelled nor stale. -/
def WorkflowRun.definitive (run : WorkflowRun) : Bool :=
  run.conclusion.isSome && !isIn INCONCLUSIVE_CONCLUSIONS run.conclusion

/-- The latest run of a workflow that has a verdict. -/
def latestRunVerdict (runs : List WorkflowRun) (workflowId : Nat) : Option WorkflowRun :=
  latest createdBefore (runs.filter fun run => run.definitive && decide (run.workflowId = workflowId))

def FailsWorkflow (runs : List WorkflowRun) (workflowId : Nat) : Prop :=
  ∃ run, latestRunVerdict runs workflowId = some run ∧ isIn WORKFLOW_FAILING_CONCLUSIONS run.conclusion = true

def LacksWorkflow (runs : List WorkflowRun) (workflowId : Nat) : Prop :=
  (∃ run ∈ runs, run.workflowId = workflowId) ∧ latestRunVerdict runs workflowId = none

/-- Some check, status context or workflow has a latest verdict that is a failure. -/
def Head.Failing (head : Head) : Prop :=
  (∃ name, FailsCheck head.checkRuns name) ∨ (∃ st ∈ head.statuses, st.Fails) ∨
    ∃ workflowId, FailsWorkflow head.runs workflowId

/-- Some check, status context or workflow has no verdict. -/
def Head.Lacking (head : Head) : Prop :=
  (∃ name, LacksCheck head.checkRuns name) ∨ (∃ st ∈ head.statuses, st.state = .pending) ∨
    ∃ workflowId, LacksWorkflow head.runs workflowId

/-- No two runs of a check, and no two of a workflow, started at the same time. -/
def Head.DistinctStarts (head : Head) : Prop :=
  (∀ a ∈ head.checkRuns, ∀ b ∈ head.checkRuns, a.name = b.name → a.startedAt = b.startedAt → a = b) ∧
    ∀ a ∈ head.runs, ∀ b ∈ head.runs, a.workflowId = b.workflowId → a.createdAt = b.createdAt → a = b

/-- The same, listed in another order. -/
def Head.Relists (head head' : Head) : Prop :=
  head'.checkRuns.Perm head.checkRuns ∧ head'.statuses.Perm head.statuses ∧ head'.runs.Perm head.runs

/-- **The verdict is complete.** -/
structure CompleteVerdict (head : Head) (requireChecks : Bool) : Prop where
  success : (checkStatus head requireChecks).conclusion = some .success → ¬ head.Failing ∧ ¬ head.Lacking
  failure : (checkStatus head requireChecks).conclusion = some .failure ↔ head.Failing
  order : head.DistinctStarts → ∀ head', head.Relists head' →
    (checkStatus head' requireChecks).conclusion = (checkStatus head requireChecks).conclusion

/-! ## What the first pages show -/

/-- There are neither checks nor statuses, and workflow runs of any status are read. -/
def Head.Probes (head : Head) (requireChecks : Bool) : Prop :=
  head.checkRuns = [] ∧ head.statuses = [] ∧ requireChecks = false

instance (head : Head) (requireChecks : Bool) : Decidable (head.Probes requireChecks) := by
  unfold Head.Probes
  infer_instance

/-- The pages that are read show a failure: of a check; without check runs, of a status; of a workflow, whose
    latest completed run counts, cancelled or not. -/
def Head.ShowsFailing (head : Head) (requireChecks : Bool) : Prop :=
  (∃ name, FailsCheck head.shownCheckRuns name) ∨
    (head.checkRuns = [] ∧ ∃ st ∈ head.shownStatuses, st.Fails) ∨
    ∃ workflowId run, latest createdBefore
        (completedRuns (head.shownRuns (decide (head.Probes requireChecks))) workflowId) = some run ∧
      isIn WORKFLOW_FAILING_CONCLUSIONS run.conclusion = true

/-- The pages that are read show a check without a verdict; without check runs, a status without one; with
    neither, a workflow run that is not over, if not that checks are required. -/
def Head.ShowsLacking (head : Head) (requireChecks : Bool) : Prop :=
  (∃ name, LacksCheck head.shownCheckRuns name) ∨
    (head.checkRuns = [] ∧ ∃ st ∈ head.shownStatuses, st.state = .pending) ∨
    (head.checkRuns = [] ∧ head.statuses = [] ∧
      (requireChecks = true ∨ ∃ run ∈ head.shownRuns true, run.conclusion = none))

/-! ## The verdict, read off the pages -/

theorem conclusionForCheck_pending_iff {cr : CheckRun} :
    conclusionForCheck cr = .pending ↔ definitive cr = false := by
  unfold conclusionForCheck definitive
  cases inFlight cr <;> cases isIn INCONCLUSIVE_CONCLUSIONS cr.conclusion <;>
    cases isIn FAILING_CONCLUSIONS cr.conclusion <;> simp

theorem conclusionForCheck_failure_iff {cr : CheckRun} : conclusionForCheck cr = .failure ↔
    definitive cr = true ∧ isIn FAILING_CONCLUSIONS cr.conclusion = true := by
  unfold conclusionForCheck definitive
  cases inFlight cr <;> cases isIn INCONCLUSIVE_CONCLUSIONS cr.conclusion <;>
    cases isIn FAILING_CONCLUSIONS cr.conclusion <;> simp

/-- The latest run with a verdict stands for a check; without one, a run that has none does. -/
theorem representative_cases (runs : List CheckRun) :
    (∃ cr, latest startedBefore (runs.filter definitive) = some cr ∧ representative runs = some cr) ∨
      (latest startedBefore (runs.filter definitive) = none ∧
        (runs = [] ∧ representative runs = none ∨
          ∃ cr, representative runs = some cr ∧ definitive cr = false)) := by
  have hlast : ((runs.mergeSort startedBefore).filter definitive).getLast? =
      latest startedBefore (runs.filter definitive) :=
    getLast?_filter_mergeSort CheckRun.startedAt definitive runs
  unfold representative
  dsimp only
  rw [hlast]
  cases hlatest : latest startedBefore (runs.filter definitive) with
  | some cr => exact .inl ⟨cr, rfl, rfl⟩
  | none =>
      refine .inr ⟨rfl, ?_⟩
      rw [Option.none_or]
      cases hsorted : (runs.mergeSort startedBefore).getLast? with
      | none =>
          rw [List.getLast?_eq_none_iff] at hsorted
          refine .inl ⟨?_, rfl⟩
          rw [← List.length_eq_zero_iff, ← @List.length_mergeSort _ startedBefore runs, hsorted]
          rfl
      | some cr =>
          refine .inr ⟨cr, rfl, ?_⟩
          have hmem : cr ∈ runs := List.mem_mergeSort.1 (List.mem_of_getLast? hsorted)
          have hnone := List.filter_eq_nil_iff.1 (latest_eq_none_iff.1 hlatest) cr hmem
          simpa using hnone

@[simp] theorem representative_nil : representative [] = none := by simp [representative]

theorem mem_latestDefinitiveRuns {runs : List CheckRun} {cr : CheckRun} :
    cr ∈ latestDefinitiveRuns runs ↔
      ∃ name, representative (runs.filter fun cr => decide (cr.name = name)) = some cr := by
  unfold latestDefinitiveRuns
  rw [List.mem_filterMap]
  constructor
  · rintro ⟨name, -, h⟩
    exact ⟨name, h⟩
  · rintro ⟨name, h⟩
    refine ⟨name, ?_, h⟩
    rw [List.mem_eraseDups]
    -- a check without runs has no representative
    by_contra hname
    have hnil : runs.filter (fun cr => decide (cr.name = name)) = [] := by
      rw [List.filter_eq_nil_iff]
      intro cr hcr hdecide
      exact hname (of_decide_eq_true hdecide ▸ List.mem_map_of_mem hcr)
    rw [hnil, representative_nil] at h
    cases h

/-- Some representative fails exactly if the latest verdict on some check is a failure. -/
theorem exists_failing_iff {runs : List CheckRun} :
    (∃ cr ∈ latestDefinitiveRuns runs, conclusionForCheck cr = .failure) ↔ ∃ name, FailsCheck runs name := by
  constructor
  · rintro ⟨cr, hcr, hfails⟩
    obtain ⟨name, hrep⟩ := mem_latestDefinitiveRuns.1 hcr
    obtain ⟨hdefinitive, hconclusion⟩ := conclusionForCheck_failure_iff.1 hfails
    rcases representative_cases (runs.filter fun cr => decide (cr.name = name)) with
      ⟨cr', hlatest, hrep'⟩ | ⟨-, ⟨-, hrep'⟩ | ⟨cr', hrep', hnot⟩⟩
    · rw [hrep] at hrep'
      obtain rfl := Option.some.inj hrep'
      exact ⟨name, cr, hlatest, hconclusion⟩
    · rw [hrep] at hrep'
      cases hrep'
    · rw [hrep] at hrep'
      obtain rfl := Option.some.inj hrep'
      rw [hdefinitive] at hnot
      cases hnot
  · rintro ⟨name, cr, hlatest, hconclusion⟩
    have hdefinitive : definitive cr = true := (List.mem_filter.1 (latest_mem hlatest)).2
    refine ⟨cr, mem_latestDefinitiveRuns.2 ⟨name, ?_⟩,
      conclusionForCheck_failure_iff.2 ⟨hdefinitive, hconclusion⟩⟩
    rcases representative_cases (runs.filter fun cr => decide (cr.name = name)) with
      ⟨cr', hlatest', hrep⟩ | ⟨hnone, -⟩
    · unfold latestVerdict at hlatest
      rw [hlatest] at hlatest'
      rw [hrep, ← hlatest']
    · unfold latestVerdict at hlatest
      rw [hlatest] at hnone
      cases hnone

/-- Some representative is pending exactly if there is no verdict on some check. -/
theorem exists_pending_iff {runs : List CheckRun} :
    (∃ cr ∈ latestDefinitiveRuns runs, conclusionForCheck cr = .pending) ↔ ∃ name, LacksCheck runs name := by
  constructor
  · rintro ⟨cr, hcr, hpending⟩
    obtain ⟨name, hrep⟩ := mem_latestDefinitiveRuns.1 hcr
    have hnot := conclusionForCheck_pending_iff.1 hpending
    rcases representative_cases (runs.filter fun cr => decide (cr.name = name)) with
      ⟨cr', hlatest, hrep'⟩ | ⟨hnone, ⟨hnil, hrep'⟩ | ⟨cr', hrep', -⟩⟩
    · rw [hrep] at hrep'
      obtain rfl := Option.some.inj hrep'
      rw [(List.mem_filter.1 (latest_mem hlatest)).2] at hnot
      cases hnot
    · rw [hrep] at hrep'
      cases hrep'
    · have hmem : ∃ cr ∈ runs, cr.name = name := by
        by_contra hempty
        have hnil : runs.filter (fun cr => decide (cr.name = name)) = [] := by
          rw [List.filter_eq_nil_iff]
          intro cr hcr hdecide
          exact hempty ⟨cr, hcr, of_decide_eq_true hdecide⟩
        rw [hnil, representative_nil] at hrep
        cases hrep
      exact ⟨name, hmem, hnone⟩
  · rintro ⟨name, ⟨cr, hcr, hname⟩, hnone⟩
    rcases representative_cases (runs.filter fun cr => decide (cr.name = name)) with
      ⟨cr', hlatest, -⟩ | ⟨-, ⟨hnil, -⟩ | ⟨cr', hrep, hnot⟩⟩
    · unfold latestVerdict at hnone
      rw [hlatest] at hnone
      cases hnone
    · have hmem : cr ∈ runs.filter fun cr => decide (cr.name = name) :=
        List.mem_filter.2 ⟨hcr, decide_eq_true hname⟩
      rw [hnil] at hmem
      exact absurd hmem List.not_mem_nil
    · exact ⟨cr', mem_latestDefinitiveRuns.2 ⟨name, hrep⟩, conclusionForCheck_pending_iff.2 hnot⟩

theorem map_filter_eq_nil_iff {α β : Type} {p : α → Bool} {f : α → β} {l : List α} :
    (l.filter p).map f = [] ↔ ¬ ∃ a ∈ l, p a = true := by
  rw [List.map_eq_nil_iff, List.filter_eq_nil_iff]
  push Not
  exact Iff.rfl

/-- **The verdict on check runs**, read off their latest verdicts. -/
theorem deriveCheckConclusion_conclusion {runs : List CheckRun} (h : runs ≠ []) :
    ((deriveCheckConclusion runs).conclusion = some .failure ↔ ∃ name, FailsCheck runs name) ∧
      ((deriveCheckConclusion runs).conclusion = some .success ↔
        (¬ ∃ name, FailsCheck runs name) ∧ ¬ ∃ name, LacksCheck runs name) ∧
      (deriveCheckConclusion runs).conclusion ≠ none := by
  have hfailing := map_filter_eq_nil_iff (l := latestDefinitiveRuns runs) (f := CheckRun.name)
    (p := fun cr => decide (conclusionForCheck cr = .failure))
  have hpending := map_filter_eq_nil_iff (l := latestDefinitiveRuns runs) (f := CheckRun.name)
    (p := fun cr => decide (conclusionForCheck cr = .pending))
  simp only [decide_eq_true_iff] at hfailing hpending
  rw [exists_failing_iff] at hfailing
  rw [exists_pending_iff] at hpending
  unfold deriveCheckConclusion
  rw [if_neg h]
  dsimp only
  by_cases hfails : ∃ name, FailsCheck runs name
  · rw [if_pos (fun hnil => hfailing.1 hnil hfails)]
    exact ⟨⟨fun _ => hfails, fun _ => rfl⟩, ⟨fun heq => (by cases heq), fun hnot => absurd hfails hnot.1⟩,
      by simp⟩
  · rw [if_neg (not_not.2 (hfailing.2 hfails))]
    by_cases hlacks : ∃ name, LacksCheck runs name
    · rw [if_pos (fun hnil => hpending.1 hnil hlacks)]
      exact ⟨⟨fun heq => (by cases heq), fun hsome => absurd hsome hfails⟩,
        ⟨fun heq => (by cases heq), fun hnot => absurd hlacks hnot.2⟩, by simp⟩
    · rw [if_neg (not_not.2 (hpending.2 hlacks))]
      exact ⟨⟨fun heq => (by cases heq), fun hsome => absurd hsome hfails⟩,
        ⟨fun _ => ⟨hfails, hlacks⟩, fun _ => rfl⟩, by simp⟩

/-! ### Statuses as check runs -/

theorem mem_statusesToCheckRuns {statuses : List CommitStatus}
    (h : (statuses.map CommitStatus.context).Nodup) {cr : CheckRun} :
    cr ∈ statusesToCheckRuns statuses ↔ ∃ st ∈ statuses, cr = st.checkRun := by
  unfold statusesToCheckRuns
  rw [List.mem_filterMap]
  constructor
  · rintro ⟨ctx, -, hfind⟩
    obtain ⟨st, hst, hcr⟩ := Option.map_eq_some_iff.1 hfind
    exact ⟨st, List.mem_of_find?_eq_some hst, hcr.symm⟩
  · rintro ⟨st, hst, rfl⟩
    refine ⟨st.context, List.mem_eraseDups.2 (List.mem_map_of_mem hst), ?_⟩
    cases hfind : statuses.find? fun st' => decide (st'.context = st.context) with
    | none => exact absurd (decide_eq_true rfl) (List.find?_eq_none.1 hfind st hst)
    | some st' =>
        have heq : st'.context = st.context :=
          of_decide_eq_true (List.find?_some (p := fun st' : CommitStatus => decide (st'.context = st.context)) hfind)
        rw [List.inj_on_of_nodup_map h (List.mem_of_find?_eq_some hfind) hst heq]
        rfl

theorem checkRun_definitive (st : CommitStatus) : definitive st.checkRun = decide (st.state ≠ .pending) := by
  cases st with
  | mk ctx state => cases state <;> rfl

theorem checkRun_fails (st : CommitStatus) :
    isIn FAILING_CONCLUSIONS st.checkRun.conclusion = true ↔ st.Fails := by
  cases st with
  | mk ctx state => cases state <;> simp [CommitStatus.checkRun, CommitStatus.Fails, isIn, FAILING_CONCLUSIONS]

/-- A context has one run. -/
theorem latestVerdict_statuses {statuses : List CommitStatus}
    (h : (statuses.map CommitStatus.context).Nodup) {st : CommitStatus} (hst : st ∈ statuses) :
    latestVerdict (statusesToCheckRuns statuses) st.context =
      if st.state = .pending then none else some st.checkRun := by
  have hmem : ∀ cr, cr ∈ ((statusesToCheckRuns statuses).filter fun cr =>
      decide (cr.name = st.context)).filter definitive ↔ cr = st.checkRun ∧ st.state ≠ .pending := by
    intro cr
    rw [List.mem_filter, List.mem_filter, mem_statusesToCheckRuns h, decide_eq_true_iff]
    constructor
    · rintro ⟨⟨⟨st', hst', rfl⟩, hname⟩, hdefinitive⟩
      obtain rfl : st' = st := List.inj_on_of_nodup_map h hst' hst hname
      rw [checkRun_definitive, decide_eq_true_iff] at hdefinitive
      exact ⟨rfl, hdefinitive⟩
    · rintro ⟨rfl, hstate⟩
      exact ⟨⟨⟨st, hst, rfl⟩, rfl⟩, by rw [checkRun_definitive, decide_eq_true_iff]; exact hstate⟩
  unfold latestVerdict
  cases hlatest : latest startedBefore (((statusesToCheckRuns statuses).filter fun cr =>
      decide (cr.name = st.context)).filter definitive) with
  | none =>
      have hnil := latest_eq_none_iff.1 hlatest
      split
      · rfl
      · rename_i hstate
        have hcr := (hmem st.checkRun).2 ⟨rfl, hstate⟩
        rw [hnil] at hcr
        exact absurd hcr List.not_mem_nil
  | some cr =>
      obtain ⟨rfl, hstate⟩ := (hmem cr).1 (latest_mem hlatest)
      rw [if_neg hstate]

theorem failsCheck_statuses {statuses : List CommitStatus}
    (h : (statuses.map CommitStatus.context).Nodup) :
    (∃ name, FailsCheck (statusesToCheckRuns statuses) name) ↔ ∃ st ∈ statuses, st.Fails := by
  constructor
  · rintro ⟨name, cr, hlatest, hconclusion⟩
    obtain ⟨st, hst, rfl⟩ := (mem_statusesToCheckRuns h).1
      (List.mem_of_mem_filter (List.mem_of_mem_filter (latest_mem hlatest)))
    exact ⟨st, hst, (checkRun_fails st).1 hconclusion⟩
  · rintro ⟨st, hst, hfails⟩
    have hstate : st.state ≠ .pending := by
      rcases hfails with hstate | hstate <;> rw [hstate] <;> decide
    refine ⟨st.context, st.checkRun, ?_, (checkRun_fails st).2 hfails⟩
    rw [latestVerdict_statuses h hst, if_neg hstate]

theorem lacksCheck_statuses {statuses : List CommitStatus}
    (h : (statuses.map CommitStatus.context).Nodup) :
    (∃ name, LacksCheck (statusesToCheckRuns statuses) name) ↔ ∃ st ∈ statuses, st.state = .pending := by
  constructor
  · rintro ⟨name, ⟨cr, hcr, rfl⟩, hnone⟩
    obtain ⟨st, hst, rfl⟩ := (mem_statusesToCheckRuns h).1 hcr
    refine ⟨st, hst, ?_⟩
    by_contra hstate
    have hverdict := latestVerdict_statuses h hst
    rw [if_neg hstate] at hverdict
    have hname : st.checkRun.name = st.context := rfl
    rw [hname, hverdict] at hnone
    cases hnone
  · rintro ⟨st, hst, hstate⟩
    refine ⟨st.context, ⟨st.checkRun, (mem_statusesToCheckRuns h).2 ⟨st, hst, rfl⟩, rfl⟩, ?_⟩
    rw [latestVerdict_statuses h hst, if_pos hstate]

/-! ### Workflow runs -/

theorem latestFailingWorkflowRuns_ne_nil_iff {runs : List WorkflowRun} :
    latestFailingWorkflowRuns runs ≠ [] ↔ ∃ workflowId run,
      latest createdBefore (completedRuns runs workflowId) = some run ∧
        isIn WORKFLOW_FAILING_CONCLUSIONS run.conclusion = true := by
  unfold latestFailingWorkflowRuns
  dsimp only
  constructor
  · intro h
    obtain ⟨run, hrun⟩ := List.exists_mem_of_ne_nil _ h
    obtain ⟨hmem, hfails⟩ := List.mem_filter.1 hrun
    obtain ⟨workflowId, -, hlatest⟩ := List.mem_filterMap.1 hmem
    exact ⟨workflowId, run, hlatest, hfails⟩
  · rintro ⟨workflowId, run, hlatest, hfails⟩
    have hrun := List.mem_filter.1 (latest_mem hlatest)
    rw [Bool.and_eq_true, decide_eq_true_iff] at hrun
    refine List.ne_nil_of_mem (List.mem_filter.2 ⟨List.mem_filterMap.2 ⟨workflowId, ?_, hlatest⟩, hfails⟩)
    rw [List.mem_eraseDups, ← hrun.2.2]
    exact List.mem_map_of_mem (List.mem_filter.2 ⟨hrun.1, hrun.2.1⟩)

/-- Workflow runs only add a failure. -/
theorem mergeWorkflowRunFailures_conclusion (result : CiResult) (runs : List WorkflowRun) :
    (mergeWorkflowRunFailures result runs).conclusion =
      if latestFailingWorkflowRuns runs ≠ [] then some .failure else result.conclusion := by
  unfold mergeWorkflowRunFailures
  dsimp only
  by_cases hnil : latestFailingWorkflowRuns runs = []
  · rw [if_pos hnil, if_neg (not_not.2 hnil)]
  · rw [if_neg hnil, if_pos hnil]
    split
    · rename_i hfailure
      exact hfailure
    · rfl

/-! ### The verdict -/

variable {head head' : Head} {requireChecks : Bool}

theorem shownCheckRuns_eq_nil : head.shownCheckRuns = [] ↔ head.checkRuns = [] := by
  rw [Head.shownCheckRuns, List.take_eq_nil_iff]
  exact or_iff_right (by decide)

theorem shownStatuses_eq_nil : head.shownStatuses = [] ↔ head.statuses = [] := by
  rw [Head.shownStatuses, List.take_eq_nil_iff]
  exact or_iff_right (by decide)

theorem shownStatuses_nodup : (head.shownStatuses.map CommitStatus.context).Nodup := by
  rw [Head.shownStatuses, List.map_take]
  exact (List.take_sublist _ _).nodup head.contexts

theorem statusesToCheckRuns_eq_nil : statusesToCheckRuns head.shownStatuses = [] ↔ head.statuses = [] := by
  rw [← shownStatuses_eq_nil, List.eq_nil_iff_forall_not_mem, List.eq_nil_iff_forall_not_mem]
  constructor
  · intro h st hst
    exact h st.checkRun ((mem_statusesToCheckRuns shownStatuses_nodup).2 ⟨st, hst, rfl⟩)
  · intro h cr hcr
    obtain ⟨st, hst, -⟩ := (mem_statusesToCheckRuns shownStatuses_nodup).1 hcr
    exact h st hst

/-- A failure of checks or statuses that the pages show. -/
def Head.ShowsFailingCheck (head : Head) : Prop :=
  (∃ name, FailsCheck head.shownCheckRuns name) ∨ (head.checkRuns = [] ∧ ∃ st ∈ head.shownStatuses, st.Fails)

/-- Workflow runs are read after a verdict on the rest, and only add a failure. -/
theorem checkStatus_conclusion (head : Head) (requireChecks : Bool) : ∃ base : CiResult,
    (checkStatus head requireChecks).conclusion =
      (mergeWorkflowRunFailures base (head.shownRuns (decide (head.Probes requireChecks)))).conclusion ∧
    (base.conclusion = some .failure ↔ head.ShowsFailingCheck) ∧
    (base.conclusion = some .success ↔ ¬ head.ShowsFailingCheck ∧ ¬ head.ShowsLacking requireChecks) ∧
    base.conclusion ≠ none := by
  have hnoCheck : ∀ {p : CheckRun → Prop}, head.checkRuns = [] → ¬ ∃ cr ∈ head.shownCheckRuns, p cr := by
    rintro p hnil ⟨cr, hcr, -⟩
    rw [shownCheckRuns_eq_nil.2 hnil] at hcr
    exact List.not_mem_nil hcr
  have hnoFails : head.checkRuns = [] → ¬ ∃ name, FailsCheck head.shownCheckRuns name := by
    rintro hnil ⟨name, cr, hlatest, -⟩
    exact hnoCheck (p := fun _ => True) hnil
      ⟨cr, List.mem_of_mem_filter (List.mem_of_mem_filter (latest_mem hlatest)), trivial⟩
  have hnoLacks : head.checkRuns = [] → ¬ ∃ name, LacksCheck head.shownCheckRuns name := by
    rintro hnil ⟨name, hsome, -⟩
    exact hnoCheck hnil hsome
  unfold checkStatus Head.ShowsFailingCheck Head.ShowsLacking
  by_cases hchecks : head.checkRuns = []
  · by_cases hstatuses : head.statuses = []
    · -- there are neither checks nor statuses
      have hnone : ∀ {p : CommitStatus → Prop}, ¬ ∃ st ∈ head.shownStatuses, p st := by
        rintro p ⟨st, hst, -⟩
        rw [shownStatuses_eq_nil.2 hstatuses] at hst
        exact List.not_mem_nil hst
      have hempty : (if head.shownCheckRuns = [] then statusesToCheckRuns head.shownStatuses
          else head.shownCheckRuns) = [] ∧ statusesToCheckRuns head.shownStatuses = [] := by
        rw [if_pos (shownCheckRuns_eq_nil.2 hchecks), statusesToCheckRuns_eq_nil.2 hstatuses]
        exact ⟨rfl, rfl⟩
      dsimp only
      rw [if_pos hempty]
      cases requireChecks with
      | true =>
          refine ⟨{ conclusion := some .pending, noChecks := true }, ?_, ?_, ?_, by simp⟩
          · simp [Head.Probes]
          · simp [hnoFails hchecks, hnone]
          · simp [hchecks, hstatuses]
      | false =>
          have hprobes : decide (head.Probes false) = true := decide_eq_true ⟨hchecks, hstatuses, rfl⟩
          rw [hprobes]
          refine ⟨_, rfl, ?_, ?_, by split <;> simp⟩
          · split <;> simp [hnoFails hchecks, hnone]
          · have hrunning : ((head.shownRuns true).filter fun run => run.conclusion.isNone) = [] ↔
                ¬ ∃ run ∈ head.shownRuns true, run.conclusion = none := by
              rw [List.filter_eq_nil_iff]
              simp
            split
            · rename_i hruns
              simp only [ne_eq, hrunning, not_not] at hruns
              simp [hchecks, hstatuses, hruns]
            · rename_i hruns
              rw [not_not, hrunning] at hruns
              simp [hnoFails hchecks, hnoLacks hchecks, hnone, hruns]
    · -- the statuses decide
      have hne : statusesToCheckRuns head.shownStatuses ≠ [] := mt statusesToCheckRuns_eq_nil.1 hstatuses
      have hprobes : decide (head.Probes requireChecks) = false := decide_eq_false fun h => hstatuses h.2.1
      obtain ⟨hfailure, hsuccess, hsome⟩ := deriveCheckConclusion_conclusion hne
      rw [failsCheck_statuses shownStatuses_nodup] at hfailure hsuccess
      rw [lacksCheck_statuses shownStatuses_nodup] at hsuccess
      refine ⟨deriveCheckConclusion (statusesToCheckRuns head.shownStatuses), ?_, ?_, ?_, hsome⟩
      · dsimp only
        rw [if_pos (shownCheckRuns_eq_nil.2 hchecks), if_neg (fun h => hne h.1), hprobes]
      · rw [hfailure]
        simp [hnoFails hchecks, hchecks]
      · rw [hsuccess]
        simp [hnoFails hchecks, hnoLacks hchecks, hchecks, hstatuses]
  · -- the check runs decide
    have hne : head.shownCheckRuns ≠ [] := mt shownCheckRuns_eq_nil.1 hchecks
    have hprobes : decide (head.Probes requireChecks) = false := decide_eq_false fun h => hchecks h.1
    obtain ⟨hfailure, hsuccess, hsome⟩ := deriveCheckConclusion_conclusion hne
    refine ⟨deriveCheckConclusion head.shownCheckRuns, ?_, ?_, ?_, hsome⟩
    · dsimp only
      rw [if_neg hne, if_neg (fun h => hne h.1), hprobes]
    · rw [hfailure]
      simp [hchecks]
    · rw [hsuccess]
      simp [hchecks]

/-- **The verdict, read off the pages.** It is one of three. -/
theorem conclusion_eq (head : Head) (requireChecks : Bool) :
    ((checkStatus head requireChecks).conclusion = some .failure ↔ head.ShowsFailing requireChecks) ∧
      ((checkStatus head requireChecks).conclusion = some .success ↔
        ¬ head.ShowsFailing requireChecks ∧ ¬ head.ShowsLacking requireChecks) ∧
      (checkStatus head requireChecks).conclusion ≠ none := by
  obtain ⟨base, hbase, hfailure, hsuccess, hsome⟩ := checkStatus_conclusion head requireChecks
  have hshows : head.ShowsFailing requireChecks ↔ head.ShowsFailingCheck ∨
      latestFailingWorkflowRuns (head.shownRuns (decide (head.Probes requireChecks))) ≠ [] := by
    rw [latestFailingWorkflowRuns_ne_nil_iff, Head.ShowsFailingCheck, or_assoc]
    rfl
  rw [hbase, mergeWorkflowRunFailures_conclusion, hshows]
  by_cases hruns : latestFailingWorkflowRuns (head.shownRuns (decide (head.Probes requireChecks))) = []
  · rw [if_neg (not_not.2 hruns), hfailure, hsuccess]
    simp [hruns, hsome]
  · rw [if_pos hruns]
    simp [hruns]

/-! ## When it is complete -/

/-- The first pages hold everything. -/
structure Head.WithinPages (head : Head) : Prop where
  checkRuns : head.checkRuns.length ≤ CHECK_RUNS_PER_PAGE
  statuses : head.statuses.length ≤ STATUSES_PER_PAGE
  runs : head.runs.length ≤ WORKFLOW_RUNS_PER_PAGE

/-- What makes a verdict complete: a failure is shown if there is one, and only then; where none is shown, nor
    anything without a verdict, everything has one; and either the first pages hold everything, or what they
    show is the same in every order. -/
structure Head.Covers (head : Head) (requireChecks : Bool) : Prop where
  failing : head.Failing → head.ShowsFailing requireChecks
  shown : head.ShowsFailing requireChecks → head.Failing
  lacking : ¬ head.ShowsFailing requireChecks → ¬ head.ShowsLacking requireChecks → ¬ head.Lacking
  order : head.DistinctStarts → head.WithinPages ∨ ∀ head', head.Relists head' →
    (head'.ShowsFailing requireChecks ↔ head.ShowsFailing requireChecks) ∧
      (¬ head.ShowsFailing requireChecks →
        (head'.ShowsLacking requireChecks ↔ head.ShowsLacking requireChecks))

theorem latestVerdict_perm {runs runs' : List CheckRun} (h : runs'.Perm runs)
    (hstarts : ∀ a ∈ runs, ∀ b ∈ runs, a.name = b.name → a.startedAt = b.startedAt → a = b) (name : String) :
    latestVerdict runs' name = latestVerdict runs name := by
  refine (latest_perm (byKey_le : ByKey CheckRun.startedAt _) byKey_le ?_ ?_).symm
  · intro cr
    simp only [List.mem_filter, h.mem_iff]
  · intro a ha b hb hkey
    obtain ⟨ha, hname⟩ := List.mem_filter.1 (List.mem_of_mem_filter ha)
    obtain ⟨hb, hname'⟩ := List.mem_filter.1 (List.mem_of_mem_filter hb)
    exact hstarts a ha b hb ((of_decide_eq_true hname).trans (of_decide_eq_true hname').symm) hkey

theorem latestCompleted_perm {runs runs' : List WorkflowRun} (h : runs'.Perm runs)
    (hstarts : ∀ a ∈ runs, ∀ b ∈ runs, a.workflowId = b.workflowId → a.createdAt = b.createdAt → a = b)
    (workflowId : Nat) : latest createdBefore (completedRuns runs' workflowId) =
      latest createdBefore (completedRuns runs workflowId) := by
  refine (latest_perm (byKey_lt : ByKey WorkflowRun.createdAt _) byKey_lt ?_ ?_).symm
  · intro run
    simp only [completedRuns, List.mem_filter, h.mem_iff]
  · intro a ha b hb hkey
    obtain ⟨ha, hid⟩ := List.mem_filter.1 ha
    obtain ⟨hb, hid'⟩ := List.mem_filter.1 hb
    rw [Bool.and_eq_true, decide_eq_true_iff] at hid hid'
    exact hstarts a ha b hb (hid.2.trans hid'.2.symm) hkey

/-- A completed run is completed also in the list of all runs. -/
theorem completedRuns_shownRuns (hpages : head.WithinPages) (anyStatus : Bool) (workflowId : Nat) :
    completedRuns (head.shownRuns anyStatus) workflowId = completedRuns head.runs workflowId := by
  unfold Head.shownRuns
  cases anyStatus with
  | true => rw [if_pos rfl, List.take_of_length_le hpages.runs]
  | false =>
      have hlength : (head.runs.filter fun run => run.conclusion.isSome).length ≤ WORKFLOW_RUNS_PER_PAGE :=
        (List.length_filter_le _ _).trans hpages.runs
      rw [if_neg (by decide), List.take_of_length_le hlength, completedRuns, List.filter_filter, completedRuns]
      refine List.filter_congr fun run _ => ?_
      cases run.conclusion.isSome <;> simp

theorem withinPages_of_relists (h : head.Relists head') (hpages : head.WithinPages) : head'.WithinPages :=
  ⟨h.1.length_eq ▸ hpages.checkRuns, h.2.1.length_eq ▸ hpages.statuses, h.2.2.length_eq ▸ hpages.runs⟩

theorem shownCheckRuns_eq (hpages : head.WithinPages) : head.shownCheckRuns = head.checkRuns :=
  List.take_of_length_le hpages.checkRuns

theorem shownStatuses_eq (hpages : head.WithinPages) : head.shownStatuses = head.statuses :=
  List.take_of_length_le hpages.statuses

theorem shownRuns_eq (hpages : head.WithinPages) : head.shownRuns true = head.runs :=
  List.take_of_length_le hpages.runs

/-- A failure is shown, said of all there is: of a check; without check runs, of a status; of a workflow,
    whose latest completed run counts. -/
theorem showsFailing_iff (hpages : head.WithinPages) : head.ShowsFailing requireChecks ↔
    (∃ name, FailsCheck head.checkRuns name) ∨
      (head.checkRuns = [] ∧ ∃ st ∈ head.statuses, st.Fails) ∨
      ∃ workflowId run, latest createdBefore (completedRuns head.runs workflowId) = some run ∧
        isIn WORKFLOW_FAILING_CONCLUSIONS run.conclusion = true := by
  unfold Head.ShowsFailing
  simp only [shownCheckRuns_eq hpages, shownStatuses_eq hpages, completedRuns_shownRuns hpages]

theorem showsLacking_iff (hpages : head.WithinPages) : head.ShowsLacking requireChecks ↔
    (∃ name, LacksCheck head.checkRuns name) ∨
      (head.checkRuns = [] ∧ ∃ st ∈ head.statuses, st.state = .pending) ∨
      (head.checkRuns = [] ∧ head.statuses = [] ∧
        (requireChecks = true ∨ ∃ run ∈ head.runs, run.conclusion = none)) := by
  unfold Head.ShowsLacking
  rw [shownCheckRuns_eq hpages, shownStatuses_eq hpages, shownRuns_eq hpages]

/-- **Where the first pages hold everything, the order does not matter.** -/
theorem shows_of_relists (hpages : head.WithinPages) (hstarts : head.DistinctStarts) (h : head.Relists head') :
    (head'.ShowsFailing requireChecks ↔ head.ShowsFailing requireChecks) ∧
      (head'.ShowsLacking requireChecks ↔ head.ShowsLacking requireChecks) := by
  have hpages' := withinPages_of_relists h hpages
  obtain ⟨hchecks, hstatuses, hruns⟩ := h
  have hnil : head'.checkRuns = [] ↔ head.checkRuns = [] := by
    rw [← List.length_eq_zero_iff, ← List.length_eq_zero_iff, hchecks.length_eq]
  have hnil' : head'.statuses = [] ↔ head.statuses = [] := by
    rw [← List.length_eq_zero_iff, ← List.length_eq_zero_iff, hstatuses.length_eq]
  rw [showsFailing_iff hpages, showsFailing_iff hpages', showsLacking_iff hpages, showsLacking_iff hpages']
  unfold FailsCheck LacksCheck
  simp only [latestVerdict_perm hchecks hstarts.1, latestCompleted_perm hruns hstarts.2, hnil, hnil',
    hchecks.mem_iff, hstatuses.mem_iff, hruns.mem_iff, and_self]

/-- The verdict is what is shown. -/
theorem conclusion_eq_iff : (checkStatus head' requireChecks).conclusion = (checkStatus head requireChecks).conclusion ↔
    (head'.ShowsFailing requireChecks ↔ head.ShowsFailing requireChecks) ∧
      (¬ head.ShowsFailing requireChecks →
        (head'.ShowsLacking requireChecks ↔ head.ShowsLacking requireChecks)) := by
  obtain ⟨hfailure, hsuccess, hsome⟩ := conclusion_eq head requireChecks
  obtain ⟨hfailure', hsuccess', hsome'⟩ := conclusion_eq head' requireChecks
  constructor
  · intro heq
    rw [heq] at hfailure' hsuccess'
    have hfailing := hfailure'.symm.trans hfailure
    refine ⟨hfailing, fun hnone => ?_⟩
    have hlacking := hsuccess'.symm.trans hsuccess
    rw [hfailing, and_congr_right_iff] at hlacking
    exact not_iff_not.1 (hlacking hnone)
  · rintro ⟨hfailing, hlacking⟩
    by_cases hfails : head.ShowsFailing requireChecks
    · rw [hfailure.2 hfails, hfailure'.2 (hfailing.2 hfails)]
    · have hfails' := mt hfailing.1 hfails
      by_cases hlacks : head.ShowsLacking requireChecks
      · -- neither is a failure nor a success
        have hpending : ∀ c : Option CiConclusion, c ≠ none → c ≠ some .failure → c ≠ some .success →
            c = some .pending := by
          intro c hsome hfailure hsuccess
          cases c with
          | none => exact absurd rfl hsome
          | some c =>
              cases c with
              | success => exact absurd rfl hsuccess
              | failure => exact absurd rfl hfailure
              | pending => rfl
        rw [hpending _ hsome (mt hfailure.1 hfails) fun h => (hsuccess.1 h).2 hlacks]
        exact hpending _ hsome' (mt hfailure'.1 hfails') fun h => (hsuccess'.1 h).2 ((hlacking hfails).2 hlacks)
      · rw [hsuccess.2 ⟨hfails, hlacks⟩, hsuccess'.2 ⟨hfails', mt (hlacking hfails).1 hlacks⟩]

/-- The verdict is complete exactly if the pages cover what there is. -/
theorem completeVerdict_iff_covers (head : Head) (requireChecks : Bool) :
    CompleteVerdict head requireChecks ↔ head.Covers requireChecks := by
  obtain ⟨hfailure, hsuccess, -⟩ := conclusion_eq head requireChecks
  constructor
  · intro h
    refine ⟨fun hfails => hfailure.1 (h.failure.2 hfails), fun hshows => h.failure.1 (hfailure.2 hshows), ?_, ?_⟩
    · intro hfails hlacks
      exact (h.success (hsuccess.2 ⟨hfails, hlacks⟩)).2
    · intro hstarts
      exact .inr fun head' hrelists => conclusion_eq_iff.1 (h.order hstarts head' hrelists)
  · intro h
    refine ⟨fun hc => ?_, ⟨fun hc => h.shown (hfailure.1 hc), fun hfails => hfailure.2 (h.failing hfails)⟩, ?_⟩
    · obtain ⟨hfails, hlacks⟩ := hsuccess.1 hc
      exact ⟨mt h.failing hfails, h.lacking hfails hlacks⟩
    · intro hstarts head' hrelists
      refine conclusion_eq_iff.2 ?_
      rcases h.order hstarts with hpages | hsame
      · obtain ⟨hfailing, hlacking⟩ := shows_of_relists hpages hstarts hrelists
        exact ⟨hfailing, fun _ => hlacking⟩
      · exact hsame head' hrelists

/-- A completed run that fails and is the latest has the latest verdict. -/
theorem failsWorkflow_of_latestCompleted {runs : List WorkflowRun} {workflowId : Nat} {run : WorkflowRun}
    (h : latest createdBefore (completedRuns runs workflowId) = some run)
    (hfails : isIn WORKFLOW_FAILING_CONCLUSIONS run.conclusion = true) : FailsWorkflow runs workflowId := by
  have hdefinitive : run.definitive = true := by
    unfold WorkflowRun.definitive
    cases hc : run.conclusion with
    | none =>
        rw [hc] at hfails
        cases hfails
    | some c =>
        rw [hc] at hfails
        revert hfails
        cases c <;> decide
  refine ⟨run, ?_, hfails⟩
  have hfilter := latest_filter (byKey_lt : ByKey WorkflowRun.createdAt _) h hdefinitive
  rw [completedRuns, List.filter_filter] at hfilter
  unfold latestRunVerdict
  rw [← hfilter]
  refine congrArg _ (List.filter_congr fun run' _ => ?_)
  unfold WorkflowRun.definitive
  cases run'.conclusion.isSome <;> simp

/-! ### What the sources hide from each other -/

/-- A failure the verdict goes by: of a check; of a status, if there are no check runs; of a workflow's latest completed
    run. -/
def Head.SeenFailing (head : Head) : Prop :=
  (∃ name, FailsCheck head.checkRuns name) ∨ (head.checkRuns = [] ∧ ∃ st ∈ head.statuses, st.Fails) ∨
    ∃ workflowId run, latest createdBefore (completedRuns head.runs workflowId) = some run ∧
      isIn WORKFLOW_FAILING_CONCLUSIONS run.conclusion = true

/-- A failure the verdict does not go by: of a status beside check runs, or of a workflow whose failing run has later
    ones, all of them cancelled or stale. -/
def Head.HiddenFailing (head : Head) : Prop :=
  (head.checkRuns ≠ [] ∧ ∃ st ∈ head.statuses, st.Fails) ∨ ∃ workflowId, FailsWorkflow head.runs workflowId ∧
    ¬ ∃ run, latest createdBefore (completedRuns head.runs workflowId) = some run ∧
      isIn WORKFLOW_FAILING_CONCLUSIONS run.conclusion = true

/-- What keeps the verdict from success: a check without a verdict; a pending status, if there are no check runs; with
    neither, that checks are required or a workflow run is not over. -/
def Head.SeenLacking (head : Head) (requireChecks : Bool) : Prop :=
  (∃ name, LacksCheck head.checkRuns name) ∨ (head.checkRuns = [] ∧ ∃ st ∈ head.statuses, st.state = .pending) ∨
    (head.checkRuns = [] ∧ head.statuses = [] ∧ (requireChecks = true ∨ ∃ run ∈ head.runs, run.conclusion = none))

/-- A status beside check runs that is pending, or a workflow without a verdict. -/
def Head.HiddenLacking (head : Head) : Prop :=
  (head.checkRuns ≠ [] ∧ ∃ st ∈ head.statuses, st.state = .pending) ∨ ∃ workflowId, LacksWorkflow head.runs workflowId

theorem SeenFailing.failing (h : head.SeenFailing) : head.Failing := by
  rcases h with hcheck | ⟨-, hstatus⟩ | ⟨workflowId, run, hlatest, hrun⟩
  · exact .inl hcheck
  · exact .inr (.inl hstatus)
  · exact .inr (.inr ⟨workflowId, failsWorkflow_of_latestCompleted hlatest hrun⟩)

/-- A failure is seen or hidden. -/
theorem failing_iff : head.Failing ↔ head.SeenFailing ∨ head.HiddenFailing := by
  constructor
  · rintro (hcheck | hstatus | ⟨workflowId, hworkflow⟩)
    · exact .inl (.inl hcheck)
    · by_cases hchecks : head.checkRuns = []
      · exact .inl (.inr (.inl ⟨hchecks, hstatus⟩))
      · exact .inr (.inl ⟨hchecks, hstatus⟩)
    · by_cases hseen : ∃ run, latest createdBefore (completedRuns head.runs workflowId) = some run ∧
          isIn WORKFLOW_FAILING_CONCLUSIONS run.conclusion = true
      · obtain ⟨run, hlatest, hrun⟩ := hseen
        exact .inl (.inr (.inr ⟨workflowId, run, hlatest, hrun⟩))
      · exact .inr (.inr ⟨workflowId, hworkflow, hseen⟩)
  · rintro (hseen | ⟨-, hstatus⟩ | ⟨workflowId, hworkflow, -⟩)
    · exact SeenFailing.failing hseen
    · exact .inr (.inl hstatus)
    · exact .inr (.inr ⟨workflowId, hworkflow⟩)

/-- What has no verdict is seen or hidden. -/
theorem Lacking.seen_or_hidden (h : head.Lacking) (requireChecks : Bool) :
    head.SeenLacking requireChecks ∨ head.HiddenLacking := by
  rcases h with hcheck | hstatus | hworkflow
  · exact .inl (.inl hcheck)
  · by_cases hchecks : head.checkRuns = []
    · exact .inl (.inr (.inl ⟨hchecks, hstatus⟩))
    · exact .inr (.inl ⟨hchecks, hstatus⟩)
  · exact .inr (.inr hworkflow)

theorem HiddenLacking.lacking (h : head.HiddenLacking) : head.Lacking := by
  rcases h with ⟨-, hstatus⟩ | hworkflow
  · exact .inr (.inl hstatus)
  · exact .inr (.inr hworkflow)

/-- **The verdict is complete**, where the first pages hold everything, exactly if no failure is hidden that none is seen
    beside, and nothing without a verdict is hidden that neither a failure nor anything open is seen beside. -/
theorem completeVerdict_iff (head : Head) (requireChecks : Bool) (hpages : head.WithinPages) :
    CompleteVerdict head requireChecks ↔
      (head.HiddenFailing → head.SeenFailing) ∧
      (head.HiddenLacking → head.SeenFailing ∨ head.SeenLacking requireChecks) := by
  have hfailing : head.ShowsFailing requireChecks ↔ head.SeenFailing := showsFailing_iff hpages
  have hlacking : head.ShowsLacking requireChecks ↔ head.SeenLacking requireChecks := showsLacking_iff hpages
  rw [completeVerdict_iff_covers]
  constructor
  · intro h
    refine ⟨fun hhidden => hfailing.1 (h.failing (failing_iff.2 (.inr hhidden))), fun hhidden => ?_⟩
    by_contra hnone
    obtain ⟨hfails, hlacks⟩ := not_or.1 hnone
    exact h.lacking (mt hfailing.1 hfails) (mt hlacking.1 hlacks) (HiddenLacking.lacking hhidden)
  · rintro ⟨hhidden, hopen⟩
    refine ⟨fun hfails => ?_, fun hshows => ?_, fun hfails hlacks hall => ?_, fun _ => .inl hpages⟩
    · rcases failing_iff.1 hfails with hseen | hunseen
      · exact hfailing.2 hseen
      · exact hfailing.2 (hhidden hunseen)
    · exact SeenFailing.failing (hfailing.1 hshows)
    · have hnot : ¬ (head.SeenFailing ∨ head.SeenLacking requireChecks) :=
        not_or.2 ⟨mt hfailing.2 hfails, mt hlacking.2 hlacks⟩
      rcases Lacking.seen_or_hidden hall requireChecks with hseen | hunseen
      · exact hnot (.inr hseen)
      · exact hnot (hopen hunseen)

/-- A check with a green run after a cancelled one, beside a green status, and a workflow that failed. -/
def redWorkflow : Head where
  checkRuns :=
    [{ name := "tests", status := .completed, conclusion := some .cancelled, startedAt := "2026-01-01T00:00:00Z"
       completedAt := "2026-01-01T00:01:00Z" },
     { name := "tests", status := .completed, conclusion := some .success, startedAt := "2026-01-01T00:02:00Z"
       completedAt := "2026-01-01T00:03:00Z" }]
  statuses := [{ context := "license", state := .success }]
  runs := [{ name := "ci", workflowId := 1, conclusion := some .failure, createdAt := "2026-01-01T00:00:00Z" }]
  contexts := by decide

theorem completeVerdict_iff_red :
    (checkStatus redWorkflow false).conclusion = some .failure ∧ CompleteVerdict redWorkflow false := by
  have hlatest : latest createdBefore (completedRuns redWorkflow.runs 1) = some
      { name := "ci", workflowId := 1, conclusion := some .failure, createdAt := "2026-01-01T00:00:00Z" } := by
    decide +kernel
  have hseen : redWorkflow.SeenFailing := .inr (.inr ⟨1, _, hlatest, by decide⟩)
  have hcomplete := (completeVerdict_iff redWorkflow false ⟨by decide, by decide, by decide⟩).2
    ⟨fun _ => hseen, fun _ => .inl hseen⟩
  exact ⟨hcomplete.failure.2 (SeenFailing.failing hseen), hcomplete⟩

/-- A green check run beside a failing status, and a failed workflow run before one that was cancelled. -/
def hiddenFailures : Head where
  checkRuns :=
    [{ name := "tests", status := .completed, conclusion := some .success, startedAt := "2026-01-01T00:00:00Z"
       completedAt := "2026-01-01T00:01:00Z" }]
  statuses := [{ context := "license", state := .failure }]
  runs :=
    [{ name := "ci", workflowId := 1, conclusion := some .cancelled, createdAt := "2026-01-01T00:02:00Z" },
     { name := "ci", workflowId := 1, conclusion := some .failure, createdAt := "2026-01-01T00:00:00Z" }]
  contexts := by decide

/-- The verdict on it is success. -/
theorem checkStatus_hides : (checkStatus hiddenFailures false).conclusion = some .success ∧
    ¬ CompleteVerdict hiddenFailures false := by
  have hsuccess : (checkStatus hiddenFailures false).conclusion = some .success := by decide +kernel
  refine ⟨hsuccess, fun hcomplete => (hcomplete.success hsuccess).1 ?_⟩
  exact .inr (.inl ⟨{ context := "license", state := .failure }, List.mem_singleton_self _, .inl rfl⟩)

end Forge
end RobotsixMill
