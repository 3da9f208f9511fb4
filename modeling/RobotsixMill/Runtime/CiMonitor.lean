import RobotsixMill.Lib.Runs
import RobotsixMill.Lib.TimeWindow
import RobotsixMill.Runtime.CiLogExcerpt
import RobotsixMill.Core.Models
import Mathlib.Algebra.Order.Group.Int

/-!
# `Runtime.CiMonitor` — the poll that files CI failures

A poll looks at the latest run of every workflow on the target branch. It files a draft or a comment for a failing
run it has not handled, and dispatches a cancelled one that never started again. What it remembers of both is
loaded and pruned when it starts, and saved when it ends; a poll that raises in between saves nothing. The file is
emptied before it is written, and one that cannot be read or parsed counts as empty. Times are seconds since the
epoch.

- `scanItem` — one run;
- `runPoll` — one poll.
-/

namespace RobotsixMill
namespace Runtime
namespace CiMonitor
open RobotsixMill.Core Lib

def CI_LOG_FETCH_ATTEMPTS : Nat := 3
def CI_LOG_FETCH_MAX_DEFERRALS : Nat := 3
def REDISPATCH_MIN_INTERVAL_SECONDS : Int := 6 * 3600
def REDISPATCH_MAX_ATTEMPTS : Nat := 3

/-! ## Runs -/

inductive Conclusion
  | failure | startupFailure | cancelled | other
deriving DecidableEq, Repr

def CI_FAILING_CONCLUSIONS : List Conclusion := [.failure, .startupFailure]

/-- A completed workflow run, as the forge lists it. -/
structure WorkflowRun where
  workflowId : Option Nat
  id : Nat
  conclusion : Conclusion
  headSha : String
  headBranch : String := ""
  name : String := "unknown"
  path : String := ""
  htmlUrl : String := ""
  createdAt : String := ""
deriving DecidableEq, Repr

/-- `<workflow>:<sha>`, for the run of a tag `<workflow>:<sha>:<tag>`. -/
structure Key where
  wf : Nat
  sha : String
  tag : Option String
deriving DecidableEq, Repr

structure ScanItem where
  wf : Nat
  run : WorkflowRun
  ref : String
  key : Key
deriving DecidableEq, Repr

/-- The first run of each workflow, of those with `ok`; `seenWf` are the workflows there was one of. -/
def firstRuns (ok : WorkflowRun → Bool) (seenWf : List Nat) : List WorkflowRun → List (Nat × WorkflowRun)
  | [] => []
  | run :: runs =>
    match run.workflowId with
    | none => firstRuns ok seenWf runs
    | some wf =>
      if !ok run || decide (wf ∈ seenWf) then firstRuns ok seenWf runs
      else (wf, run) :: firstRuns ok (wf :: seenWf) runs

/-- `_latest_runs_by_workflow`. -/
def latestRunsByWorkflow (runs : List WorkflowRun) : List (Nat × WorkflowRun) := firstRuns (fun _ => true) [] runs

/-- `_latest_tag_runs`. -/
def latestTagRuns (runs : List WorkflowRun) : List ScanItem :=
  (firstRuns (fun run => decide (run.headBranch ≠ "")) [] runs).map fun p =>
    ⟨p.1, p.2, p.2.headBranch, ⟨p.1, p.2.headSha, some p.2.headBranch⟩⟩

/-- The scan items of the target branch. -/
def branchItems (target : String) (runs : List WorkflowRun) : List ScanItem :=
  (latestRunsByWorkflow runs).map fun p => ⟨p.1, p.2, target, ⟨p.1, p.2.headSha, none⟩⟩

/-! ## What the monitor remembers -/

/-- `ci_monitor_state.json`: times of handled runs, and counts with the time of the last one. -/
structure CiState where
  seen : Key → Option Int
  deferred : Key → Option (Nat × Int)
  redispatch : Key → Option (Nat × Int)

def CiState.empty : CiState := ⟨fun _ => none, fun _ => none, fun _ => none⟩

/-- The entry is older than the retention time. -/
def aged (ttl now : Int) (ts : Int) : Bool := decide (ttl < now - ts)

/-- `_prune_ci_state`. -/
def CiState.prune (ttl now : Int) (s : CiState) : CiState :=
  let seen := fun k => (s.seen k).filter fun ts => !aged ttl now ts
  let keep (records : Key → Option (Nat × Int)) : Key → Option (Nat × Int) := fun k =>
    if (seen k).isSome then none else (records k).filter fun r => !aged ttl now r.2
  ⟨seen, keep s.deferred, keep s.redispatch⟩

/-- `seen[key] = now`. -/
def CiState.mark (s : CiState) (key : Key) (now : Int) : CiState :=
  { s with seen := Function.update s.seen key (some now) }

/-- `deferred.pop(key, None)`. -/
def CiState.popDeferred (s : CiState) (key : Key) : CiState :=
  { s with deferred := Function.update s.deferred key none }

/-! ## What a poll does -/

inductive Report
  | draft (title body : String)
  | comment (ticket : TicketId) (text : String)
deriving DecidableEq, Repr

inductive Effect
  /-- `dispatch_workflow` was called. -/
  | dispatched (key : Key)
  | reported (key : Key) (runId : Nat) (report : Report)
deriving DecidableEq, Repr

/-- One attempt to fetch the logs. -/
inductive LogFetch
  | logs (text : List Char)
  | networkDown
  | failed (error : String)

/-- What forge and service answer when they are asked about a run. -/
structure Answers where
  /-- Has the run started a job? `none` when the listing raises. -/
  jobs : Option Bool
  /-- `has_online_runner`; `none` when it raises. -/
  online : Option Bool
  /-- Does `dispatch_workflow` raise? -/
  dispatchRaises : Bool
  /-- `workflow_path_deleted` and `_is_account_blocked_run`; neither raises. -/
  pathDeleted : Bool
  accountBlocked : Bool
  /-- The open ticket of the workflow; `none` when the search raises. -/
  canonical : Option (Option TicketId)
  addCommentRaises : Bool
  /-- The attempts to fetch the logs, escape sequences removed. -/
  fetch : Nat → LogFetch
  /-- `_ci_draft_fingerprint` of the body. -/
  fingerprint : String
  /-- `find_prior_matching_ticket`; `none` when it raises. -/
  prior : Option (Option TicketId)
  createRaises : Bool

/-- What one run comes to. -/
structure ScanResult where
  state : CiState
  effects : List Effect
  raised : Bool

/-- What `_maybe_redispatch_cancelled` decides. -/
inductive Redispatch
  | handled | waits | dispatches | raises
deriving DecidableEq, Repr

/-- `_maybe_redispatch_cancelled` up to the dispatch. -/
def redispatchVerdict (a : Answers) (record : Option (Nat × Int)) (now : Int) : Redispatch :=
  if record.any fun r => decide (REDISPATCH_MAX_ATTEMPTS ≤ r.1) then .handled
  else if record.any fun r => decide (now - r.2 < REDISPATCH_MIN_INTERVAL_SECONDS) then .waits
  else
    match a.jobs with
    | none => .handled
    | some true => .handled
    | some false =>
      match a.online with
      | none => .raises
      | some false => .waits
      | some true => .dispatches

/-- A cancelled run that is not seen. -/
def redispatchCancelled (a : Answers) (key : Key) (now : Int) (s : CiState) : ScanResult :=
  match redispatchVerdict a (s.redispatch key) now with
  | .handled => ⟨s.mark key now, [], false⟩
  | .waits => ⟨s, [], false⟩
  | .raises => ⟨s, [], true⟩
  | .dispatches =>
    if a.dispatchRaises then ⟨s, [.dispatched key], true⟩
    else
      let n := ((s.redispatch key).map Prod.fst).getD 0 + 1
      ⟨{ s with redispatch := Function.update s.redispatch key (some (n, now)) }, [.dispatched key], false⟩

/-- What the attempts to fetch the logs come to: the first answer that is no failure, or the last failure. -/
def fetchAttempts : List LogFetch → String → LogFetch
  | [], error => .failed error
  | .logs text :: _, _ => .logs text
  | .networkDown :: _, _ => .networkDown
  | .failed error :: rest, _ => fetchAttempts rest error

/-- What `_fetch_run_logs_with_deferral` comes to. -/
inductive Fetched
  | networkDown
  | deferred
  /-- The draft is filed, with the logs or with the error. -/
  | proceeds (logs : List Char) (error : String)

/-- `_fetch_run_logs_with_deferral`, with the deferrals it leaves. -/
def fetchRunLogs (a : Answers) (key : Key) (now : Int) (s : CiState) : Fetched × CiState :=
  match fetchAttempts ((List.range CI_LOG_FETCH_ATTEMPTS).map a.fetch) "" with
  | .networkDown => (.networkDown, s)
  | .logs text => (.proceeds text "", s)
  | .failed error =>
    let count := ((s.deferred key).map Prod.fst).getD 0 + 1
    if count ≤ CI_LOG_FETCH_MAX_DEFERRALS then
      (.deferred, { s with deferred := Function.update s.deferred key (some (count, now)) })
    else (.proceeds [] error, s.popDeferred key)

/-! ### Texts -/

def recurringText (i : ScanItem) : String :=
  s!"Run [{i.run.id}]({i.run.htmlUrl}) also failed at commit `{i.run.headSha}` on " ++
    s!"{i.run.createdAt} ({i.run.name} on {i.ref})."

def STARTUP_FAILURE_NOTE : String :=
  "⚠️ **Conclusion: `startup_failure`** — GitHub could not " ++
  "start this run, so it has no jobs and no logs. Do NOT " ++
  "look for a failing step. The cause is in the workflow " ++
  "file at the commit above (or in a reusable workflow it " ++
  "calls): a YAML/parse error, an invalid `uses:` ref, an " ++
  "input the called workflow does not declare, or a " ++
  "`uses:` job whose caller-level `permissions:` cannot " ++
  "grant what the reusable workflow declares (fix: " ++
  "`permissions: \x7b\x7d` at the top and the required scopes on " ++
  "the job). Diff the caller against a green sibling repo."

def fetchErrorNote (error : String) : String :=
  "⚠️ **Could not fetch the run logs** after " ++
  s!"{CI_LOG_FETCH_ATTEMPTS} attempts across " ++
  s!"{CI_LOG_FETCH_MAX_DEFERRALS} poll cycles " ++
  s!"(last error: `{error}`). " ++
  "This is a genuine workflow **failure** on the target " ++
  "branch — open the run link above for the error detail. " ++
  "Do NOT treat the missing logs as a connectivity/" ++
  "operational problem."

/-- The body of a draft. -/
def draftBody (target : String) (i : ScanItem) (logs : List Char) (error : String) : String :=
  let head :=
    [s!"**Workflow:** {i.run.name}", s!"**Path:** {i.run.path}", s!"**Branch:** {i.ref}"] ++
    (if i.ref ≠ target then [s!"**Tag:** {i.ref}"] else []) ++
    [s!"**Run:** [{i.run.id}]({i.run.htmlUrl})", s!"**Commit:** `{i.run.headSha}`",
      s!"**Created:** {i.run.createdAt}", ""]
  let tail :=
    if i.run.conclusion = .startupFailure then [STARTUP_FAILURE_NOTE]
    else if logs ≠ [] then CiLog.ciLogBodyParts logs i.run.name
    else if error ≠ "" then [fetchErrorNote error]
    else []
  "\n".intercalate (head ++ tail)

/-! ### One run -/

/-- A comment on the ticket that has the failure; the run counts as handled even if the comment fails. -/
def consolidate (a : Answers) (i : ScanItem) (now : Int) (ticket : TicketId) (text : String) (s : CiState) :
    ScanResult :=
  let effects := if a.addCommentRaises then [] else [.reported i.key i.run.id (.comment ticket text)]
  ⟨s.mark i.key now, effects, false⟩

/-- The draft of a new failure, unless an earlier ticket has its content. A draft that cannot be created is tried
    again by the next poll. The stale-CI gate behind it never raises, and is left out. -/
def fileDraft (target : String) (a : Answers) (i : ScanItem) (now : Int) (logs : List Char) (error : String)
    (s : CiState) : ScanResult :=
  match a.prior with
  | none => ⟨s, [], true⟩
  | some (some prior) =>
    consolidate a i now prior (recurringText i ++ s!"\n\n_Fingerprint: `{a.fingerprint}`_") (s.popDeferred i.key)
  | some none =>
    if a.createRaises then ⟨s, [], false⟩
    else
      let report := .draft s!"CI failure: {i.run.name} on {i.ref}" (draftBody target i logs error)
      ⟨(s.popDeferred i.key).mark i.key now, [.reported i.key i.run.id report], false⟩

/-- A failing run that no open ticket has. -/
def fileFailure (target : String) (a : Answers) (i : ScanItem) (now : Int) (s : CiState) : ScanResult :=
  if i.run.conclusion = .startupFailure then fileDraft target a i now [] "" s
  else
    match fetchRunLogs a i.key now s with
    | (.networkDown, s') => ⟨s', [], false⟩
    | (.deferred, s') => ⟨s', [], false⟩
    | (.proceeds logs error, s') => fileDraft target a i now logs error s'

/-- One turn of the scan. -/
def scanItem (target : String) (a : Answers) (i : ScanItem) (now : Int) (s : CiState) : ScanResult :=
  if i.run.conclusion = .cancelled then
    if i.ref ≠ target ∨ (s.seen i.key).isSome then ⟨s, [], false⟩
    else redispatchCancelled a i.key now s
  else if i.run.conclusion ∉ CI_FAILING_CONCLUSIONS then ⟨s, [], false⟩
  else if (s.seen i.key).isSome then ⟨s, [], false⟩
  else if i.ref = target ∧ a.pathDeleted = true then ⟨s.mark i.key now, [], false⟩
  else if i.run.conclusion ≠ .startupFailure ∧ a.accountBlocked = true then ⟨s.mark i.key now, [], false⟩
  else
    match a.canonical with
    | none => ⟨s, [], true⟩
    | some (some canonical) => consolidate a i now canonical (recurringText i) s
    | some none => fileFailure target a i now s

/-- The scan, up to the first run that raises. -/
def scan (target : String) (answers : ScanItem → Answers) (now : Int) : List ScanItem → CiState → ScanResult
  | [], s => ⟨s, [], false⟩
  | i :: is, s =>
    let first := scanItem target (answers i) i now s
    if first.raised then first
    else
      let rest := scan target answers now is first.state
      ⟨rest.state, first.effects ++ rest.effects, rest.raised⟩

/-! ### One poll -/

/-- The listing of the runs on the target branch. -/
inductive Listing
  | networkDown
  | raised
  | runs (runs : List WorkflowRun)

/-- The write of the state file: `open` fails and the old file stays, or the write breaks off behind it. No part of
    the text is one that `json.loads` takes. -/
inductive Save
  | written | refused | cut
deriving DecidableEq, Repr

/-- A poll, as far as it is decided outside. -/
structure Poll where
  now : Int
  /-- `read_text` raises an `OSError`. -/
  unreadable : Bool
  listing : Listing
  /-- `service.list`, or what the poll sets up before it, raises. -/
  setupRaises : Bool
  /-- No runs when the listing fails. -/
  tagRuns : List WorkflowRun
  answers : ScanItem → Answers
  save : Save

/-- The repository, as the monitor is set up for it. -/
structure MonitorConfig where
  target : String
  ttlSeconds : Int := 30 * 86400
  scanTags : Bool := false

structure PollResult where
  saved : CiState
  effects : List Effect
  /-- The poll got to its end. -/
  completed : Bool
  raised : Bool

/-- The items a poll looks at. -/
def Poll.items (cfg : MonitorConfig) (p : Poll) (runs : List WorkflowRun) : List ScanItem :=
  branchItems cfg.target runs ++ if cfg.scanTags then latestTagRuns p.tagRuns else []

/-- `_load_ci_state`. -/
def Poll.load (p : Poll) (saved : CiState) : CiState := if p.unreadable then .empty else saved

/-- `_poll_one_repo_ci`. -/
def runPoll (cfg : MonitorConfig) (saved : CiState) (p : Poll) : PollResult :=
  match p.listing with
  | .networkDown => ⟨saved, [], false, false⟩
  | .raised => ⟨saved, [], false, true⟩
  | .runs runs =>
    if p.setupRaises then ⟨saved, [], false, true⟩
    else
      let scanned := scan cfg.target p.answers p.now (p.items cfg runs) ((p.load saved).prune cfg.ttlSeconds p.now)
      if scanned.raised then ⟨saved, scanned.effects, false, true⟩
      else
        match p.save with
        | .written => ⟨scanned.state, scanned.effects, true, false⟩
        | .refused => ⟨saved, scanned.effects, false, true⟩
        | .cut => ⟨.empty, scanned.effects, false, true⟩

end CiMonitor
end Runtime
end RobotsixMill
