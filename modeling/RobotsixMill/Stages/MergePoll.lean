import RobotsixMill.Core.EventHash
import RobotsixMill.Core.Settings
import RobotsixMill.Core.Workspace
import RobotsixMill.Service.Session
import RobotsixMill.Stages.Base

/-!
# `Stages.MergePoll` — a poll of the merge stage

`_poll_implement_complete`: what the merge stage does with a ticket in `implement_complete`, for one pull
request. It asks the forge for the pull request and for its checks, and sends the ticket to the rebase
agent, to the ci-fix agent, on to the merge, or leaves it for the next poll. Everything the forge and git
answer during a poll is in `PollContext`; what a poll writes besides the counters it reads (comments on
the ticket, the refresh of the branch, log lines) is left out.

- `pollImplementComplete` — the poll, with its outcome and the artifacts it leaves;
- `pollImplementComplete_effect` — the six things a poll can do to the counters of the merge loop;
- `nextState_of_rebaseAnswer` — the answers on which it sends the ticket to the rebase agent.
-/

namespace RobotsixMill
namespace Stages
open RobotsixMill.Core Lib Service

/-! ## What the forge answers -/

/-- An answer of the forge. -/
inductive Answer (α : Type)
  | raised
  | nothing
  | found (a : α)
deriving DecidableEq, Repr

/-- `pr_status`. -/
structure PrStatus where
  state : String := "open"
  merged : Bool := false
  mergeable : Option Bool := none
  mergeableState : Option String := none
  sha : String := ""
  url : String := ""
deriving DecidableEq, Repr

/-- A failing check; `annotations` are their messages. -/
structure FailingCheck where
  name : String := ""
  summary : String := ""
  text : String := ""
  annotations : List String := []
deriving DecidableEq, Repr

/-- `check_status`. -/
structure CiStatus where
  conclusion : Option String := none
  failing : List FailingCheck := []
  pending : List String := []
  jobs : List String := []
  sha : String := ""
deriving DecidableEq, Repr

/-- `merge_pr`. -/
inductive MergeResult
  | merged
  | rejected (reason : String) (retryable : Bool)
deriving DecidableEq, Repr

/-- `_approve_action_required_runs`: nothing to approve, approved, or refused for the runs of these links. -/
inductive RunApproval
  | nothing
  | approved
  | refused (runs : List String)
deriving DecidableEq, Repr

/-- What one poll finds around it. -/
structure PollContext where
  /-- `rate_limit.should_skip`. -/
  rateLimited : Bool := false
  prStatus : Answer PrStatus := .nothing
  /-- `_extract_tracked_pr_url` of the description. -/
  trackedUrl : Option String := none
  /-- `pr_status_by_url`; an error counts as no answer. -/
  trackedPr : Option PrStatus := none
  /-- `_closed_pr_branch_is_empty`. -/
  closedBranchEmpty : Bool := false
  /-- `load_repo_skip_ci`. -/
  skipCi : Bool := false
  checkStatus : Answer CiStatus := .nothing
  /-- `_main_branch_ci_debt`, sorted. -/
  mainBranchDebt : List String := []
  /-- `is_transient_ci_failure`. -/
  isTransientCiFailure : String → Bool := fun _ => false
  /-- `_auto_merge_eligible`: the reason when the ticket is not. -/
  ineligible : Option String := none
  mergePr : MergeResult := .merged
  /-- `_verify_merge_ancestor`. -/
  mergeConfirmed : Bool := true
  targetBranch : String := "main"
  runApproval : RunApproval := .nothing
  /-- `_within_rebase_cooldown`. -/
  withinRebaseCooldown : Bool := false
  closePr : Bool := true
  reopenPr : Bool := true
  /-- What `_unsatisfiable_required_contexts` finds, worded. -/
  unpromotableDetail : String := ""

/-! ## Helpers -/

/-- `ticket.branch`, or the branch named after the ticket. -/
def branchOf (s : Settings) (tid : TicketId) (t : Ticket) : String :=
  match t.branch with
  | some b => if b = "" then s.branchPrefix ++ tid else b
  | none => s.branchPrefix ++ tid

/-- The link of the pull request, or else its branch. -/
def prLabel (pr : PrStatus) (branch : String) : String := if pr.url = "" then branch else pr.url

/-- `str(bool)`. -/
def boolStr (b : Bool) : String := if b then "True" else "False"

/-- `_ci_truly_green`. -/
def ciTrulyGreen (conclusion : Option String) (pr : PrStatus) : Bool :=
  decide (conclusion = some "success") &&
    decide (pr.mergeableState ∈ [none, some "clean", some "unstable"])

/-- `_build_failing_summary`. -/
def buildFailingSummary (failing : List FailingCheck) : String :=
  "\n".intercalate (failing.flatMap fun check =>
    ([check.name, check.summary, check.text] ++ check.annotations).map strip |>.filter (· ≠ ""))

/-- `_MERGE_MAX_RETRIES`. -/
def MERGE_MAX_RETRIES : Int := 5

/-- `_merge_rejection_outcome`. -/
def mergeRejectionOutcome (reason : String) (retryable : Bool) (sameState : State) (a : Artifacts) :
    Artifacts × StageOutcome :=
  if retryable = false then (a, .block s!"forge merge rejected: {reason}")
  else
    let attempts := readCounter a.mergeRetryAttemptsTxt + 1
    let a := { a with mergeRetryAttemptsTxt := some (toString attempts) }
    if MERGE_MAX_RETRIES ≤ attempts then
      (a, .block s!"forge merge rejected {attempts}x (still retryable, giving up): {reason}")
    else
      (a, { nextState := sameState, note := some s!"merge not ready yet (attempt {attempts}): {reason}" })

/-- `block_reason.encode(TARGET_BRANCH_RED, workflows=...)`. -/
def encodeTargetBranchRed (workflows : List String) : String :=
  String.ofList ("\x7b\"kind\": \"target_branch_red\", \"workflows\": [".toList ++
    (", ".toList).intercalate (workflows.map fun w => jsonString w.toList) ++ "]\x7d".toList)

section Poll

variable (s : Settings) (tid : TicketId) (t : Ticket) (ctx : PollContext)

/-! ## The pull request -/

/-- `_check_pr_baseline`: the open pull request, or the outcome that ends the poll. -/
def checkPrBaseline (branch : String) (sameState : State) (a : Artifacts) :
    Artifacts × Except StageOutcome PrStatus :=
  match ctx.prStatus with
  | .raised => (a, .error { nextState := sameState })
  | .nothing =>
    let tracked := if t.source = SourceKind.ORPHANED_PR_CHECK then
        ctx.trackedUrl.bind fun url => ctx.trackedPr.map fun pr => (url, pr)
      else none
    match tracked with
    | some (url, pr) =>
      if pr.merged then
        (a, .error (.block s!"Tracked PR merged ({url}) — reconcile pass will close"))
      else if pr.state = "closed" then
        (a, .error (.block s!"Tracked PR closed ({url}) — reconcile pass will close"))
      else (a, .error { nextState := sameState })
    | none =>
      let maxPolls := s.mergePrMissingMaxPolls
      if maxPolls = 0 then (a, .error { nextState := sameState })
      else
        let count := readCounter a.prMissingPollsTxt + 1
        let a := { a with prMissingPollsTxt := some (toString count) }
        if (maxPolls : Int) ≤ count then
          (a, .error (.block (s!"no PR found for branch {Service.reprStr branch} for {maxPolls} " ++
            "consecutive merge polls — the PR may live in a repo " ++
            "other than this board's repo (check the recorded PR " ++
            "URL on the ticket) or the branch was never pushed; " ++
            "manual intervention required")))
        else (a, .error { nextState := sameState })
  | .found pr =>
    let a := { a with prMissingPollsTxt := some "0" }
    if pr.merged then
      ({ a with mergeMd := some s!"merged: {pr.url}\n" },
        .error { nextState := .done, note := some s!"merged: {pr.url}" })
    else if pr.state = "closed" then
      if ctx.closedBranchEmpty then
        ({ a with mergeMd := some s!"closed-empty: {pr.url}\n" },
          .error { nextState := .done
                   note := some ("already satisfied — PR closed with an empty branch (no " ++
                    s!"changes to merge): {pr.url}") })
      else (a, .error (.block s!"PR closed without merge — resumable: {pr.url}"))
    else (a, .ok pr)

/-! ## Failing checks -/

/-- Does sending the ticket to `routing_to` alternate with where it was sent last? -/
def isAlternation (routingTo lastStage : String) : Bool :=
  decide (routingTo = "rebase" ∧ lastStage = "ci_fix") ||
    decide (routingTo = "ci_fix" ∧ lastStage = "rebase")

/-- The stored last stage; without one, the empty text. -/
def lastAutoFixStage (a : Artifacts) : String := strip (a.lastAutoFixStageTxt.getD "")

/-- `_check_ping_pong`. -/
def checkPingPong (routingTo : String) (a : Artifacts) : Artifacts × Option StageOutcome :=
  if s.pingPongMaxAlternations = 0 then (a, none)
  else if isAlternation routingTo (lastAutoFixStage a) then
    let count := readCounter a.pingPongCountTxt + 1
    if (s.pingPongMaxAlternations : Int) ≤ count then
      ({ a with lastAutoFixStageTxt := some "0", pingPongCountTxt := some "0" },
        some (.block (s!"rebase↔ci_fix ping-pong detected: {count} " ++
          "alternation(s) with no CI green — manual intervention " ++
          s!"required (ticket {tid}, ceiling is " ++
          s!"{s.pingPongMaxAlternations}). " ++
          "Resume-blocked to retry from human_mr_approval.")))
    else
      ({ a with lastAutoFixStageTxt := some routingTo, pingPongCountTxt := some (toString count) }, none)
  else ({ a with lastAutoFixStageTxt := some routingTo }, none)

/-- The workflows that fail on the target branch too, for a ticket that is not there to repair them. -/
def targetBranchDebt : List String :=
  if s.autoMergeMainDebtDetectionEnabled ∧
      t.source ∉ [SourceKind.CI_FIX_DEPENDENCY, SourceKind.CI] then ctx.mainBranchDebt
  else []

/-- There is a summary of what failed, and it reads as an infrastructure failure. -/
def allTransient (status : CiStatus) : Bool :=
  decide (buildFailingSummary status.failing ≠ "") &&
    ctx.isTransientCiFailure (buildFailingSummary status.failing)

/-- `_handle_ci_failure_route`. -/
def handleCiFailureRoute (status : CiStatus) (a : Artifacts) : Artifacts × StageOutcome :=
  let debt := targetBranchDebt s t ctx
  if debt ≠ [] then
    let names := ", ".intercalate debt
    (a, { nextState := .blocked
          note := some ("CI blocked by pre-existing target-branch debt: workflow(s) " ++
            s!"{names} are failing on the merge target too and were not " ++
            "introduced by this PR. Operator must stabilise the target " ++
            "branch's CI before this can merge.")
          blockReason := some (encodeTargetBranchRed debt) })
  else if allTransient ctx status then
    (a, { nextState := .rebasing
          note := some "Transient CI failure detected — rebasing for a fresh run" })
  else
    let cycles := readCounter a.autoFixCyclesTxt
    if 0 < s.autoFixMaxCycles ∧ (s.autoFixMaxCycles : Int) ≤ cycles then
      -- the source asks a second time here; the answer was no
      if allTransient ctx status then
        (a, { nextState := .rebasing
              note := some ("Auto-fix ceiling reached but current CI failure is " ++
                "transient — rebasing for a fresh run") })
      else
        ({ a with autoFixCyclesTxt := some "0" },
          .block ("auto-fix exhausted cross-stage ceiling of " ++
            s!"{s.autoFixMaxCycles} cycle(s) without CI turning " ++
            "green — manual intervention required (ticket " ++
            s!"{tid}, counter was {cycles}). " ++
            "Resume-blocked to retry from human_mr_approval."))
    else
      match checkPingPong s tid "ci_fix" { a with autoFixCyclesTxt := some (toString (cycles + 1)) } with
      | (a, some outcome) => (a, outcome)
      | (a, none) => (a, { nextState := .fixingCi })

/-! ## Green checks -/

/-- `_merge_or_promote_when_green`. -/
def mergeOrPromoteWhenGreen (pr : PrStatus) (a : Artifacts) : Artifacts × StageOutcome :=
  let a := { a with
    ciFixCyclesTxt := some "0", autoFixCyclesTxt := some "0", pingPongCountTxt := some "0"
    lastAutoFixStageTxt := none }
  match ctx.ineligible with
  | some reason =>
    (a, { nextState := .humanMrApproval, note := some s!"CI green and mergeable — {reason}" })
  | none =>
    match ctx.mergePr with
    | .merged =>
      if ctx.mergeConfirmed then
        ({ a with mergeMd := some s!"merged: {pr.url}\n" },
          { nextState := .done, note := some s!"merged: {pr.url}" })
      else
        (a, { nextState := .implementComplete
              note := some ("merge reported success but commit not confirmed on " ++
                s!"origin/{ctx.targetBranch}: {pr.url}") })
    | .rejected reason retryable => mergeRejectionOutcome reason retryable .implementComplete a

/-- The head the forge names. -/
def headSha (pr : PrStatus) (status : CiStatus) : String :=
  if status.sha = "" then pr.sha else status.sha

/-- `_check_green_unpromotable` once the checks are green, none outstanding and none reported: the pull
    request event never fired. -/
def checkEmptyRollup (pr : PrStatus) (branch : String) (status : CiStatus) (a : Artifacts) :
    Artifacts × Option StageOutcome :=
  let head := headSha pr status
  match (if head = "" then RunApproval.nothing else ctx.runApproval) with
  | .approved =>
    (a, some { nextState := .implementComplete
               note := some s!"Approved action_required workflow run(s) on {head}; re-polling." })
  | .refused runs =>
    let urls := ", ".intercalate runs
    (a, some (.block (s!"CI is green but {prLabel pr branch} cannot " ++
      s!"be merged: {runs.length} workflow run(s) on " ++
      s!"{head} are parked with conclusion='action_required' " ++
      "(workflow approval required) and the approval was " ++
      s!"refused (403). Run URL(s): {urls}. Approve the " ++
      "workflow run(s) (or have auto-format push with the " ++
      "App token), then resume.")))
  | .nothing =>
    let polls := readCounter a.emptyRollupPollsTxt + 1
    let counted := { a with emptyRollupPollsTxt := some (toString polls) }
    if polls < s.emptyRollupMaxPolls then (counted, none)
    else if ctx.withinRebaseCooldown then (counted, none)
    else
      let reset := { a with emptyRollupPollsTxt := some "0" }
      if a.emptyRollupSelfHealDone then
        (reset, some (.block (s!"CI is green but {prLabel pr branch} cannot " ++
          "be merged: the PR reports zero check runs and " ++
          "mergeable_state='blocked' — the pull_request event " ++
          "likely never fired. A close/reopen self-heal was " ++
          "already attempted without success. Manually close " ++
          "and reopen the PR (or push an empty commit) to " ++
          "trigger CI, then resume.")))
      else
        let healed := { reset with emptyRollupSelfHealDone := true }
        let closed := ctx.closePr
        let reopened := closed && ctx.reopenPr
        if reopened then
          (healed, some { nextState := .implementComplete
                          note := some ("Empty CI rollup detected — closed and reopened PR " ++
                            "to trigger pull_request event; re-polling.") })
        else
          let stranded := if closed then
              " The PR may have been left closed by the partial " ++
                "close/reopen — reopen it manually before resuming."
            else ""
          (healed, some (.block (s!"CI is green but {prLabel pr branch} cannot be " ++
            "merged: the PR reports zero check runs and " ++
            "mergeable_state='blocked' — the pull_request event " ++
            "likely never fired. A close/reopen self-heal was " ++
            s!"attempted (closed={boolStr closed}, reopened={boolStr reopened}) but " ++
            s!"did not complete.{stranded} Close and reopen the PR " ++
            "manually (or push an empty commit) to trigger CI, " ++
            "then resume.")))

/-- `_check_green_unpromotable`. -/
def checkGreenUnpromotable (pr : PrStatus) (branch : String) (status : CiStatus) (a : Artifacts) :
    Artifacts × Option StageOutcome :=
  if status.conclusion ≠ some "success" ∨ status.pending ≠ [] then
    ({ a with greenUnpromotablePollsTxt := some "0", emptyRollupPollsTxt := some "0" }, none)
  else if status.jobs = [] ∧ pr.mergeableState = some "blocked" ∧ 0 < s.emptyRollupMaxPolls then
    checkEmptyRollup s ctx pr branch status a
  else if s.greenUnpromotableMaxPolls = 0 then (a, none)
  else
    let polls := readCounter a.greenUnpromotablePollsTxt + 1
    if polls < s.greenUnpromotableMaxPolls then
      ({ a with greenUnpromotablePollsTxt := some (toString polls) }, none)
    else
      ({ a with greenUnpromotablePollsTxt := some "0" },
        some (.block (s!"CI is green but {prLabel pr branch} cannot be merged: " ++
          s!"{ctx.unpromotableDetail} Resume-blocked to retry from implement_complete.")))

/-! ## The poll -/

/-- `_poll_implement_complete`. -/
def pollImplementComplete (a : Artifacts) : Artifacts × StageOutcome :=
  if ctx.rateLimited then (a, .repoll)
  else
    let branch := branchOf s tid t
    match checkPrBaseline s t ctx branch .implementComplete a with
    | (a, .error outcome) => (a, outcome)
    | (a, .ok pr) =>
      if pr.mergeable = some false then
        (a, { nextState := .rebasing
              note := some "PR is conflicting; rebase agent will run next poll" })
      else
        -- a pull request that is not conflicting counts as progress of the rebases
        let a := { a with rebaseAttemptsTxt := some "0" }
        if ctx.skipCi then
          (a, { nextState := .humanMrApproval
                note := some ("CI gate skipped for this repo (skip_ci); PR mergeable — " ++
                  "awaiting human merge approval") })
        else
          match ctx.checkStatus with
          | .raised | .nothing => (a, .repoll)
          | .found status =>
            if status.conclusion = some "failure" then handleCiFailureRoute s tid t ctx status a
            else if ciTrulyGreen status.conclusion pr then mergeOrPromoteWhenGreen ctx pr a
            else if status.conclusion = some "success" ∧ pr.mergeableState = some "behind" then
              (a, { nextState := .rebasing
                    note := some ("CI green but branch is behind the target; rebase agent " ++
                      "will catch it up next poll") })
            else
              match checkGreenUnpromotable s ctx pr branch status a with
              | (a, some outcome) => (a, outcome)
              | (a, none) => (a, .repoll)

/-! ## What a poll can do to the counters -/

/-- The states the merge stage dispatches to. -/
def DISPATCHED : List State := [.rebasing, .fixingCi]

theorem blocked_stays : State.blocked ∉ DISPATCHED := by decide
theorem done_stays : State.done ∉ DISPATCHED := by decide
theorem implementComplete_stays : State.implementComplete ∉ DISPATCHED := by decide
theorem humanMrApproval_stays : State.humanMrApproval ∉ DISPATCHED := by decide

/-- The files the merge loop counts in are as they were. -/
structure SameLoopFiles (a b : Artifacts) : Prop where
  cycles : b.autoFixCyclesTxt = a.autoFixCyclesTxt
  lastStage : b.lastAutoFixStageTxt = a.lastAutoFixStageTxt
  pingPong : b.pingPongCountTxt = a.pingPongCountTxt

/-- The poll gets to see an open pull request. -/
structure SeesOpenPr (pr : PrStatus) : Prop where
  polled : ctx.rateLimited = false
  found : ctx.prStatus = .found pr
  notMerged : pr.merged = false
  notClosed : pr.state ≠ "closed"

/-- The poll gets to see the checks of an open pull request. -/
structure SeesChecks (pr : PrStatus) (status : CiStatus) : Prop extends SeesOpenPr ctx pr where
  notConflicting : pr.mergeable ≠ some false
  gated : ctx.skipCi = false
  checks : ctx.checkStatus = .found status

/-- The three answers that send a ticket to the rebase agent: the pull request conflicts, its checks fail
    on the infrastructure, or they are green and the branch is behind. -/
inductive RebaseAnswer : Prop
  | conflicting (pr : PrStatus) (open_ : SeesOpenPr ctx pr) (no : pr.mergeable = some false)
  | transient (pr : PrStatus) (status : CiStatus) (seen : SeesChecks ctx pr status)
      (failing : status.conclusion = some "failure") (noDebt : targetBranchDebt s t ctx = [])
      (infra : allTransient ctx status = true)
  | behind (pr : PrStatus) (status : CiStatus) (seen : SeesChecks ctx pr status)
      (success : status.conclusion = some "success") (behind : pr.mergeableState = some "behind")

/-- The checks fail, and neither the target branch nor the infrastructure is why. -/
structure BranchFailure : Prop where
  seen : ∃ pr status, SeesChecks ctx pr status ∧ status.conclusion = some "failure" ∧
    allTransient ctx status = false
  noDebt : targetBranchDebt s t ctx = []

/-- What one poll, from the artifacts `a`, does to the files of the loop and to the ticket's state. -/
inductive PollEffect (a : Artifacts) : Artifacts → State → Prop
  | quiet {b : Artifacts} {dst : State} (files : SameLoopFiles a b) (stays : dst ∉ DISPATCHED) :
      PollEffect a b dst
  | rebase {b : Artifacts} (files : SameLoopFiles a b) (answer : RebaseAnswer s t ctx) :
      PollEffect a b .rebasing
  | ciFix {b : Artifacts} (failure : BranchFailure s t ctx)
      (below : ¬ (0 < s.autoFixMaxCycles ∧ (s.autoFixMaxCycles : Int) ≤ readCounter a.autoFixCyclesTxt))
      (counted : b.autoFixCyclesTxt = some (toString (readCounter a.autoFixCyclesTxt + 1)))
      (stage : b.lastAutoFixStageTxt = some "ci_fix" ∨ b.lastAutoFixStageTxt = a.lastAutoFixStageTxt) :
      PollEffect a b .fixingCi
  | exhausted {b : Artifacts} (failure : BranchFailure s t ctx)
      (reset : b.autoFixCyclesTxt = some "0") (stage : b.lastAutoFixStageTxt = a.lastAutoFixStageTxt) :
      PollEffect a b .blocked
  | alternated {b : Artifacts} (failure : BranchFailure s t ctx) (last : lastAutoFixStage a = "rebase")
      (counted : b.autoFixCyclesTxt = some (toString (readCounter a.autoFixCyclesTxt + 1)))
      (stage : b.lastAutoFixStageTxt = some "0") :
      PollEffect a b .blocked
  | green {b : Artifacts} {dst : State} (pr : PrStatus) (status : CiStatus) (seen : SeesChecks ctx pr status)
      (truly : ciTrulyGreen status.conclusion pr = true) (reset : b.autoFixCyclesTxt = some "0")
      (stage : b.lastAutoFixStageTxt = none) (stays : dst ∉ DISPATCHED) :
      PollEffect a b dst

theorem SameLoopFiles.refl (a : Artifacts) : SameLoopFiles a a := ⟨rfl, rfl, rfl⟩

theorem SameLoopFiles.trans {a b c : Artifacts} (h : SameLoopFiles a b) (h' : SameLoopFiles b c) :
    SameLoopFiles a c :=
  ⟨h'.cycles.trans h.cycles, h'.lastStage.trans h.lastStage, h'.pingPong.trans h.pingPong⟩

/-! ### Function by function -/

/-- The preamble writes no file of the loop, passes an open pull request on, and dispatches nothing. -/
theorem checkPrBaseline_spec (branch : String) (a : Artifacts) :
    SameLoopFiles a (checkPrBaseline s t ctx branch .implementComplete a).1 ∧
      match (checkPrBaseline s t ctx branch .implementComplete a).2 with
      | .error outcome => outcome.nextState ∉ DISPATCHED
      | .ok pr => ctx.prStatus = .found pr ∧ pr.merged = false ∧ pr.state ≠ "closed" := by
  unfold checkPrBaseline
  cases hpr : ctx.prStatus with
  | raised => exact ⟨.refl a, implementComplete_stays⟩
  | nothing =>
    dsimp only
    split
    · split
      · exact ⟨.refl a, blocked_stays⟩
      · split
        · exact ⟨.refl a, blocked_stays⟩
        · exact ⟨.refl a, implementComplete_stays⟩
    · split
      · exact ⟨.refl a, implementComplete_stays⟩
      · split
        · exact ⟨⟨rfl, rfl, rfl⟩, blocked_stays⟩
        · exact ⟨⟨rfl, rfl, rfl⟩, implementComplete_stays⟩
  | found pr =>
    dsimp only
    cases hm : pr.merged with
    | true =>
      rw [if_pos rfl]
      exact ⟨⟨rfl, rfl, rfl⟩, done_stays⟩
    | false =>
      rw [if_neg Bool.false_ne_true]
      by_cases hc : pr.state = "closed"
      · rw [if_pos hc]
        split
        · exact ⟨⟨rfl, rfl, rfl⟩, done_stays⟩
        · exact ⟨⟨rfl, rfl, rfl⟩, blocked_stays⟩
      · rw [if_neg hc]
        exact ⟨⟨rfl, rfl, rfl⟩, rfl, hm, hc⟩

/-- The ping-pong detector leaves the cycle counter alone, and reports an alternation only. -/
theorem checkPingPong_spec (routingTo : String) (a : Artifacts) :
    (checkPingPong s tid routingTo a).1.autoFixCyclesTxt = a.autoFixCyclesTxt ∧
      (((checkPingPong s tid routingTo a).2 = none ∧
          ((checkPingPong s tid routingTo a).1.lastAutoFixStageTxt = some routingTo ∨
            (checkPingPong s tid routingTo a).1.lastAutoFixStageTxt = a.lastAutoFixStageTxt)) ∨
        (isAlternation routingTo (lastAutoFixStage a) = true ∧
          (checkPingPong s tid routingTo a).1.lastAutoFixStageTxt = some "0" ∧
          ∃ note, (checkPingPong s tid routingTo a).2 = some (.block note))) := by
  unfold checkPingPong
  split
  · exact ⟨rfl, .inl ⟨rfl, .inr rfl⟩⟩
  · split
    · rename_i halt
      dsimp only
      split
      · exact ⟨rfl, .inr ⟨halt, rfl, _, rfl⟩⟩
      · exact ⟨rfl, .inl ⟨rfl, .inl rfl⟩⟩
    · exact ⟨rfl, .inl ⟨rfl, .inl rfl⟩⟩

/-- On the way to the ci-fix stage only a last stage `rebase` is an alternation. -/
theorem isAlternation_ciFix (lastStage : String) :
    isAlternation "ci_fix" lastStage = true ↔ lastStage = "rebase" := by
  simp [isAlternation]

/-- The refusals of the forge are counted in a file of their own. -/
theorem mergeRejectionOutcome_spec (reason : String) (retryable : Bool) (a : Artifacts) :
    SameLoopFiles a (mergeRejectionOutcome reason retryable .implementComplete a).1 ∧
      (mergeRejectionOutcome reason retryable .implementComplete a).2.nextState ∉ DISPATCHED := by
  unfold mergeRejectionOutcome
  split
  · exact ⟨.refl a, blocked_stays⟩
  · dsimp only
    split
    · exact ⟨⟨rfl, rfl, rfl⟩, blocked_stays⟩
    · exact ⟨⟨rfl, rfl, rfl⟩, implementComplete_stays⟩

/-- Green checks reset the loop, and lead out of it or to the next poll. -/
theorem mergeOrPromoteWhenGreen_spec (pr : PrStatus) (a : Artifacts) :
    (mergeOrPromoteWhenGreen ctx pr a).1.autoFixCyclesTxt = some "0" ∧
      (mergeOrPromoteWhenGreen ctx pr a).1.lastAutoFixStageTxt = none ∧
      (mergeOrPromoteWhenGreen ctx pr a).2.nextState ∉ DISPATCHED := by
  unfold mergeOrPromoteWhenGreen
  dsimp only
  split
  · exact ⟨rfl, rfl, humanMrApproval_stays⟩
  · split
    · split
      · exact ⟨rfl, rfl, done_stays⟩
      · exact ⟨rfl, rfl, implementComplete_stays⟩
    · rename_i reason retryable _
      obtain ⟨hfiles, hstays⟩ := mergeRejectionOutcome_spec reason retryable
        { a with
          ciFixCyclesTxt := some "0", autoFixCyclesTxt := some "0", pingPongCountTxt := some "0"
          lastAutoFixStageTxt := none }
      exact ⟨hfiles.cycles, hfiles.lastStage, hstays⟩

/-- A result that leaves the files of the loop alone, and dispatches nothing. -/
def Idles (a : Artifacts) (res : Artifacts × Option StageOutcome) : Prop :=
  SameLoopFiles a res.1 ∧ ∀ outcome, res.2 = some outcome → outcome.nextState ∉ DISPATCHED

theorem Idles.none {a b : Artifacts} (h : SameLoopFiles a b) : Idles a (b, none) :=
  ⟨h, fun _ heq => by cases heq⟩

theorem Idles.some {a b : Artifacts} {outcome : StageOutcome} (h : SameLoopFiles a b)
    (hstays : outcome.nextState ∉ DISPATCHED) : Idles a (b, some outcome) :=
  ⟨h, fun _ heq => by cases heq; exact hstays⟩

theorem checkEmptyRollup_idles (pr : PrStatus) (branch : String) (status : CiStatus) (a : Artifacts) :
    Idles a (checkEmptyRollup s ctx pr branch status a) := by
  unfold checkEmptyRollup
  dsimp only
  split
  · exact .some (.refl a) implementComplete_stays
  · exact .some (.refl a) blocked_stays
  · split
    · exact .none ⟨rfl, rfl, rfl⟩
    · split
      · exact .none ⟨rfl, rfl, rfl⟩
      · split
        · exact .some ⟨rfl, rfl, rfl⟩ blocked_stays
        · split
          · exact .some ⟨rfl, rfl, rfl⟩ implementComplete_stays
          · exact .some ⟨rfl, rfl, rfl⟩ blocked_stays

/-- The bound on green polls counts in files of its own. -/
theorem checkGreenUnpromotable_idles (pr : PrStatus) (branch : String) (status : CiStatus)
    (a : Artifacts) : Idles a (checkGreenUnpromotable s ctx pr branch status a) := by
  unfold checkGreenUnpromotable
  split
  · exact .none ⟨rfl, rfl, rfl⟩
  · split
    · exact checkEmptyRollup_idles s ctx pr branch status a
    · split
      · exact .none (.refl a)
      · dsimp only
        split
        · exact .none ⟨rfl, rfl, rfl⟩
        · exact .some ⟨rfl, rfl, rfl⟩ blocked_stays

/-- Files of the loop that differ nowhere give the same effect. -/
theorem PollEffect.of_same {a a' b : Artifacts} {dst : State} (h : SameLoopFiles a a')
    (he : PollEffect s t ctx a' b dst) : PollEffect s t ctx a b dst := by
  have hlast : lastAutoFixStage a' = lastAutoFixStage a := by
    rw [lastAutoFixStage, h.lastStage, lastAutoFixStage]
  cases he with
  | quiet files stays => exact .quiet (h.trans files) stays
  | rebase files answer => exact .rebase (h.trans files) answer
  | ciFix failure below counted stage =>
    rw [h.cycles] at below counted
    rw [h.lastStage] at stage
    exact .ciFix failure below counted stage
  | exhausted failure reset stage => exact .exhausted failure reset (stage.trans h.lastStage)
  | alternated failure last counted stage =>
    rw [h.cycles] at counted
    exact .alternated failure (hlast.symm.trans last) counted stage
  | green pr status seen truly reset stage stays => exact .green pr status seen truly reset stage stays

/-- Failing checks: blocked on a debt, rebased on an infrastructure failure, or counted. -/
theorem handleCiFailureRoute_effect {pr : PrStatus} {status : CiStatus} (seen : SeesChecks ctx pr status)
    (failing : status.conclusion = some "failure") (a : Artifacts) :
    PollEffect s t ctx a (handleCiFailureRoute s tid t ctx status a).1
      (handleCiFailureRoute s tid t ctx status a).2.nextState := by
  unfold handleCiFailureRoute
  dsimp only
  by_cases hdebt : targetBranchDebt s t ctx = []
  · rw [if_neg (fun h => h hdebt)]
    cases hinfra : allTransient ctx status with
    | true =>
      rw [if_pos rfl]
      exact .rebase (.refl a) (.transient pr status seen failing hdebt hinfra)
    | false =>
      have hfail : BranchFailure s t ctx := ⟨⟨pr, status, seen, failing, hinfra⟩, hdebt⟩
      rw [if_neg Bool.false_ne_true]
      by_cases hceil : 0 < s.autoFixMaxCycles ∧
          (s.autoFixMaxCycles : Int) ≤ readCounter a.autoFixCyclesTxt
      · rw [if_pos hceil, if_neg Bool.false_ne_true]
        exact .exhausted hfail rfl rfl
      · rw [if_neg hceil]
        generalize hfiles : ({ a with
          autoFixCyclesTxt := some (toString (readCounter a.autoFixCyclesTxt + 1)) } : Artifacts) = c
        have hcycles : c.autoFixCyclesTxt = some (toString (readCounter a.autoFixCyclesTxt + 1)) := by
          rw [← hfiles]
        have hlast : c.lastAutoFixStageTxt = a.lastAutoFixStageTxt := by rw [← hfiles]
        obtain ⟨hkeep, ⟨hnone, hstage⟩ | ⟨halt, hstage, note, hsome⟩⟩ := checkPingPong_spec s tid "ci_fix" c
        · have hres : checkPingPong s tid "ci_fix" c = ((checkPingPong s tid "ci_fix" c).1, none) := by
            rw [← hnone]
          rw [hres]
          rw [hlast] at hstage
          exact .ciFix hfail hceil (hkeep.trans hcycles) hstage
        · have hres : checkPingPong s tid "ci_fix" c =
              ((checkPingPong s tid "ci_fix" c).1, some (.block note)) := by rw [← hsome]
          rw [hres]
          rw [isAlternation_ciFix, lastAutoFixStage, hlast] at halt
          exact .alternated hfail halt (hkeep.trans hcycles) hstage
  · rw [if_pos hdebt]
    exact .quiet (.refl a) blocked_stays

/-! ### The poll -/

theorem checkPrBaseline_of_open {pr : PrStatus} (h : SeesOpenPr ctx pr) (branch : String)
    (a : Artifacts) :
    checkPrBaseline s t ctx branch .implementComplete a = ({ a with prMissingPollsTxt := some "0" }, .ok pr) := by
  unfold checkPrBaseline
  rw [h.found]
  dsimp only
  rw [if_neg (by simp [h.notMerged]), if_neg h.notClosed]

/-- The poll, up to the mergeability of an open pull request. -/
theorem pollImplementComplete_of_conflicting {pr : PrStatus} (h : SeesOpenPr ctx pr)
    (hmerge : pr.mergeable = some false) (a : Artifacts) :
    (pollImplementComplete s tid t ctx a).2.nextState = .rebasing := by
  unfold pollImplementComplete
  rw [if_neg (by simp [h.polled])]
  dsimp only
  rw [checkPrBaseline_of_open s t ctx h]
  dsimp only
  rw [if_pos hmerge]

/-- The artifacts a poll has written when it comes to the checks. -/
def atChecks (a : Artifacts) : Artifacts :=
  { a with prMissingPollsTxt := some "0", rebaseAttemptsTxt := some "0" }

/-- The poll, from the checks on. -/
theorem pollImplementComplete_of_seesChecks {pr : PrStatus} {status : CiStatus}
    (h : SeesChecks ctx pr status) (a : Artifacts) :
    pollImplementComplete s tid t ctx a =
      if status.conclusion = some "failure" then handleCiFailureRoute s tid t ctx status (atChecks a)
      else if ciTrulyGreen status.conclusion pr then mergeOrPromoteWhenGreen ctx pr (atChecks a)
      else if status.conclusion = some "success" ∧ pr.mergeableState = some "behind" then
        (atChecks a,
          { nextState := .rebasing
            note := some ("CI green but branch is behind the target; rebase agent " ++
              "will catch it up next poll") })
      else
        match checkGreenUnpromotable s ctx pr (branchOf s tid t) status (atChecks a) with
        | (a, some outcome) => (a, outcome)
        | (a, none) => (a, .repoll) := by
  unfold pollImplementComplete
  rw [if_neg (by simp [h.polled])]
  dsimp only
  rw [checkPrBaseline_of_open s t ctx h.toSeesOpenPr]
  dsimp only
  rw [if_neg h.notConflicting, if_neg (by simp [h.gated]), h.checks]
  rfl

/-- What a poll can do once it sees the checks. -/
theorem pollImplementComplete_effect_of_seesChecks {pr : PrStatus} {status : CiStatus}
    (h : SeesChecks ctx pr status) (a : Artifacts) :
    PollEffect s t ctx a (pollImplementComplete s tid t ctx a).1
      (pollImplementComplete s tid t ctx a).2.nextState := by
  rw [pollImplementComplete_of_seesChecks s tid t ctx h]
  have hfiles : SameLoopFiles a (atChecks a) := ⟨rfl, rfl, rfl⟩
  by_cases hfail : status.conclusion = some "failure"
  · rw [if_pos hfail]
    exact .of_same s t ctx hfiles (handleCiFailureRoute_effect s tid t ctx h hfail _)
  · rw [if_neg hfail]
    cases hgreen : ciTrulyGreen status.conclusion pr with
    | true =>
      rw [if_pos rfl]
      obtain ⟨hcycles, hlast, hstays⟩ := mergeOrPromoteWhenGreen_spec ctx pr (atChecks a)
      exact .green pr status h hgreen hcycles hlast hstays
    | false =>
      rw [if_neg Bool.false_ne_true]
      by_cases hbehind : status.conclusion = some "success" ∧ pr.mergeableState = some "behind"
      · rw [if_pos hbehind]
        exact .rebase hfiles (.behind pr status h hbehind.1 hbehind.2)
      · rw [if_neg hbehind]
        obtain ⟨hidle, hstays⟩ :=
          checkGreenUnpromotable_idles s ctx pr (branchOf s tid t) status (atChecks a)
        cases hstuck : checkGreenUnpromotable s ctx pr (branchOf s tid t) status (atChecks a) with
        | mk b stuck =>
          rw [hstuck] at hidle hstays
          cases stuck with
          | none => exact .quiet (hfiles.trans hidle) implementComplete_stays
          | some outcome => exact .quiet (hfiles.trans hidle) (hstays outcome rfl)

/-- **What a poll can do.** -/
theorem pollImplementComplete_effect (a : Artifacts) :
    PollEffect s t ctx a (pollImplementComplete s tid t ctx a).1
      (pollImplementComplete s tid t ctx a).2.nextState := by
  by_cases hchecks : ∃ pr status, SeesChecks ctx pr status
  · obtain ⟨pr, status, hseen⟩ := hchecks
    exact pollImplementComplete_effect_of_seesChecks s tid t ctx hseen a
  · -- the poll ends before it has a conclusion
    unfold pollImplementComplete
    cases hlimit : ctx.rateLimited with
    | true =>
      rw [if_pos rfl]
      exact .quiet (.refl a) implementComplete_stays
    | false =>
      rw [if_neg Bool.false_ne_true]
      dsimp only
      obtain ⟨hfiles, hbase⟩ := checkPrBaseline_spec s t ctx (branchOf s tid t) a
      cases hres : checkPrBaseline s t ctx (branchOf s tid t) .implementComplete a with
      | mk b early =>
        rw [hres] at hfiles hbase
        cases early with
        | error outcome => exact .quiet hfiles hbase
        | ok pr =>
          have hopen : SeesOpenPr ctx pr := ⟨hlimit, hbase.1, hbase.2.1, hbase.2.2⟩
          have hreset : SameLoopFiles a { b with rebaseAttemptsTxt := some "0" } :=
            hfiles.trans ⟨rfl, rfl, rfl⟩
          dsimp only
          by_cases hmerge : pr.mergeable = some false
          · rw [if_pos hmerge]
            exact .rebase hfiles (.conflicting pr hopen hmerge)
          · rw [if_neg hmerge]
            cases hskip : ctx.skipCi with
            | true =>
              rw [if_pos rfl]
              exact .quiet hreset humanMrApproval_stays
            | false =>
              rw [if_neg Bool.false_ne_true]
              cases hstatus : ctx.checkStatus with
              | raised => exact .quiet hreset implementComplete_stays
              | nothing => exact .quiet hreset implementComplete_stays
              | found status => exact absurd ⟨pr, status, hopen, hmerge, hskip, hstatus⟩ hchecks

/-! ### Which answers dispatch -/

/-- Each of the three answers sends the ticket to the rebase agent. -/
theorem nextState_of_rebaseAnswer (h : RebaseAnswer s t ctx) (a : Artifacts) :
    (pollImplementComplete s tid t ctx a).2.nextState = .rebasing := by
  cases h with
  | conflicting pr open_ no => exact pollImplementComplete_of_conflicting s tid t ctx open_ no a
  | transient pr status seen failing noDebt infra =>
    rw [pollImplementComplete_of_seesChecks s tid t ctx seen, if_pos failing]
    unfold handleCiFailureRoute
    dsimp only
    rw [if_neg (fun h => h noDebt), if_pos infra]
  | behind pr status seen success behind =>
    have hgreen : ciTrulyGreen status.conclusion pr = false := by simp [ciTrulyGreen, behind]
    rw [pollImplementComplete_of_seesChecks s tid t ctx seen, if_neg (by simp [success]), hgreen,
      if_neg Bool.false_ne_true, if_pos ⟨success, behind⟩]

/-- A failure of the branch's own goes to the ci-fix agent, or blocks the ticket. -/
theorem nextState_of_branchFailure (h : BranchFailure s t ctx) (a : Artifacts) :
    (pollImplementComplete s tid t ctx a).2.nextState = .fixingCi ∨
      (pollImplementComplete s tid t ctx a).2.nextState = .blocked := by
  obtain ⟨⟨pr, status, seen, failing, hinfra⟩, hdebt⟩ := h
  rw [pollImplementComplete_of_seesChecks s tid t ctx seen, if_pos failing]
  unfold handleCiFailureRoute
  dsimp only
  rw [if_neg (fun h => h hdebt), hinfra, if_neg Bool.false_ne_true]
  split
  · rw [if_neg Bool.false_ne_true]
    exact .inr rfl
  · split
    · rename_i b outcome hpp
      obtain ⟨-, ⟨hnone, -⟩ | ⟨-, -, note, hsome⟩⟩ := checkPingPong_spec s tid "ci_fix"
        { atChecks a with
          autoFixCyclesTxt := some (toString (readCounter (atChecks a).autoFixCyclesTxt + 1)) }
      · rw [hpp] at hnone
        cases hnone
      · rw [hpp] at hsome
        cases hsome
        exact .inr rfl
    · exact .inl rfl

end Poll

end Stages
end RobotsixMill
