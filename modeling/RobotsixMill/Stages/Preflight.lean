import RobotsixMill.Lib.GuardChain
import RobotsixMill.Stages.SpawnState
import RobotsixMill.Service.Ops

/-!
# `Stages.Preflight` — the checks before an implement attempt

`run_preflight_checks`: a chain of guards over the ticket's artifacts, in the order of the source. The
first one that reports decides the outcome; when none does, the spawn is counted and its in-flight marker
written. What the guards ask of the outside (the deploy server, the clone, the agent definitions) is in
`PreflightContext`.

- `Locals`: what the guards hand on, the artifacts and the spawn count read by the spawn limit;
- one definition per guard, named after it;
- `preflightGuards`: the chain; `runPreflightChecks`: the whole call, on the mill.
-/

namespace RobotsixMill
namespace Stages
open RobotsixMill.Core Lib Service

/-! ## Outcomes and surroundings -/

/-- What a stage asks for; a preflight always gives a note, and no `block_reason`. -/
structure Outcome where
  nextState : State
  note : String
deriving DecidableEq, Repr

/-- The guards of the preflight, in the order they run. -/
inductive PreflightGuard
  | epic | deployFreshness | emptySpec | externalScope | wrongRepo | spawnLimit | cycleLimit
  | staleSpec | stall | zeroDiff | agentDefinition | skillFiles | languageInstructions | workspaceDir
deriving DecidableEq, Repr

structure DeployStatus where
  runningDigest : String
  latestDigest : String
  updateAvailable : Bool
deriving DecidableEq, Repr

/-- The lists of `agent_definitions/implement.yaml` the preflight looks at. -/
structure AgentDefinition where
  tools : List String
  skills : List String
deriving DecidableEq, Repr

/-- What one preflight finds around it. -/
structure PreflightContext where
  /-- `ctx.repo_config`: its repo id and board id. -/
  repoConfig : Option (String × BoardId)
  /-- `check_deploy_freshness`; `none` when there is no answer. -/
  deployStatus : Option DeployStatus
  /-- The text scan of `_detect_external_scope`: the external repos a spec names, sorted; none when a
      path or the current repo's name says that the change is local. -/
  externalRepos : String → List String
  /-- The packages under `repo/src`, if that directory is there. -/
  srcPackages : Option (List String)
  /-- The tool outputs in a saved conversation, oldest first. -/
  toolOutputs : String → List String
  /-- `load_agent_definition`, or the text of its exception. -/
  agentDefinition : Except String AgentDefinition
  skillPath : String → String
  hasSkillFile : String → Bool
  languageInstructionsDir : String
  hasLanguageInstructionsDir : Bool
  workspaceDir : String
  hasWorkspaceDir : Bool

/-- What the guards hand on to each other. -/
structure Locals where
  artifacts : Artifacts
  spawnCount : Int := 0
deriving DecidableEq, Repr

/-- Write the artifacts. -/
def Locals.withArtifacts (l : Locals) (a : Artifacts) : Locals := { l with artifacts := a }

@[simp] theorem withArtifacts_artifacts (l : Locals) (a : Artifacts) :
    (l.withArtifacts a).artifacts = a := rfl

/-- A block with a note. -/
def blocked (note : String) : Outcome := { nextState := .blocked, note := note }

/-- The last `n` characters. -/
def lastChars (n : Nat) (s : String) : String := String.ofList (lastN n s.toList)

section Guards

variable (s : Settings) (ctx : PreflightContext)

/-! ## Guards 0 to 1.3: the ticket and its spec -/

def epicGuard (t : Ticket) : Option Outcome :=
  if t.kind = .epic then
    some (blocked ("epic ticket routed to implement stage — epics must " ++
      "be broken into child tasks; re-route to epic_breakdown " ++
      "or refine for child generation"))
  else none

def deployFreshnessGuard : Option Outcome :=
  match ctx.deployStatus with
  | none => none
  | some deploy =>
    if deploy.updateAvailable then
      some (blocked (s!"worker image is stale — running {deploy.runningDigest} " ++
        s!"predates latest {deploy.latestDigest}.  " ++
        "Redeploy the mill worker before resuming blocked tickets."))
    else none

/-- A child of an epic may live on the epic's text alone. -/
def emptySpecGuard (spec epicCtx : String) : Option Outcome :=
  if isBlank spec && isBlank epicCtx then
    some (blocked "empty or missing specification — cannot implement without a spec")
  else none

def EXTERNAL_SCOPE_PREFIX : String := "external scope gate:"

/-- The phrases by which an operator says that the change is local. -/
def IN_WORKSPACE_OVERRIDE_PHRASES : List String :=
  ["in-workspace", "in workspace", "this workspace", "current workspace", "in-repo", "in this repo",
    "in the current repo", "target file is in", "scope is local", "local scope"]

/-- `_note_asserts_in_workspace`. -/
def noteAssertsInWorkspace (note : String) : Bool :=
  IN_WORKSPACE_OVERRIDE_PHRASES.any fun phrase => contains (lower note) phrase

/-- `_latest_operator_note`. -/
def latestOperatorNote (comments : List Comment) : Option String :=
  let ordered := comments.insertionSort fun a b => a.createdAt ≤ b.createdAt
  (ordered.reverse.find? fun c => decide (c.author = "operator") && !isBlank c.body).map Comment.body

/-- `_consume_in_workspace_override`: each operator note counts once. -/
def consumeInWorkspaceOverride (sha : String → String) (comments : List Comment) (a : Artifacts) :
    Artifacts × Bool :=
  match latestOperatorNote comments with
  | none => (a, false)
  | some note =>
    if noteAssertsInWorkspace note = false then (a, false)
    else if strip (a.externalScopeOverrideConsumed.getD "") = sha note then (a, false)
    else ({ a with externalScopeOverrideConsumed := some (sha note) }, true)

/-- `_record_or_escalate`: a reason given twice in a row is escalated to a human. -/
def recordOrEscalate (candidate : String) (a : Artifacts) : Artifacts × String :=
  let lastNote := a.externalScopeLastNote.getD ""
  if lastNote ≠ "" ∧ lastNote = candidate then
    let escalation := s!"{EXTERNAL_SCOPE_PREFIX} ESCALATION — this ticket was already " ++
      "blocked with an identical external-scope reason on the previous " ++
      "attempt, so the automated resume -> re-block cycle is looping " ++
      "without progress.  Routing to a human for manual triage: " ++
      "re-file on the correct board, split out the external work, or " ++
      "resume-blocked with a note asserting the change is in-workspace. " ++
      "\n\nOriginal reason:\n" ++ candidate
    ({ a with externalScopeLastNote := some escalation }, escalation)
  else ({ a with externalScopeLastNote := some candidate }, candidate)

/-- The block note of a spec that names external repos only. -/
def externalScopeCandidate (repoId : String) (repos : List String) : String :=
  let names := ", ".intercalate repos
  s!"{EXTERNAL_SCOPE_PREFIX} the spec's Scope / Acceptance criteria " ++
    s!"reference only external repos ({names}) — no changes target " ++
    s!"this workspace ({repoId}).  The implement agent cannot " ++
    "produce a diff here.  Re-route the ticket to the correct board " ++
    "or split the external work into a separate ticket."

/-- The external-scope gate; the meta board's tickets name other repos by design. -/
def externalScopeGuard (sha : String → String) (spec : String) (comments : List Comment) (l : Locals) :
    Locals × Option Outcome :=
  match ctx.repoConfig with
  | none => (l, none)
  | some (repoId, boardId) =>
    if spec = "" ∨ boardId = "meta" ∨ repoId = "" ∨ ctx.externalRepos spec = [] then (l, none)
    else
      match consumeInWorkspaceOverride sha comments l.artifacts with
      | (a, true) => (l.withArtifacts a, none)
      | (a, false) =>
        let (a, note) := recordOrEscalate (externalScopeCandidate repoId (ctx.externalRepos spec)) a
        (l.withArtifacts a, some (blocked note))

/-- The characters of a Python identifier in ASCII. -/
def isIdentChar (c : Char) : Bool := c.isAlphanum || c == '_'

/-- A package quoted at the start of the text, and the length of the quotation. -/
def srcPackageAt (cs : List Char) : Option (String × Nat) :=
  let opening := "`src/".toList
  let name := (cs.drop opening.length).takeWhile isIdentChar
  let closing := "/`".toList
  if opening.isPrefixOf cs && !(name.head?.all Char.isDigit) &&
      closing.isPrefixOf (cs.drop (opening.length + name.length)) then
    some (String.ofList name, opening.length + name.length + closing.length)
  else none

/-- `_SRC_PKG_RE.findall`; `skip` characters belong to the match before. -/
def srcPackageRefs : Nat → List Char → List String
  | _, [] => []
  | skip + 1, _ :: cs => srcPackageRefs skip cs
  | 0, c :: cs =>
    match srcPackageAt (c :: cs) with
    | none => srcPackageRefs 0 cs
    | some (name, len) => name :: srcPackageRefs (len - 1) cs

/-- The packages a spec names that the clone does not have, sorted. -/
def foreignPackages (existing : List String) (spec : String) : List String :=
  (((srcPackageRefs 0 spec.toList).filter fun p => p ∉ existing).eraseDups).insertionSort (· ≤ ·)

def wrongRepoGuard (spec : String) : Option Outcome :=
  match ctx.srcPackages with
  | none => none
  | some existing =>
    let foreign := foreignPackages existing spec
    if foreign = [] then none
    else
      let names := ", ".intercalate foreign
      some (blocked ("wrong-repository guard: spec references top-level " ++
        s!"package(s) that do not exist in this repo: {names}.  This ticket likely belongs to a " ++
        "different repository — re-file on the correct board."))

/-! ## Guards 1.5 and 2: the spawn budget -/

/-- The last tool outputs, quoted in the block note. -/
def toolOutputTail (a : Artifacts) : Option String :=
  match a.implementConversationState with
  | none => none
  | some saved =>
    let outputs := lastN 10 (ctx.toolOutputs saved)
    if outputs = [] then none
    else some (lastChars 800 ("\n\n".intercalate (lastN 3 outputs)))

/-- A paragraph of a note, when there is something to say. -/
def paragraph (heading : String) (text : Option String) : String :=
  match text with
  | none => ""
  | some text => if text = "" then "" else "\n\n" ++ heading ++ text

/-- How often this spec has exhausted the budget now, and whether it had before. -/
def exhaustion (specFp : String) (a : Artifacts) : Int × Bool :=
  match readSpawnExhaustionMarker a with
  | some (fp, count) => if fp = specFp then (count + 1, true) else (1, false)
  | none => (1, false)

/-- The block note of an exhausted budget. -/
def spawnLimitNote (spawnCount : Int) (specFp : String) (killed : Option String) (a : Artifacts) :
    String :=
  let limit := s.implementMaxSpawnsPerTicket
  let (count, recurring) := exhaustion specFp a
  (if recurring then
    s!"implement spawn limit reached ({spawnCount}/{limit}) for the {count}th consecutive time with an " ++
      "unchanged spec — recurring spawn exhaustion.  " ++
      "Counter will NOT be auto-reset by resume-blocked " ++
      "unless the resume includes an explicit " ++
      "justification note or the spec has changed."
  else
    s!"implement spawn limit reached ({spawnCount}/{limit}) — " ++
      "escalating to BLOCKED for human inspection.  " ++
      "Resume-blocked to retry: it clears the counter " ++
      "automatically (no workspace surgery needed).") ++
  paragraph "Last attempt summary tail:\n"
    (a.implementSummaryMd.map fun text => strip (lastChars 500 text)) ++
  paragraph "" killed ++
  paragraph "" (readSpawnAbortsTail a) ++
  paragraph "Last attempt tool outputs:\n\n" (toolOutputTail ctx a)

/-- Spawn-kill recovery, then the limit. A ticket over the limit has its exhaustion recorded and its
    saved conversation dropped. -/
def spawnLimitGuard (now : DateTime) (specFp : String) (l : Locals) : Locals × Option Outcome :=
  if s.implementMaxSpawnsPerTicket = 0 then (l, none)
  else
    let (a, killed) := detectAndAbsorbKilledSpawn now l.artifacts
    let spawnCount := readCounter a.implementSpawnCount
    if spawnCount < s.implementMaxSpawnsPerTicket then
      ({ artifacts := a, spawnCount := spawnCount }, none)
    else
      let exhausted : SpawnExhaustion := { specFp := specFp, count := (exhaustion specFp a).1 }
      ({ artifacts :=
          { a with
            implementSpawnExhaustedJson := .ok exhausted
            implementConversationState := none }
         spawnCount := spawnCount },
        some (blocked (spawnLimitNote s ctx spawnCount specFp killed a)))

/-! ## Guards 3 to 4.5: cycles, stale spec, stall -/

def cycleLimitGuard (t : Ticket) : Option Outcome :=
  if 0 < s.maxImplementReviewCycles ∧ (s.maxImplementReviewCycles : Int) ≤ t.implementCycles then
    some (blocked ("Implement-review cycle limit reached " ++
      s!"({t.implementCycles}/{s.maxImplementReviewCycles}) — " ++
      "escalating to BLOCKED for human inspection"))
  else none

/-- Did the last attempt end on the spec it was given? -/
def endedResumable (md : String) : Bool := contains md "BLOCKED — resumable"

def staleSpecGuard (currentFp : String) (l : Locals) : Option Outcome :=
  match l.artifacts.implementMd with
  | none => none
  | some md =>
    if endedResumable md = false then none
    else if strip (l.artifacts.implementSpecOverride.getD "") = currentFp then none
    else
      let storedFp := (specFingerprintLine md).getD ""
      if storedFp ≠ "" ∧ storedFp = currentFp then
        some (blocked ("spec unchanged since last spec-determined implement attempt " ++
          s!"(fingerprint {currentFp}) — " ++
          "re-implementing would produce the same " ++
          "result.  Update the specification to change " ++
          "the fingerprint, or force a retry via " ++
          "resume-blocked with a justification note, or " ++
          "use the reset-fingerprint endpoint to clear " ++
          "the guard.  See the most recent " ++
          "`[no-diff-diagnostic]` event in this ticket's " ++
          "history for why the prior implement pass produced " ++
          "no diff (reason classification + Langfuse trace " ++
          "link)."))
      else none

/-- The first `stall-count: ` line of an `implement.md`; without a readable one, zero. -/
def stallCountLine (md : String) : Int :=
  match (splitlines md).find? fun line => startsWith line "stall-count: " with
  | none => 0
  | some line => (parseInt (fieldValue "stall-count: " line)).getD 0

/-- The stall count: `implement.md` first, the JSON when it says nothing. -/
def stallCount (a : Artifacts) : Int :=
  let count := match a.implementMd with
    | none => 0
    | some md => stallCountLine md
  if count ≠ 0 then count
  else match a.implementStallStateJson with
    | .ok st => st.stallCount
    | _ => 0

def stallGuard (l : Locals) : Option Outcome :=
  let count := stallCount l.artifacts
  if 0 < count ∧ 0 < s.implementStallThreshold ∧ (s.implementStallThreshold : Int) ≤ count then
    let summary := strip (l.artifacts.implementSummaryMd.getD "")
    if startsWith summary "STALL DETECTED" then some (blocked summary)
    else
      some (blocked (s!"stall guard — {count} consecutive " ++
        "no-progress implement cycles detected.  " ++
        "The implement agent is not converging.  " ++
        "Consider re-scoping or splitting the ticket."))
  else none

/-! ## Guard 4.7: zero diffs -/

def zeroDiffNote (count : Int) : String :=
  s!"zero-diff early-abort — {count} consecutive " ++
    "implement passes produced no file changes.  " ++
    "The task may be a no-op, ambiguous, or require " ++
    "external data — please clarify or narrow scope, " ++
    "then reply to resume (the reply grants one " ++
    "fresh implement attempt with a reset counter)."

/-- A marker left by the pause before means the operator has replied: one attempt is granted. -/
def zeroDiffGuard (l : Locals) : Locals × Option Outcome :=
  let count := readCounter l.artifacts.implementZeroDiffCount
  if s.implementZeroDiffAbortThreshold = 0 ∨ count < s.implementZeroDiffAbortThreshold then (l, none)
  else if l.artifacts.implementZeroDiffPaused then
    (l.withArtifacts
      { l.artifacts with implementZeroDiffPaused := false, implementZeroDiffCount := some "0" }, none)
  else
    (l.withArtifacts { l.artifacts with implementZeroDiffPaused := true },
      some { nextState := .awaitingUserReply, note := zeroDiffNote count })

/-! ## Guards 5 to 8: the installation -/

def agentDefinitionGuard : Option Outcome :=
  match ctx.agentDefinition with
  | .error exc => some (blocked s!"failed to load implement agent definition: {exc}")
  | .ok definition =>
    if definition.tools = [] then
      some (blocked ("implement agent definition has no tools configured — " ++
        "the tools list in agent_definitions/implement.yaml is empty"))
    else none

def skillFilesGuard : Option Outcome :=
  match ctx.agentDefinition with
  | .error _ => none
  | .ok definition =>
    (definition.skills.find? fun name => !ctx.hasSkillFile name).map fun name =>
      blocked s!"missing skill file: {ctx.skillPath name}"

def languageInstructionsGuard : Option Outcome :=
  if ctx.hasLanguageInstructionsDir then none
  else some (blocked ("language_instructions_dir not found or not a directory: " ++
    ctx.languageInstructionsDir))

def workspaceDirGuard : Option Outcome :=
  if ctx.hasWorkspaceDir then none
  else some (blocked s!"workspace directory absent or inaccessible: {ctx.workspaceDir}")

/-- A spawn that is not a retry takes a slot; either way its marker is written. -/
def countSpawn (now : DateTime) (t : Ticket) (l : Locals) : Artifacts :=
  if s.implementMaxSpawnsPerTicket = 0 then l.artifacts
  else if t.retryAttempt = 0 then
    writeSpawnInFlight now (l.spawnCount + 1) true
      { l.artifacts with implementSpawnCount := some (toString (l.spawnCount + 1)) }
  else writeSpawnInFlight now l.spawnCount false l.artifacts

end Guards

/-! ## The chain -/

section Run

variable (env : Env) (svc : BoardId) (ctx : PreflightContext)

/-- `list_comments`; a ticket that is gone has none. -/
def listComments (k : Key) (σ : Mill) : List Comment :=
  match fetch env svc σ k.2 with
  | .error _ => []
  | .ok (_, r) => r.comments

/-- The guards for the ticket `t`, stored under `k`. -/
def preflightGuards (k : Key) (t : Ticket) (σ : Mill) :
    List (Guard PreflightGuard Locals Outcome) :=
  let s := env.settings
  let spec := (σ.workspace k).readDescription
  let fp := computeSpecFingerprint env svc σ k t
  [ .reading .epic fun _ => epicGuard t,
    .reading .deployFreshness fun _ => deployFreshnessGuard ctx,
    .reading .emptySpec fun _ => emptySpecGuard spec (getEpicContext env svc σ t),
    ⟨.externalScope, externalScopeGuard ctx env.sha256Hex16 spec (listComments env svc k σ)⟩,
    .reading .wrongRepo fun _ => wrongRepoGuard ctx spec,
    ⟨.spawnLimit, spawnLimitGuard s ctx (σ.now env 0) fp⟩,
    .reading .cycleLimit fun _ => cycleLimitGuard s t,
    .reading .staleSpec (staleSpecGuard fp),
    .reading .stall (stallGuard s),
    ⟨.zeroDiff, zeroDiffGuard s⟩,
    .reading .agentDefinition fun _ => agentDefinitionGuard ctx,
    .reading .skillFiles fun _ => skillFilesGuard ctx,
    .reading .languageInstructions fun _ => languageInstructionsGuard ctx,
    .reading .workspaceDir fun _ => workspaceDirGuard ctx ]

/-- The question put to the operator; a comment that cannot be added is only logged. -/
def pauseForZeroDiff (k : Key) (note : String) (σ : Mill) : Result Unit :=
  let σ₁ := (addComment env svc k.2 s!"{ASK_USER_MARKER}\n\n{note}" "implement" none σ).1
  transition env svc k.2 .awaitingUserReply (some note) none σ₁

/-- `run_preflight_checks`, with the guard an outcome comes from. -/
def runPreflightChecks (k : Key) (t : Ticket) (σ : Mill) :
    Result (Option (PreflightGuard × Outcome)) :=
  let (l, hit) := Guard.runGuards (preflightGuards env svc ctx k t σ)
    { artifacts := (σ.workspace k).artifacts }
  match hit with
  | none =>
    ((σ.editArtifacts k fun _ => countSpawn env.settings (σ.now env 1) t l).tick, .ok none)
  | some (tag, outcome) =>
    let σ₁ := (σ.editArtifacts k fun _ => l.artifacts).tick
    if tag = .zeroDiff then
      match pauseForZeroDiff env svc k outcome.note σ₁ with
      | (σ₂, .error e) => (σ₂, .error e)
      | (σ₂, .ok ()) => (σ₂, .ok (some (tag, outcome)))
    else (σ₁, .ok (some (tag, outcome)))

end Run

end Stages
end RobotsixMill
