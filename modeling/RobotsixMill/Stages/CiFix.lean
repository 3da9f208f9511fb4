import RobotsixMill.Lib.GuardChain
import RobotsixMill.Stages.Base
import RobotsixMill.Service.Runs

/-!
# `Stages.CiFix` — a pass of the ci_fix stage, up to its agent

`CIFixStage.run`: a chain of gates over the ticket's artifacts, in the order of the source. The first one
that reports ends the pass; when none does, the ci-fix agent is invoked. What the gates ask of git and of
the forge is in `CiFixContext`.

Two of the gates count. The identical-failure gate counts passes with one fingerprint, the total-attempt cap
agent invocations on one set of failing checks. `resume_blocked` resets the first counter when it is at its
ceiling; it knows nothing of the second, and of the first nothing below the ceiling.

- `ciFixGuards` — the chain; `ciFixPass` — the whole pass, on the mill;
- `resume_rearms_ci_fix` — when the pass after a resume is stopped by neither counter.
-/

namespace RobotsixMill
namespace Stages
open RobotsixMill.Core Lib Service

/-! ## What a pass works on -/

/-- The gates of a pass, in the order they run. -/
inductive CiFixGuard
  | rateLimit | cloneAndStatus | transientRetry | repoSetting | upstream | infraAccount
  | codeqlUnreadable | codeqlTriage | identicalFailure | nonCodeFixable | conflictingPr | reconcile
  | formatter | audit | totalAttempts
deriving DecidableEq, Repr

/-- The answer of `check_status`. -/
inductive CheckStatus
  | raised
  | noPr
  | concluded (conclusion : Option String)
deriving DecidableEq, Repr

/-- What one pass finds around it. -/
structure CiFixContext where
  /-- `rate_limit.should_skip`. -/
  rateLimited : Bool := false
  forgeConfigured : Bool := true
  /-- The text of the error `github_token` raises. -/
  tokenError : Option String := none
  hasClone : Bool := true
  /-- `_check_merge_conflict`, asked when the branch could not be rebased. -/
  mergeConflict : Option StageOutcome := none
  checkStatus : CheckStatus := .concluded (some "failure")
  failingSummary : String
  headSha : String
  /-- `ctx.repo_config.board_id`. -/
  repoId : String := ""
  /-- `is_transient_ci_failure`. -/
  isTransientCiFailure : String → Bool := fun _ => false
  /-- The notes of the gates that only classify, where they block. -/
  repoSettingNote : Option String := none
  upstreamNote : Option String := none
  infraAccountNote : Option String := none
  codeqlUnreadableNote : Option String := none
  codeqlTriage : Option StageOutcome := none
  /-- How many runs `_rerun_failing_workflows` re-queues. -/
  reran : Nat := 0
  /-- The root cause of a failure no code change can fix. -/
  nonCodeFixableCause : Option String := none
  /-- The forge says that the PR is not mergeable. -/
  prConflicting : Bool := false
  /-- `reconcile_with_remote_pr` reports `DIVERGED`. -/
  diverged : Bool := false
  formatterPass : Option StageOutcome := none
  auditPass : Option StageOutcome := none

/-- The artifacts, and the history notes written on the way. -/
structure CiFixLocals where
  artifacts : Artifacts
  notes : List String := []
deriving DecidableEq, Repr

/-- Write the artifacts. -/
def CiFixLocals.withArtifacts (l : CiFixLocals) (a : Artifacts) : CiFixLocals :=
  { l with artifacts := a }

/-! ## Reading the failing summary -/

def FAILED_MARK : String := "❌ FAILED:"

/-- The check a line of the summary reports as failed. -/
def checkNameOf (line : String) : Option String :=
  let stripped := strip line
  if startsWith stripped "## " && contains stripped FAILED_MARK then
    let name := match cutAt FAILED_MARK.toList stripped.toList with
      | none => ""
      | some (_, after) => strip (String.ofList after)
    if name = "" then none else some name
  else if startsWith stripped "**CodeQL alerts" &&
      contains (String.ofList (stripped.toList.drop 2)) "**" then
    some "CodeQL code-scanning"
  else none

/-- `_extract_check_names`. -/
def extractCheckNames (failingSummary : String) : String :=
  let names := (splitlines (strip failingSummary)).filterMap checkNameOf
  if names = [] then "(unknown)" else String.ofList ((", ".intercalate names).toList.take 200)

/-- `_ci_failure_fingerprint`. -/
def ciFailureFingerprint (sha : String → String) (failingSummary repoId headSha : String) : String :=
  let core := match cutAt "**Job logs:**".toList failingSummary.toList with
    | some (before, _) => String.ofList (rstripChars before)
    | none => String.ofList (failingSummary.toList.take 2000)
  sha s!"{repoId}\n{headSha}\n{core}"

/-! ## The gates -/

section Gates

variable (s : Settings) (sha : String → String) (ctx : CiFixContext)

/-- `_resolve_clone_and_status`, up to the failing conclusion. -/
def cloneAndStatusGuard (l : CiFixLocals) : CiFixLocals × Option StageOutcome :=
  if ctx.forgeConfigured = false then (l, some (.block "forge not configured"))
  else match ctx.tokenError with
  | some e => (l, some (.block s!"forge auth not configured: {e}"))
  | none =>
    if ctx.hasClone = false then
      (l, some (.block ("workspace clone is missing; cannot fix CI. " ++
        "Re-run implement to recreate the clone.")))
    else match ctx.mergeConflict with
    | some outcome => (l, some outcome)
    | none =>
      match ctx.checkStatus with
      | .raised | .noPr => (l, some .repoll)
      | .concluded conclusion =>
        if conclusion = some "success" then
          (l.withArtifacts { l.artifacts with ciFixRefreshAttemptsTxt := some "0" }, some .repoll)
        else if conclusion = some "failure" then (l, none)
        else (l, some .repoll)

/-- A transient failure is run again, a limited number of times. -/
def transientRetryGuard (l : CiFixLocals) : CiFixLocals × Option StageOutcome :=
  let retries := readCounter l.artifacts.ciTransientRetryTxt
  if 0 < s.ciTransientMaxRetries ∧ ctx.isTransientCiFailure ctx.failingSummary ∧
      retries < s.ciTransientMaxRetries then
    (l.withArtifacts { l.artifacts with ciTransientRetryTxt := some (toString (retries + 1)) },
      some .repoll)
  else (l, none)

/-- The stored fingerprint; without one, the empty text. -/
def storedFingerprint (a : Artifacts) : String := strip (a.ciFailureFingerprintTxt.getD "")

def identicalFailureNote (fp : String) (count : Int) (checkNames : String) : String :=
  s!"Same CI failure fingerprint ({fp}) repeated {count} consecutive times without progress on: " ++
    s!"{checkNames}. " ++
    "Escalating to BLOCKED — the check is deterministically " ++
    "failing; resuming will not help. Fix the underlying CI issue " ++
    "instead."

/-- `_check_consecutive_identical_failure`. -/
def identicalFailureGuard (l : CiFixLocals) : CiFixLocals × Option StageOutcome :=
  if s.ciFixMaxIdenticalFailures = 0 then (l, none)
  else
    let current := ciFailureFingerprint sha ctx.failingSummary ctx.repoId ctx.headSha
    let stored := storedFingerprint l.artifacts
    if current = stored ∧ stored ≠ "" then
      let count := readCounter l.artifacts.ciIdenticalFailureCountTxt + 1
      let counted := { l.artifacts with ciIdenticalFailureCountTxt := some (toString count) }
      if (s.ciFixMaxIdenticalFailures : Int) ≤ count then
        -- an outage upstream clears itself: run again instead of blocking
        if 0 < s.ciTransientMaxRetries ∧ ctx.isTransientCiFailure ctx.failingSummary then
          ({ artifacts := { counted with ciIdenticalFailureCountTxt := some "0" }
             notes := l.notes ++ [s!"CI failure fingerprint ({current}) repeated " ++
               s!"{count}× but classified transient (external 5xx / " ++
               s!"infra flake) — re-ran {ctx.reran} workflow(s) and " ++
               "re-polling instead of blocking."] },
            some .repoll)
        else (l.withArtifacts counted, some (.block (identicalFailureNote current count
          (extractCheckNames ctx.failingSummary))))
      else (l.withArtifacts counted, none)
    else
      (l.withArtifacts
        { l.artifacts with
          ciIdenticalFailureCountTxt := some "0"
          ciFailureFingerprintTxt := some current }, none)

def nonCodeFixableGuard : Option StageOutcome :=
  ctx.nonCodeFixableCause.map fun cause =>
    .block (s!"CI failing on non-code-fixable check(s): {extractCheckNames ctx.failingSummary}. " ++
      s!"Root cause: {cause}. " ++
      "This is a scanner/policy finding (secret-scan / gitleaks / " ++
      "license-scan) that requires HUMAN remediation — remove the " ++
      "offending secret from git history and rotate it (or resolve the " ++
      "license violation) — not a code edit the ci-fix agent can make. " ++
      "Skipping the automated fix loop to avoid burning LLM attempts on " ++
      "a structurally unfixable failure; resume once the finding is " ++
      "remediated.")

/-- `_reroute_when_pr_conflicting`. -/
def conflictingPrGuard : Option StageOutcome :=
  if ctx.prConflicting then
    some { nextState := .rebasing
           note := some ("PR conflicts with its target branch, so the forge runs no " ++
             "checks on it — rebasing before any CI fix is attempted.") }
  else none

def reconcileGuard : Option StageOutcome :=
  if ctx.diverged then
    some (.block ("PR branch diverged from the workspace clone (a human likely pushed to " ++
      "it) — manual reconciliation required. The mill refuses to " ++
      "force-push here: push_with_lease cannot protect this case " ++
      "because reconcile's own fetch already advanced the tracking " ++
      "ref to the foreign commit, so a lease push would pass its " ++
      "compare-and-swap and SILENTLY OVERWRITE that commit."))
  else none

def totalAttemptsNote (count : Int) (checkset : String) : String :=
  s!"ci-fix reached its hard attempt cap ({s.ciFixMaxTotalAttempts}) on: {checkset}. " ++
    s!"The automated fix loop made {count - 1} attempt(s) without " ++
    "turning CI green; blocking to prevent unbounded LLM spend on " ++
    "a failure it cannot resolve. Fix the underlying CI issue and " ++
    "resume."

/-- The stored set of failing checks; without one, the empty text. -/
def storedCheckset (a : Artifacts) : String := strip (a.ciFixAttemptChecksetTxt.getD "")

/-- `_check_total_attempt_cap`. -/
def totalAttemptsGuard (l : CiFixLocals) : CiFixLocals × Option StageOutcome :=
  if s.ciFixMaxTotalAttempts = 0 then (l, none)
  else
    let current := extractCheckNames ctx.failingSummary
    let a := if current ≠ storedCheckset l.artifacts then
        { l.artifacts with ciFixTotalAttemptsTxt := some "0", ciFixAttemptChecksetTxt := some current }
      else l.artifacts
    let count := readCounter a.ciFixTotalAttemptsTxt + 1
    let l := l.withArtifacts { a with ciFixTotalAttemptsTxt := some (toString count) }
    if (s.ciFixMaxTotalAttempts : Int) < count then (l, some (.block (totalAttemptsNote s count current)))
    else (l, none)

/-! ### The chain -/

/-- The gates before the identical-failure gate; `state` is the ticket's. -/
def earlyGuards (state : State) : List (Guard CiFixGuard CiFixLocals StageOutcome) :=
  [ .reading .rateLimit fun _ => if ctx.rateLimited then some { nextState := state } else none,
    ⟨.cloneAndStatus, cloneAndStatusGuard ctx⟩,
    ⟨.transientRetry, transientRetryGuard s ctx⟩,
    .reading .repoSetting fun _ => ctx.repoSettingNote.map .block,
    .reading .upstream fun _ => ctx.upstreamNote.map .block,
    .reading .infraAccount fun _ => ctx.infraAccountNote.map .block,
    .reading .codeqlUnreadable fun _ => ctx.codeqlUnreadableNote.map .block,
    .reading .codeqlTriage fun _ => ctx.codeqlTriage ]

/-- The gates between the two that count. -/
def middleGuards : List (Guard CiFixGuard CiFixLocals StageOutcome) :=
  [ .reading .nonCodeFixable fun _ => nonCodeFixableGuard ctx,
    .reading .conflictingPr fun _ => conflictingPrGuard ctx,
    .reading .reconcile fun _ => reconcileGuard ctx,
    .reading .formatter fun _ => ctx.formatterPass,
    .reading .audit fun _ => ctx.auditPass ]

/-- `CIFixStage.run` up to the agent. -/
def ciFixGuards (state : State) : List (Guard CiFixGuard CiFixLocals StageOutcome) :=
  earlyGuards s ctx state ++ ⟨.identicalFailure, identicalFailureGuard s sha ctx⟩ ::
    (middleGuards ctx ++ [⟨.totalAttempts, totalAttemptsGuard s ctx⟩])

end Gates

/-- A pass over the ticket under `k`, with the gate that ended it; `none` when the agent is invoked. -/
def ciFixPass (env : Env) (svc : BoardId) (ctx : CiFixContext) (k : Key) (σ : Mill) :
    Mill × Option (CiFixGuard × StageOutcome) :=
  let state := match fetch env svc σ k.2 with
    | .error _ => .fixingCi
    | .ok (_, r) => r.ticket.state
  let (l, hit) := Guard.runGuards (ciFixGuards env.settings env.sha256Hex16 ctx state)
    { artifacts := (σ.workspace k).artifacts }
  let σ₁ := (σ.editArtifacts k fun _ => l.artifacts).tick
  (l.notes.foldl (fun σ note => (addHistoryNote env svc k.2 note σ).1) σ₁, hit)

/-! ## When a counter blocks -/

/-- The gates that count. -/
def COUNTER_GUARDS : List CiFixGuard := [.identicalFailure, .totalAttempts]

/-- The pass was ended by a counter, with a block. -/
def BlockedByCounter (hit : Option (CiFixGuard × StageOutcome)) : Prop :=
  ∃ tag ∈ COUNTER_GUARDS, ∃ o, hit = some (tag, o) ∧ o.nextState = .blocked

instance (hit : Option (CiFixGuard × StageOutcome)) : Decidable (BlockedByCounter hit) :=
  match hit with
  | none => .isFalse fun ⟨_, _, _, h, _⟩ => by cases h
  | some (tag, o) =>
    if h : tag ∈ COUNTER_GUARDS ∧ o.nextState = .blocked then .isTrue ⟨tag, h.1, o, rfl, h.2⟩
    else .isFalse fun ⟨_, htag, _, heq, hb⟩ => by cases heq; exact h ⟨htag, hb⟩

section Conditions

variable (s : Settings) (sha : String → String) (ctx : CiFixContext) (a : Artifacts)

/-- The failure is transient, and such failures are run again. -/
def rerunsTransient : Bool :=
  decide (0 < s.ciTransientMaxRetries) && ctx.isTransientCiFailure ctx.failingSummary

/-- A gate before the identical-failure gate ends the pass. -/
def stopsEarly : Bool :=
  ctx.rateLimited || !ctx.forgeConfigured || ctx.tokenError.isSome || !ctx.hasClone ||
    ctx.mergeConflict.isSome || decide (ctx.checkStatus ≠ .concluded (some "failure")) ||
    (rerunsTransient s ctx && decide (readCounter a.ciTransientRetryTxt < s.ciTransientMaxRetries)) ||
    ctx.repoSettingNote.isSome || ctx.upstreamNote.isSome || ctx.infraAccountNote.isSome ||
    ctx.codeqlUnreadableNote.isSome || ctx.codeqlTriage.isSome

/-- A gate between the two counters ends the pass. -/
def stopsBeforeCap : Bool :=
  ctx.nonCodeFixableCause.isSome || ctx.prConflicting || ctx.diverged || ctx.formatterPass.isSome ||
    ctx.auditPass.isSome

/-- The fingerprint of the failure is the stored one. -/
def SameFingerprint : Prop :=
  ciFailureFingerprint sha ctx.failingSummary ctx.repoId ctx.headSha = storedFingerprint a ∧
    storedFingerprint a ≠ ""

/-- One more pass takes the identical-failure counter to its ceiling, or beyond. -/
def IdenticalTrips : Prop :=
  s.ciFixMaxIdenticalFailures ≠ 0 ∧ SameFingerprint sha ctx a ∧
    (s.ciFixMaxIdenticalFailures : Int) ≤ readCounter a.ciIdenticalFailureCountTxt + 1

/-- The identical-failure counter is one short of its ceiling. -/
def OneShort : Prop :=
  s.ciFixMaxIdenticalFailures ≠ 0 ∧ SameFingerprint sha ctx a ∧
    readCounter a.ciIdenticalFailureCountTxt + 1 = s.ciFixMaxIdenticalFailures

/-- The attempts on this set of failing checks are used up. -/
def AttemptsSpent : Prop :=
  s.ciFixMaxTotalAttempts ≠ 0 ∧ extractCheckNames ctx.failingSummary = storedCheckset a ∧
    (s.ciFixMaxTotalAttempts : Int) ≤ readCounter a.ciFixTotalAttemptsTxt

end Conditions

section Pass

variable {s : Settings} {sha : String → String} {ctx : CiFixContext} {a b : Artifacts} {l : CiFixLocals}
  {state : State}

/-- The gate leaves the files alone or ends the pass. -/
theorem cloneAndStatusGuard_cases :
    cloneAndStatusGuard ctx l = (l, none) ∧ ctx.forgeConfigured = true ∧ ctx.tokenError = none ∧
        ctx.hasClone = true ∧ ctx.mergeConflict = none ∧ ctx.checkStatus = .concluded (some "failure") ∨
      (cloneAndStatusGuard ctx l).2.isSome = true ∧ ¬ (ctx.forgeConfigured = true ∧
        ctx.tokenError = none ∧ ctx.hasClone = true ∧ ctx.mergeConflict = none ∧
        ctx.checkStatus = .concluded (some "failure")) := by
  unfold cloneAndStatusGuard
  cases hforge : ctx.forgeConfigured with
  | false => exact .inr ⟨rfl, fun h => absurd h.1 (by simp)⟩
  | true =>
    cases htoken : ctx.tokenError with
    | some e => exact .inr ⟨rfl, fun h => absurd h.2.1 (by simp)⟩
    | none =>
      cases hclone : ctx.hasClone with
      | false => exact .inr ⟨rfl, fun h => absurd h.2.2.1 (by simp)⟩
      | true =>
        cases hmerge : ctx.mergeConflict with
        | some o => exact .inr ⟨rfl, fun h => absurd h.2.2.2.1 (by simp)⟩
        | none =>
          cases hstatus : ctx.checkStatus with
          | raised => exact .inr ⟨rfl, fun h => absurd h.2.2.2.2 (by simp)⟩
          | noPr => exact .inr ⟨rfl, fun h => absurd h.2.2.2.2 (by simp)⟩
          | concluded conclusion =>
            dsimp only
            by_cases hfail : conclusion = some "failure"
            · subst hfail
              exact .inl ⟨rfl, rfl, rfl, rfl, rfl, rfl⟩
            · refine .inr ⟨?_, fun h => hfail (by simpa using h.2.2.2.2)⟩
              by_cases hgreen : conclusion = some "success"
              · rw [if_neg (by simp), if_neg (by simp), if_pos hgreen]
                rfl
              · rw [if_neg (by simp), if_neg (by simp), if_neg hgreen, if_neg hfail]
                rfl

theorem idle_cloneAndStatusGuard : Guard.Idle ⟨CiFixGuard.cloneAndStatus, cloneAndStatusGuard ctx⟩ := by
  intro l h
  replace h : (cloneAndStatusGuard ctx l).2 = none := h
  obtain ⟨heq, -⟩ | ⟨hsome, -⟩ := @cloneAndStatusGuard_cases ctx l
  · exact congrArg Prod.fst heq
  · rw [h] at hsome
    cases hsome

theorem idle_transientRetryGuard :
    Guard.Idle ⟨CiFixGuard.transientRetry, transientRetryGuard s ctx⟩ := by
  intro l h
  show (transientRetryGuard s ctx l).1 = l
  replace h : (transientRetryGuard s ctx l).2 = none := h
  unfold transientRetryGuard at h ⊢
  dsimp only at h ⊢
  split at h
  · cases h
  · rename_i hno
    rw [if_neg hno]

theorem idle_earlyGuards : ∀ g ∈ earlyGuards s ctx state, Guard.Idle g := by
  simp only [earlyGuards, List.forall_mem_cons]
  exact ⟨Guard.idle_reading _ _, idle_cloneAndStatusGuard, idle_transientRetryGuard,
    Guard.idle_reading _ _, Guard.idle_reading _ _, Guard.idle_reading _ _, Guard.idle_reading _ _,
    Guard.idle_reading _ _, fun g hg => absurd hg List.not_mem_nil⟩

theorem isSome_cloneAndStatusGuard :
    (cloneAndStatusGuard ctx l).2.isSome =
      (!ctx.forgeConfigured || ctx.tokenError.isSome || !ctx.hasClone || ctx.mergeConflict.isSome ||
        decide (ctx.checkStatus ≠ .concluded (some "failure"))) := by
  obtain ⟨heq, h₁, h₂, h₃, h₄, h₅⟩ | ⟨hsome, hno⟩ := @cloneAndStatusGuard_cases ctx l
  · simp [heq, h₁, h₂, h₃, h₄, h₅]
  · rw [hsome]
    by_contra hfalse
    apply hno
    have hoff := Bool.eq_false_of_not_eq_true (Ne.symm hfalse)
    simp only [Bool.or_eq_false_iff, Bool.not_eq_false', Option.isSome_eq_false_iff,
      Option.isNone_iff_eq_none, decide_eq_false_iff_not, ne_eq, not_not] at hoff
    obtain ⟨⟨⟨⟨h₁, h₂⟩, h₃⟩, h₄⟩, h₅⟩ := hoff
    exact ⟨h₁, h₂, h₃, h₄, h₅⟩

/-- The early gates report just when `stopsEarly` says so. -/
theorem isSome_earlyGuards :
    (Guard.runGuards (earlyGuards s ctx state) l).2.isSome = stopsEarly s ctx l.artifacts := by
  have htransient : (transientRetryGuard s ctx l).2.isSome = (rerunsTransient s ctx &&
      decide (readCounter l.artifacts.ciTransientRetryTxt < s.ciTransientMaxRetries)) := by
    unfold transientRetryGuard rerunsTransient
    dsimp only
    split <;> simp_all
  rw [Guard.isSome_runGuards_of_idle idle_earlyGuards]
  simp only [earlyGuards, List.any_cons, List.any_nil, Guard.reading, isSome_cloneAndStatusGuard, htransient,
    stopsEarly, Option.isSome_map, Bool.or_false, Bool.or_assoc]
  cases ctx.rateLimited <;> rfl

theorem idle_middleGuards : ∀ g ∈ middleGuards ctx, Guard.Idle g := by
  simp only [middleGuards, List.forall_mem_cons]
  exact ⟨Guard.idle_reading _ _, Guard.idle_reading _ _, Guard.idle_reading _ _, Guard.idle_reading _ _,
    Guard.idle_reading _ _, fun g hg => absurd hg List.not_mem_nil⟩

theorem isSome_middleGuards :
    (Guard.runGuards (middleGuards ctx) l).2.isSome = stopsBeforeCap ctx := by
  rw [Guard.isSome_runGuards_of_idle idle_middleGuards]
  simp only [middleGuards, List.any_cons, List.any_nil, Guard.reading, nonCodeFixableGuard,
    conflictingPrGuard, reconcileGuard, stopsBeforeCap, Option.isSome_map, Bool.or_false, Bool.or_assoc]
  cases ctx.prConflicting <;> cases ctx.diverged <;> rfl

/-! ### The counters -/

/-- At its ceiling, the identical-failure gate ends the pass, with a block unless the failure is
    transient. -/
theorem identicalFailureGuard_of_trips (h : IdenticalTrips s sha ctx l.artifacts) :
    ∃ o, (identicalFailureGuard s sha ctx l).2 = some o ∧
      (o.nextState = .blocked ↔ rerunsTransient s ctx = false) := by
  obtain ⟨hon, ⟨hfp, hne⟩, hle⟩ := h
  unfold identicalFailureGuard
  rw [if_neg hon]
  dsimp only
  rw [if_pos ⟨hfp, hne⟩, if_pos hle]
  cases hre : rerunsTransient s ctx with
  | true =>
      rw [if_pos (by simpa [rerunsTransient] using hre)]
      exact ⟨.repoll, rfl, by simp⟩
  | false =>
      rw [if_neg (by simpa [rerunsTransient] using hre)]
      exact ⟨_, rfl, by simp⟩

/-- Below its ceiling, it lets the pass go on, and leaves the attempts alone. -/
theorem identicalFailureGuard_of_not_trips (h : ¬ IdenticalTrips s sha ctx l.artifacts) :
    (identicalFailureGuard s sha ctx l).2 = none ∧
      (identicalFailureGuard s sha ctx l).1.artifacts.ciFixTotalAttemptsTxt =
        l.artifacts.ciFixTotalAttemptsTxt ∧
      (identicalFailureGuard s sha ctx l).1.artifacts.ciFixAttemptChecksetTxt =
        l.artifacts.ciFixAttemptChecksetTxt := by
  unfold identicalFailureGuard
  by_cases hon : s.ciFixMaxIdenticalFailures = 0
  · rw [if_pos hon]
    exact ⟨rfl, rfl, rfl⟩
  · rw [if_neg hon]
    dsimp only
    by_cases hsame : SameFingerprint sha ctx l.artifacts
    · have hlt : ¬ (s.ciFixMaxIdenticalFailures : Int) ≤
          readCounter l.artifacts.ciIdenticalFailureCountTxt + 1 := fun hle => h ⟨hon, hsame, hle⟩
      obtain ⟨hfp, hne⟩ := hsame
      rw [if_pos ⟨hfp, hne⟩, if_neg hlt]
      exact ⟨rfl, rfl, rfl⟩
    · have hother : ¬ (ciFailureFingerprint sha ctx.failingSummary ctx.repoId ctx.headSha =
          storedFingerprint l.artifacts ∧ storedFingerprint l.artifacts ≠ "") := hsame
      rw [if_neg hother]
      exact ⟨rfl, rfl, rfl⟩

/-- The cap blocks once the attempts are spent. -/
theorem totalAttemptsGuard_spec :
    (AttemptsSpent s ctx l.artifacts → ∃ note, (totalAttemptsGuard s ctx l).2 = some (.block note)) ∧
    (¬ AttemptsSpent s ctx l.artifacts → (totalAttemptsGuard s ctx l).2 = none) := by
  unfold totalAttemptsGuard
  by_cases hon : s.ciFixMaxTotalAttempts = 0
  · rw [if_pos hon]
    exact ⟨fun h => absurd hon h.1, fun _ => rfl⟩
  · rw [if_neg hon]
    dsimp only
    by_cases hset : extractCheckNames ctx.failingSummary = storedCheckset l.artifacts
    · rw [if_neg (not_not.2 hset)]
      constructor
      · rintro ⟨-, -, hle⟩
        rw [if_pos (by omega)]
        exact ⟨_, rfl⟩
      · intro h
        have hlt : ¬ (s.ciFixMaxTotalAttempts : Int) ≤ readCounter l.artifacts.ciFixTotalAttemptsTxt :=
          fun hle => h ⟨hon, hset, hle⟩
        rw [if_neg (by omega)]
    · -- another set of checks starts a new count
      rw [if_pos hset]
      have hzero : readCounter (some "0") = 0 := by decide
      dsimp only
      rw [hzero, if_neg (by omega)]
      exact ⟨fun h => absurd h.2.1 hset, fun _ => rfl⟩

/-- Other gates do not count. -/
theorem not_blockedByCounter {gs : List (Guard CiFixGuard CiFixLocals StageOutcome)}
    {r : CiFixGuard × StageOutcome} (hrun : (Guard.runGuards gs l).2 = some r)
    (hgs : ∀ g ∈ gs, g.tag ∉ COUNTER_GUARDS) : ¬ BlockedByCounter (some r) := by
  rintro ⟨tag, htag, o, heq, -⟩
  cases heq
  obtain ⟨g, hg, hgt⟩ := Guard.tag_mem_of_runGuards hrun
  exact hgs g hg (hgt ▸ htag)

/-- After the identical-failure gate. -/
theorem blockedByCounter_tail :
    BlockedByCounter
        (Guard.runGuards (middleGuards ctx ++ [⟨.totalAttempts, totalAttemptsGuard s ctx⟩]) l).2 ↔
      stopsBeforeCap ctx = false ∧ AttemptsSpent s ctx l.artifacts := by
  rw [Guard.runGuards_append]
  have hmiddle := @isSome_middleGuards ctx l
  cases hrun : Guard.runGuards (middleGuards ctx) l with
  | mk l₁ hit =>
    rw [hrun] at hmiddle
    cases hit with
    | some r =>
      have hno : ¬ BlockedByCounter (some r) :=
        not_blockedByCounter (congrArg Prod.snd hrun) (by simp [middleGuards, Guard.reading, COUNTER_GUARDS])
      rw [← hmiddle]
      exact ⟨fun h => absurd h hno, fun h => by cases h.1⟩
    | none =>
      have hl₁ : l₁ = l := by
        have := Guard.fst_runGuards_of_idle (@idle_middleGuards ctx) (congrArg Prod.snd hrun)
        rwa [hrun] at this
      subst hl₁
      rw [← hmiddle]
      dsimp only
      obtain ⟨hspent, hleft⟩ := @totalAttemptsGuard_spec s ctx l₁
      by_cases h : AttemptsSpent s ctx l₁.artifacts
      · obtain ⟨note, hnote⟩ := hspent h
        rw [Guard.runGuards_cons_some hnote]
        exact ⟨fun _ => ⟨rfl, h⟩, fun _ => ⟨.totalAttempts, by decide, _, rfl, rfl⟩⟩
      · rw [Guard.runGuards_cons_none (hleft h)]
        constructor
        · rintro ⟨tag, -, o, heq, -⟩
          cases heq
        · exact fun hspent => absurd hspent.2 h

/-- **When a counter blocks a pass**: it gets as far as the counter, and the counter is used up. -/
theorem blockedByCounter_iff :
    BlockedByCounter (Guard.runGuards (ciFixGuards s sha ctx state) l).2 ↔
      stopsEarly s ctx l.artifacts = false ∧
        (IdenticalTrips s sha ctx l.artifacts → rerunsTransient s ctx = false) ∧
        (¬ IdenticalTrips s sha ctx l.artifacts →
          stopsBeforeCap ctx = false ∧ AttemptsSpent s ctx l.artifacts) := by
  unfold ciFixGuards
  rw [Guard.runGuards_append]
  have hearly := @isSome_earlyGuards s ctx l state
  cases hrun : Guard.runGuards (earlyGuards s ctx state) l with
  | mk l₁ hit =>
    rw [hrun] at hearly
    cases hit with
    | some r =>
      have hno : ¬ BlockedByCounter (some r) :=
        not_blockedByCounter (congrArg Prod.snd hrun) (by simp [earlyGuards, Guard.reading, COUNTER_GUARDS])
      rw [← hearly]
      exact ⟨fun h => absurd h hno, fun h => by cases h.1⟩
    | none =>
      have hl₁ : l₁ = l := by
        have := Guard.fst_runGuards_of_idle (@idle_earlyGuards s ctx state) (congrArg Prod.snd hrun)
        rwa [hrun] at this
      subst hl₁
      rw [← hearly]
      dsimp only
      by_cases htrips : IdenticalTrips s sha ctx l₁.artifacts
      · obtain ⟨o, ho, hblock⟩ := identicalFailureGuard_of_trips htrips
        rw [Guard.runGuards_cons_some ho]
        constructor
        · rintro ⟨tag, -, o', heq, hb⟩
          cases heq
          exact ⟨rfl, fun _ => hblock.1 hb, fun h => absurd htrips h⟩
        · rintro ⟨-, hre, -⟩
          exact ⟨.identicalFailure, by decide, o, rfl, hblock.2 (hre htrips)⟩
      · obtain ⟨hnone, htotal, hset⟩ := identicalFailureGuard_of_not_trips htrips
        have hspent : AttemptsSpent s ctx (identicalFailureGuard s sha ctx l₁).1.artifacts ↔
            AttemptsSpent s ctx l₁.artifacts := by
          simp only [AttemptsSpent, storedCheckset, htotal, hset]
        rw [Guard.runGuards_cons_none hnone, blockedByCounter_tail, hspent]
        exact ⟨fun h => ⟨rfl, fun ht => absurd ht htrips, fun _ => h⟩, fun h => h.2.2 htrips⟩

/-! ## The pass after a resume -/

/-- What the reset leaves of the identical-failure counter trips only where it was one short. -/
theorem identicalTrips_reset :
    IdenticalTrips s sha ctx (resetTrippedCiFixGuards s a).1 ↔ OneShort s sha ctx a := by
  cases hceil : atCeiling a.ciIdenticalFailureCountTxt s.ciFixMaxIdenticalFailures with
  | true =>
      have hgone : storedFingerprint (resetTrippedCiFixGuards s a).1 = "" := by
        simp only [storedFingerprint, resetTrippedCiFixGuards, hceil, if_true]
        decide
      simp only [atCeiling, Bool.and_eq_true, decide_eq_true_eq] at hceil
      constructor
      · rintro ⟨-, ⟨-, hne⟩, -⟩
        exact absurd hgone hne
      · rintro ⟨-, -, hshort⟩
        omega
  | false =>
      have hcount : (resetTrippedCiFixGuards s a).1.ciIdenticalFailureCountTxt =
          a.ciIdenticalFailureCountTxt := by simp [resetTrippedCiFixGuards, hceil]
      have hfp : storedFingerprint (resetTrippedCiFixGuards s a).1 = storedFingerprint a := by
        simp [storedFingerprint, resetTrippedCiFixGuards, hceil]
      simp only [atCeiling, Bool.and_eq_false_iff, decide_eq_false_iff_not] at hceil
      simp only [IdenticalTrips, OneShort, SameFingerprint, hcount, hfp]
      constructor
      · rintro ⟨hon, hsame, hle⟩
        exact ⟨hon, hsame, by omega⟩
      · rintro ⟨hon, hsame, hshort⟩
        exact ⟨hon, hsame, by omega⟩

/-- A resume to `fixing_ci` resets the counters of the CI loop and no other file. -/
theorem artifacts_resumeBlocked {env : Env} {svc : BoardId} {σ : Mill} {tid : TicketId} {note : String}
    {k : Key} {r : TicketRecord} (hf : fetch env svc σ tid = .ok (k, r))
    (hb : r.ticket.state = .blocked) (hfrom : r.ticket.blockedFrom = some .fixingCi) :
    ((resumeBlocked env svc tid note σ).1.workspace k).artifacts =
      (resetTrippedCiFixGuards env.settings (σ.workspace k).artifacts).1 := by
  have hok : resumeRefusal tid r.ticket = none := by
    have hedge : canTransition .blocked .fixingCi (some .fixingCi) none = true := by decide
    simp [resumeRefusal, hb, hfrom, hedge]
  simp only [resumeBlocked, hf, hok, hfrom, Option.getD_some]
  show ((Function.update σ.workspaces k _) k |>.getD {}).artifacts = _
  rw [Function.update_self]
  rfl

/-- **Resume and the ci_fix counters.** After `resume_blocked`, the next pass over a ticket blocked from
    `fixing_ci` is stopped by neither counter exactly if another gate ends it first, or the
    identical-failure counter is not one short of its ceiling for this fingerprint (the failure being
    transient otherwise) and the attempts on its set of checks are not spent. -/
theorem resume_rearms_ci_fix {env : Env} {svc : BoardId} {ctx : CiFixContext} {σ : Mill} {tid : TicketId}
    {note : String} {k : Key} {r : TicketRecord} (hf : fetch env svc σ tid = .ok (k, r))
    (hb : r.ticket.state = .blocked) (hfrom : r.ticket.blockedFrom = some .fixingCi) :
    ¬ BlockedByCounter (ciFixPass env svc ctx k (resumeBlocked env svc tid note σ).1).2 ↔
      stopsEarly env.settings ctx (σ.workspace k).artifacts = true ∨
      (OneShort env.settings env.sha256Hex16 ctx (σ.workspace k).artifacts ∧
        rerunsTransient env.settings ctx = true) ∨
      (¬ OneShort env.settings env.sha256Hex16 ctx (σ.workspace k).artifacts ∧
        (stopsBeforeCap ctx = true ∨ ¬ AttemptsSpent env.settings ctx (σ.workspace k).artifacts)) := by
  unfold ciFixPass
  dsimp only
  rw [blockedByCounter_iff]
  dsimp only
  rw [artifacts_resumeBlocked hf hb hfrom, identicalTrips_reset]
  have hearly : stopsEarly env.settings ctx
      (resetTrippedCiFixGuards env.settings (σ.workspace k).artifacts).1 =
        stopsEarly env.settings ctx (σ.workspace k).artifacts := rfl
  have hspent : AttemptsSpent env.settings ctx
      (resetTrippedCiFixGuards env.settings (σ.workspace k).artifacts).1 ↔
        AttemptsSpent env.settings ctx (σ.workspace k).artifacts := Iff.rfl
  rw [hearly, hspent]
  cases stopsEarly env.settings ctx (σ.workspace k).artifacts <;>
    cases rerunsTransient env.settings ctx <;> cases stopsBeforeCap ctx <;> simp
  all_goals tauto

end Pass

/-! ## A resume that the cap outlives -/

/-- One check fails, whatever is pushed. -/
def lintFailure (head : String) : CiFixContext :=
  { failingSummary := "## ❌ FAILED: lint", headSha := head }

/-- The standalone mill, with the hashes of the texts the passes below fingerprint. -/
def hashingHeads : Env :=
  { Env.standalone with
    sha256Hex16 := fun text =>
      if text = "\nh1\n## ❌ FAILED: lint" then "647552116d7848ab"
      else if text = "\nh2\n## ❌ FAILED: lint" then "75f62018191298c0"
      else if text = "\nh3\n## ❌ FAILED: lint" then "7cdaa2c3cfe919f1"
      else if text = "\nh4\n## ❌ FAILED: lint" then "1d2230b400445fcf"
      else "e3b0c44298fc1c14" }

/-- A pass over `t-1`, then some calls. -/
def passThen (head : String) (ops : List Op) (σ : Mill) : Mill :=
  runOps hashingHeads (ciFixPass hashingHeads "board" (lintFailure head) ("board", "t-1") σ).1 ops

/-- To the CI loop, and two attempts of the agent that change nothing. -/
def twoAttempts : Mill :=
  let enter := runOps hashingHeads .empty
    [.create "board" { id := "t-1", title := "ticket" }, .transition "board" "t-1" .ready none none,
      .transition "board" "t-1" .deliverable none none,
      .transition "board" "t-1" .implementComplete none none,
      .transition "board" "t-1" .fixingCi none none]
  let again : List Op := [.transition "board" "t-1" .implementComplete none none,
    .transition "board" "t-1" .fixingCi none none]
  passThen "h2" again (passThen "h1" again enter)

/-- The third pass meets the cap. -/
def cappedMill : Mill :=
  passThen "h3" [.transition "board" "t-1" .blocked (some "ci-fix reached its hard attempt cap (2)") none]
    twoAttempts

/-- The cap blocks the third pass, and the first pass after the resume again, before the agent runs. -/
theorem cap_outlives_resume :
    BlockedByCounter (ciFixPass hashingHeads "board" (lintFailure "h3") ("board", "t-1") twoAttempts).2 ∧
    (fetch hashingHeads "board" cappedMill "t-1").toOption.map (fun kr =>
      (kr.2.ticket.state, kr.2.ticket.blockedFrom)) = some (.blocked, some .fixingCi) ∧
    BlockedByCounter (ciFixPass hashingHeads "board" (lintFailure "h4") ("board", "t-1")
      (resumeBlocked hashingHeads "board" "t-1" "lint is fixed upstream" cappedMill).1).2 := by
  decide +kernel

/-- One attempt was made of two, and a block that has nothing to do with it. -/
def attemptedMill : Mill :=
  passThen "h1" [.transition "board" "t-1" .implementComplete none none, .transition "board" "t-1" .fixingCi none none,
      .transition "board" "t-1" .blocked (some "account blocked") none]
    (runOps hashingHeads .empty [.create "board" { id := "t-1", title := "ticket", initialState := some .fixingCi }])

/-- The second attempt is made after the resume. -/
theorem resume_rearms_ci_fix_attempted :
    ∃ r, fetch hashingHeads "board" attemptedMill "t-1" = .ok (("board", "t-1"), r) ∧
      readCounter (attemptedMill.workspace ("board", "t-1")).artifacts.ciFixTotalAttemptsTxt = 1 ∧
      ¬ BlockedByCounter (ciFixPass hashingHeads "board" (lintFailure "h2") ("board", "t-1")
        (resumeBlocked hashingHeads "board" "t-1" "" attemptedMill).1).2 := by
  obtain ⟨r, hf⟩ : ∃ r, fetch hashingHeads "board" attemptedMill "t-1" = .ok (("board", "t-1"), r) := ⟨_, rfl⟩
  refine ⟨r, hf, by decide +kernel, (resume_rearms_ci_fix hf ?_ ?_).2 (.inr (.inr ?_))⟩
  · cases hf; rfl
  · cases hf; rfl
  · exact ⟨fun h => absurd h.2.1.1 (by decide +kernel), .inr fun h => absurd h.2.2 (by decide +kernel)⟩

end Stages
end RobotsixMill
