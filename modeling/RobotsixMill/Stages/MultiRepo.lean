import RobotsixMill.Stages.HumanApproval
import RobotsixMill.Stages.Rebase

/-!
# `Stages.MultiRepo` — a poll of a ticket with pull requests in several repositories

`_run_multi_repo`: for a ticket whose pull requests are listed in `pr_urls.json` the merge stage asks the
forge about each of them and sums the answers up, whatever the state of the ticket. What is to be repaired
is repaired within the poll, one repository at a time: `_multi_repo_rebase` for a conflict,
`_multi_repo_fix_ci` for failing checks, with attempts counted in files of the repository's own. What the
forge, git and the agents answer for a repository is in `RepoAnswers`; the registry of repositories does not
change during a poll. Merges the forge refuses count as merged until the next poll.

- `runMultiRepo` — the poll;
- `runMultiRepo_move` — where a poll can send the ticket, and on which answers.
-/

namespace RobotsixMill
namespace Stages
open RobotsixMill.Core Lib

/-! ## What a poll finds -/

/-- What one recovery of a repository finds around it. -/
structure RecoveryRun where
  hasClone : Bool := true
  /-- `reconcile_with_remote_pr` reports `DIVERGED`. -/
  diverged : Bool := false
  /-- The agent reports `DONE`. -/
  ok : Bool := true
  /-- The local head is the one on the remote. -/
  nothingToPush : Bool := false
  /-- `post_push_check`, or its error. -/
  check : Except String PostPushResult := .ok .pass

/-- What one run of the ci-fix recovery finds besides. -/
structure CiFixRun extends RecoveryRun where
  /-- `check_status`, after the refresh of the branch. -/
  checkStatus : Answer CiStatus := .nothing
  /-- `_check_upstream_ci_breakage`. -/
  upstreamBlock : Option String := none
  /-- The triage agent finds an alert to dismiss, and the forge dismisses it. -/
  triageDismisses : Bool := false
  /-- `_codeql_block_note`. -/
  codeqlBlockNote : Option String := none

/-- What one poll finds about one entry of the manifest. -/
structure RepoAnswers where
  /-- `get_repo_config` knows the repository. -/
  known : Bool := true
  prStatus : Answer PrStatus := .nothing
  prStatusByUrl : Answer PrStatus := .nothing
  checkStatus : Answer CiStatus := .nothing
  review : Answer ReviewStatus := .nothing
  rebase : RecoveryRun := {}
  ciFix : CiFixRun := {}

structure MultiRepoContext where
  /-- `rate_limit.should_skip`. -/
  rateLimited : Bool := false
  /-- The answers, by the position of the entry in the manifest. -/
  repos : Nat → RepoAnswers := fun _ => {}
  /-- `_auto_merge_eligible`, without a pull request: the reason when the ticket is not. -/
  ineligible : Option String := none

/-- The status of a repository's pull request. -/
inductive RepoStatus
  | merged | closedUnmerged | conflicting | failingCi | green | pending | prMissing
deriving DecidableEq, Repr

/-- An entry with its status. -/
structure Surveyed where
  repoId : String
  url : String
  status : RepoStatus
  answers : RepoAnswers

/-- The entries with their answers. -/
def answered (ctx : MultiRepoContext) (entries : List PrEntry) : List (PrEntry × RepoAnswers) :=
  entries.zipIdx.map fun x => (x.1, ctx.repos x.2)

/-! ## Counters of a repository -/

def rebaseCount (repoId : String) : String := s!"rebase_{repoId}.count"
def ciFixCount (repoId : String) : String := s!"ci_fix_{repoId}.count"
def ciFixCycles (repoId : String) : String := s!"ci_fix_{repoId}_cycles.txt"

def readRepoCounter (a : Artifacts) (name : String) : Int := readCounter (a.repoCounters.lookup name)

def writeRepoCounter (a : Artifacts) (name : String) (n : Int) : Artifacts :=
  { a with repoCounters := (name, toString n) :: a.repoCounters.filter fun c => c.1 ≠ name }

/-! ## One repository -/

/-- The pull request by the branch, or else by the recorded link. -/
def lookupPr (e : PrEntry) (r : RepoAnswers) : Answer PrStatus :=
  match r.prStatus with
  | .nothing => if e.url = "" then .nothing else r.prStatusByUrl
  | answer => answer

/-- `(ci or {}).get("conclusion")`; `none` stands for an error. -/
def conclusionOf (answer : Answer CiStatus) : Option (Option String) :=
  match answer with
  | .raised => none
  | .nothing => some none
  | .found status => some status.conclusion

/-- The status of one entry. -/
def repoStatus (e : PrEntry) (r : RepoAnswers) : RepoStatus :=
  match lookupPr e r with
  | .raised => .pending
  | .nothing => .prMissing
  | .found pr =>
    if pr.merged then .merged
    else if pr.state = "closed" then .closedUnmerged
    else if pr.mergeable = some false then .conflicting
    else
      match conclusionOf r.checkStatus with
      | none => .pending
      | some conclusion =>
        if conclusion = some "failure" then .failingCi
        else if ciTrulyGreen conclusion pr then .green
        else .pending

def surveyed (e : PrEntry) (r : RepoAnswers) : Surveyed where
  repoId := e.repoId
  url := match lookupPr e r with
    | .found pr => pr.url
    | _ => e.url
  status := repoStatus e r
  answers := r

/-- The loop over the entries: it stops at a repository that is not registered. -/
def surveyRepos : List (PrEntry × RepoAnswers) → Artifacts → Artifacts × Except StageOutcome (List Surveyed)
  | [], a => (a, .ok [])
  | (e, r) :: rest, a =>
    if r.known = false then
      (a, .error (.block s!"unknown repo_id '{e.repoId}' in pr_urls.json — resumable"))
    else
      let a := if repoStatus e r = .green then writeRepoCounter a (ciFixCycles e.repoId) 0 else a
      match surveyRepos rest a with
      | (a, .error outcome) => (a, .error outcome)
      | (a, .ok statuses) => (a, .ok (surveyed e r :: statuses))

section Poll

variable (s : Settings) (t : Ticket)

/-! ## Recoveries -/

/-- `str(PostPushResult)`. -/
def PostPushResult.value : PostPushResult → String
  | .pass => "pass"
  | .notLanded => "not_landed"
  | .foreignDivergence => "foreign_divergence"
  | .unavailable => "unavailable"

/-- What both recoveries do once the agent is back. -/
def settleRecovery (what counter : String) (repoId : String) (attempt : Int) (run : RecoveryRun)
    (a : Artifacts) : Artifacts × StageOutcome :=
  let counted := writeRepoCounter a counter attempt
  if run.diverged then (a, .block s!"{repoId}: {divergedNote}")
  else if run.ok then
    if run.nothingToPush then (counted, { nextState := t.state })
    else
      match run.check with
      | .ok .pass => (writeRepoCounter a counter 0, { nextState := t.state })
      | .ok check => (counted, .block s!"{what} for {repoId} post-check failed: {check.value}")
      | .error e => (counted, .block s!"{what} for {repoId} post-check error: {e}")
  else (counted, { nextState := t.state })

/-- `_multi_repo_rebase`. -/
def multiRepoRebase (r : Surveyed) (a : Artifacts) : Artifacts × StageOutcome :=
  if r.answers.rebase.hasClone = false then (a, .block s!"clone for {r.repoId} missing — re-run implement")
  else
    let attempt := readRepoCounter a (rebaseCount r.repoId) + 1
    if s.rebaseMaxAttempts < attempt then
      (writeRepoCounter a (rebaseCount r.repoId) 0,
        .block (s!"rebase for {r.repoId} failed after {s.rebaseMaxAttempts} attempt(s) — " ++
          "manual conflict resolution required"))
    else settleRecovery t "rebase" (rebaseCount r.repoId) r.repoId attempt r.answers.rebase a

/-- `_CODQL_CHECK_NAMES`. -/
def CODQL_CHECK_NAMES : List String := ["codeql", "code-scanning", "code scanning"]

/-- `_only_codeql_failing`. -/
def onlyCodeqlFailing (failing : List FailingCheck) : Bool :=
  !failing.isEmpty && failing.all fun check =>
    CODQL_CHECK_NAMES.any fun token => contains (lower check.name) token

/-- `_try_multi_codeql_fp_triage`: once for a ticket. -/
def tryMultiCodeqlFpTriage (failing : List FailingCheck) (run : CiFixRun) (a : Artifacts) :
    Artifacts × Option StageOutcome :=
  if s.codeqlFpTriageEnabled = false ∨ onlyCodeqlFailing failing = false ∨ a.codeqlFpTriageDone then (a, none)
  else
    let a := { a with codeqlFpTriageDone := true }
    if run.triageDismisses then (a, some { nextState := t.state }) else (a, none)

/-- The note of a ci-fix recovery that gives up. -/
def ciFixBlockNote (r : Surveyed) (note : String) : String :=
  match r.answers.ciFix.codeqlBlockNote with
  | some codeqlNote => s!"[{r.repoId}] {codeqlNote}"
  | none => note

/-- `_multi_repo_fix_ci` from the cap on attempts on. -/
def attemptCiFix (r : Surveyed) (failed : Bool) (failing : List FailingCheck) (a : Artifacts) :
    Artifacts × StageOutcome :=
  let run := r.answers.ciFix
  let attempt := readRepoCounter a (ciFixCount r.repoId) + 1
  if s.ciFixMaxAttempts < attempt then
    (writeRepoCounter a (ciFixCount r.repoId) 0,
      .block (ciFixBlockNote r (s!"ci fix for {r.repoId} failed after {s.ciFixMaxAttempts} attempt(s) — " ++
        "manual intervention required")))
  else if failed then
    let cycles := readRepoCounter a (ciFixCycles r.repoId)
    if 0 < s.ciFixMaxCycles ∧ s.ciFixMaxCycles ≤ cycles then
      match tryMultiCodeqlFpTriage s t failing run (writeRepoCounter a (ciFixCycles r.repoId) 0) with
      | (a, some outcome) => (a, outcome)
      | (a, none) =>
        (a, .block (ciFixBlockNote r (s!"ci fix for {r.repoId} exhausted hard ceiling of " ++
          s!"{s.ciFixMaxCycles} cycle(s) without turning CI green " ++
          "— manual intervention required")))
    else
      settleRecovery t "ci fix" (ciFixCount r.repoId) r.repoId attempt run.toRecoveryRun
        (writeRepoCounter a (ciFixCycles r.repoId) (cycles + 1))
  else settleRecovery t "ci fix" (ciFixCount r.repoId) r.repoId attempt run.toRecoveryRun a

/-- `_multi_repo_fix_ci`. -/
def multiRepoFixCi (r : Surveyed) (a : Artifacts) : Artifacts × StageOutcome :=
  let run := r.answers.ciFix
  if run.hasClone = false then (a, .block s!"clone for {r.repoId} missing — re-run implement")
  else
    match conclusionOf run.checkStatus with
    | none => (a, { nextState := t.state })
    | some conclusion =>
      if conclusion = some "success" then
        (writeRepoCounter a (ciFixCycles r.repoId) 0, { nextState := t.state })
      else
        let failing := match run.checkStatus with
          | .found status => status.failing
          | _ => []
        if conclusion = some "failure" then
          match run.upstreamBlock with
          | some reason => (a, .block s!"[{r.repoId}] {reason}")
          | none =>
            match tryMultiCodeqlFpTriage s t failing run a with
            | (a, some outcome) => (a, outcome)
            | (a, none) => attemptCiFix s t r true failing a
        else attemptCiFix s t r false failing a

/-! ## Green pull requests -/

/-- The first of the green pull requests whose review requests changes. -/
def requestedChanges : List Surveyed → Artifacts → Artifacts × Option StageOutcome
  | [], a => (a, none)
  | r :: rest, a =>
    match reviewChangesRequestedOutcome s r.answers.review "" a with
    | (a, some outcome) => (a, some outcome)
    | (a, none) => requestedChanges rest a

/-- `_multi_repo_auto_merge`: merged or not, the next poll looks again. -/
def multiRepoAutoMerge (ctx : MultiRepoContext) (green : List Surveyed) (a : Artifacts) :
    Artifacts × StageOutcome :=
  match requestedChanges s green a with
  | (a, some outcome) => (a, outcome)
  | (a, none) =>
    match ctx.ineligible with
    | some reason => (a, { nextState := .humanMrApproval, note := some reason })
    | none => (a, { nextState := t.state })

/-! ## The poll -/

def withStatus (status : RepoStatus) (statuses : List Surveyed) : List Surveyed :=
  statuses.filter fun r => r.status = status

/-- `_run_multi_repo` once every pull request is merged. -/
def finishMultiRepo (statuses : List Surveyed) (a : Artifacts) : Artifacts × StageOutcome :=
  let lines := ["# Merge (multi-repo)", "repos:"] ++
    statuses.map fun r => s!"  - {r.repoId}: merged: {r.url}"
  let urls := ", ".intercalate (statuses.map Surveyed.url)
  ({ a with mergeMd := some ("\n".intercalate lines ++ "\n") },
    { nextState := .done, note := some s!"all {statuses.length} PRs merged: {urls}" })

/-- `_run_multi_repo` with a pull request that is not found, and none that could still change. -/
def countMissingPr (missing : List Surveyed) (a : Artifacts) : Artifacts × StageOutcome :=
  let maxPolls := s.mergePrMissingMaxPolls
  if maxPolls = 0 then (a, { nextState := t.state })
  else
    let count := readCounter a.prMissingPollsTxt + 1
    let a := { a with prMissingPollsTxt := some (toString count) }
    if (maxPolls : Int) ≤ count then
      let ids := ", ".intercalate (missing.map Surveyed.repoId)
      (a, .block (s!"no PR found for {ids} for {maxPolls} consecutive merge " ++
        "polls — the PRs may live in a repo other than the one " ++
        "recorded for this ticket, or the branches were never " ++
        "pushed; manual intervention required"))
    else (a, { nextState := t.state })

/-- `_run_multi_repo` from the statuses on. -/
def aggregate (ctx : MultiRepoContext) (statuses : List Surveyed) (a : Artifacts) : Artifacts × StageOutcome :=
  match withStatus .closedUnmerged statuses with
  | first :: _ => (a, .block s!"PR closed without merge in {first.repoId}: {first.url} — resumable")
  | [] =>
    match withStatus .conflicting statuses with
    | r :: _ => multiRepoRebase s t r { a with prMissingPollsTxt := some "0" }
    | [] =>
      match withStatus .failingCi statuses with
      | r :: _ => multiRepoFixCi s t r { a with prMissingPollsTxt := some "0" }
      | [] =>
        if statuses ≠ [] ∧ ∀ r ∈ statuses, r.status = .merged then finishMultiRepo statuses a
        else
          let green := withStatus .green statuses
          let pending := withStatus .pending statuses
          let missing := withStatus .prMissing statuses
          if green ≠ [] ∧ pending = [] ∧ missing = [] then multiRepoAutoMerge s t ctx green a
          else if missing ≠ [] ∧ pending = [] then countMissingPr s t missing a
          else ({ a with prMissingPollsTxt := some "0" }, { nextState := t.state })

/-- `_run_multi_repo`. -/
def runMultiRepo (ctx : MultiRepoContext) (entries : List PrEntry) (a : Artifacts) : Artifacts × StageOutcome :=
  if ctx.rateLimited then (a, { nextState := t.state })
  else
    match surveyRepos (answered ctx entries) a with
    | (a, .error outcome) => (a, outcome)
    | (a, .ok statuses) => aggregate s t ctx statuses a

end Poll

/-! ## What the answers show -/

section Shown

variable (s : Settings) (e : PrEntry) (r : RepoAnswers)

/-- The forge has this pull request for the branch, or else for the recorded link. -/
def ShowsPr (pr : PrStatus) : Prop :=
  r.prStatus = .found pr ∨ (r.prStatus = .nothing ∧ e.url ≠ "" ∧ r.prStatusByUrl = .found pr)

/-- The pull request is merged. -/
def ShowsMerged : Prop := ∃ pr, ShowsPr e r pr ∧ pr.merged = true

/-- The pull request is open, does not conflict, and its checks are green. -/
def ShowsGreen : Prop :=
  ∃ pr status, ShowsPr e r pr ∧ pr.merged = false ∧ pr.state ≠ "closed" ∧ pr.mergeable ≠ some false ∧
    r.checkStatus = .found status ∧ ciTrulyGreen status.conclusion pr = true

theorem lookupPr_eq_found {pr : PrStatus} : lookupPr e r = .found pr ↔ ShowsPr e r pr := by
  unfold lookupPr ShowsPr
  cases h : r.prStatus with
  | raised => simp
  | nothing =>
    by_cases hurl : e.url = ""
    · simp [hurl]
    · simp [hurl]
  | found pr' => simp

theorem repoStatus_eq_merged : repoStatus e r = .merged ↔ ShowsMerged e r := by
  unfold ShowsMerged repoStatus
  constructor
  · intro h
    split at h
    · cases h
    · cases h
    · rename_i pr hpr
      refine ⟨pr, (lookupPr_eq_found e r).1 hpr, ?_⟩
      by_contra hopen
      rw [if_neg hopen] at h
      revert h
      repeat' split
      all_goals (intro h; cases h)
  · rintro ⟨pr, hpr, hmerged⟩
    rw [(lookupPr_eq_found e r).2 hpr]
    dsimp only
    rw [if_pos hmerged]

theorem repoStatus_eq_green : repoStatus e r = .green ↔ ShowsGreen e r := by
  unfold ShowsGreen repoStatus
  constructor
  · intro h
    split at h
    · cases h
    · cases h
    · rename_i pr hpr
      by_cases hmerged : pr.merged = true
      · rw [if_pos hmerged] at h
        cases h
      rw [if_neg hmerged] at h
      by_cases hclosed : pr.state = "closed"
      · rw [if_pos hclosed] at h
        cases h
      rw [if_neg hclosed] at h
      by_cases hconflict : pr.mergeable = some false
      · rw [if_pos hconflict] at h
        cases h
      rw [if_neg hconflict] at h
      cases hcheck : r.checkStatus with
      | raised =>
        rw [hcheck] at h
        cases h
      | nothing =>
        rw [hcheck] at h
        cases h
      | found status =>
        rw [hcheck] at h
        dsimp only [conclusionOf] at h
        split at h
        · cases h
        · split at h
          · rename_i hgreen
            exact ⟨pr, status, (lookupPr_eq_found e r).1 hpr, Bool.eq_false_of_not_eq_true hmerged, hclosed,
              hconflict, rfl, hgreen⟩
          · cases h
  · rintro ⟨pr, status, hpr, hmerged, hclosed, hconflict, hcheck, hgreen⟩
    have hsuccess : status.conclusion ≠ some "failure" := by
      intro hfail
      rw [hfail] at hgreen
      simp [ciTrulyGreen] at hgreen
    rw [(lookupPr_eq_found e r).2 hpr, hcheck]
    dsimp only [conclusionOf]
    rw [if_neg (by simp [hmerged]), if_neg hclosed, if_neg hconflict, if_neg hsuccess, if_pos hgreen]

end Shown

/-- There is a pull request, and all are merged. -/
def AllMerged (pairs : List (PrEntry × RepoAnswers)) : Prop :=
  pairs ≠ [] ∧ ∀ x ∈ pairs, ShowsMerged x.1 x.2

/-- Every pull request is merged or green, and the review of a green one requests changes. -/
def GreenWithRequest (s : Settings) (pairs : List (PrEntry × RepoAnswers)) : Prop :=
  (∀ x ∈ pairs, ShowsMerged x.1 x.2 ∨ ShowsGreen x.1 x.2) ∧
    ∃ x ∈ pairs, ShowsGreen x.1 x.2 ∧ RequestsChanges s x.2.review ""

/-- The poll gets to ask about every entry. -/
structure AsksAll (ctx : MultiRepoContext) (entries : List PrEntry) : Prop where
  polled : ctx.rateLimited = false
  known : ∀ x ∈ answered ctx entries, x.2.known = true

/-- Where a poll can send a ticket, and on which answers. -/
inductive MultiRepoMove (s : Settings) (t : Ticket) (ctx : MultiRepoContext) (entries : List PrEntry) :
    State → Prop
  | stays : MultiRepoMove s t ctx entries t.state
  | blocked : MultiRepoMove s t ctx entries .blocked
  | done (asks : AsksAll ctx entries) (merged : AllMerged (answered ctx entries)) :
      MultiRepoMove s t ctx entries .done
  | revised (asks : AsksAll ctx entries) (requested : GreenWithRequest s (answered ctx entries)) :
      MultiRepoMove s t ctx entries .addressingReview
  | held : MultiRepoMove s t ctx entries .humanMrApproval

section Moves

variable (s : Settings) (t : Ticket) (ctx : MultiRepoContext)

/-! ### Recoveries -/

/-- A recovery leaves the ticket where it is, or blocks it. -/
def StaysOrBlocks (outcome : StageOutcome) : Prop := outcome.nextState = t.state ∨ outcome.nextState = .blocked

theorem settleRecovery_holds (what counter repoId : String) (attempt : Int) (run : RecoveryRun)
    (a : Artifacts) : StaysOrBlocks t (settleRecovery t what counter repoId attempt run a).2 := by
  unfold settleRecovery
  dsimp only
  split
  · exact .inr rfl
  · split
    · split
      · exact .inl rfl
      · split
        · exact .inl rfl
        · exact .inr rfl
        · exact .inr rfl
    · exact .inl rfl

theorem multiRepoRebase_holds (r : Surveyed) (a : Artifacts) : StaysOrBlocks t (multiRepoRebase s t r a).2 := by
  unfold multiRepoRebase
  split
  · exact .inr rfl
  · dsimp only
    split
    · exact .inr rfl
    · exact settleRecovery_holds t _ _ _ _ _ a

theorem tryMultiCodeqlFpTriage_stays {failing : List FailingCheck} {run : CiFixRun} {a b : Artifacts}
    {outcome : StageOutcome} (h : tryMultiCodeqlFpTriage s t failing run a = (b, some outcome)) :
    outcome.nextState = t.state := by
  unfold tryMultiCodeqlFpTriage at h
  split at h
  · cases h
  · dsimp only at h
    split at h
    · cases h
      rfl
    · cases h

theorem attemptCiFix_holds (r : Surveyed) (failed : Bool) (failing : List FailingCheck) (a : Artifacts) :
    StaysOrBlocks t (attemptCiFix s t r failed failing a).2 := by
  unfold attemptCiFix
  dsimp only
  split
  · exact .inr rfl
  · split
    · split
      · split
        · rename_i htriage
          exact .inl (tryMultiCodeqlFpTriage_stays s t htriage)
        · exact .inr rfl
      · exact settleRecovery_holds t _ _ _ _ _ _
    · exact settleRecovery_holds t _ _ _ _ _ _

theorem multiRepoFixCi_holds (r : Surveyed) (a : Artifacts) : StaysOrBlocks t (multiRepoFixCi s t r a).2 := by
  unfold multiRepoFixCi
  dsimp only
  split
  · exact .inr rfl
  · split
    · exact .inl rfl
    · split
      · exact .inl rfl
      · split
        · split
          · exact .inr rfl
          · split
            · rename_i htriage
              exact .inl (tryMultiCodeqlFpTriage_stays s t htriage)
            · exact attemptCiFix_holds s t r true _ _
        · exact attemptCiFix_holds s t r false _ _

theorem countMissingPr_holds (missing : List Surveyed) (a : Artifacts) :
    StaysOrBlocks t (countMissingPr s t missing a).2 := by
  unfold countMissingPr
  dsimp only
  split
  · exact .inl rfl
  · split
    · exact .inr rfl
    · exact .inl rfl

/-! ### Green pull requests -/

/-- Changes requested on one of the pull requests send the ticket to be revised. -/
theorem requestedChanges_spec (green : List Surveyed) (a : Artifacts) :
    ((∃ r ∈ green, RequestsChanges s r.answers.review "") ∧
        ∃ b outcome, requestedChanges s green a = (b, some outcome) ∧ outcome.nextState = .addressingReview) ∨
      ((∀ r ∈ green, ¬ RequestsChanges s r.answers.review "") ∧ requestedChanges s green a = (a, none)) := by
  induction green with
  | nil => exact .inr ⟨fun r hr => absurd hr List.not_mem_nil, rfl⟩
  | cons r rest ih =>
    rw [requestedChanges]
    obtain ⟨hrequest, feedback, note, heq⟩ | ⟨hquiet, heq⟩ :=
      reviewChangesRequestedOutcome_spec s r.answers.review "" a
    · rw [heq]
      exact .inl ⟨⟨r, .head _, hrequest⟩, _, _, rfl, rfl⟩
    · rw [heq]
      dsimp only
      obtain ⟨⟨r', hr', hrequest⟩, hsent⟩ | ⟨hall, hnone⟩ := ih
      · exact .inl ⟨⟨r', .tail _ hr', hrequest⟩, hsent⟩
      · refine .inr ⟨?_, hnone⟩
        intro r' hr'
        rcases List.mem_cons.1 hr' with rfl | hr'
        · exact hquiet
        · exact hall r' hr'

/-! ### The sum of the statuses -/

theorem mem_withStatus {status : RepoStatus} {statuses : List Surveyed} {r : Surveyed} :
    r ∈ withStatus status statuses ↔ r ∈ statuses ∧ r.status = status := by
  unfold withStatus
  rw [List.mem_filter, decide_eq_true_iff]

theorem withStatus_eq_nil {status : RepoStatus} {statuses : List Surveyed} :
    withStatus status statuses = [] ↔ ∀ r ∈ statuses, r.status ≠ status := by
  rw [List.eq_nil_iff_forall_not_mem]
  simp only [mem_withStatus, not_and]

/-- All merged: the ticket is finished. -/
theorem aggregate_of_merged {statuses : List Surveyed} (hsome : statuses ≠ [])
    (hmerged : ∀ r ∈ statuses, r.status = .merged) (a : Artifacts) :
    aggregate s t ctx statuses a = finishMultiRepo statuses a := by
  have hnone (status : RepoStatus) (hne : status ≠ .merged) : withStatus status statuses = [] := by
    rw [withStatus_eq_nil]
    intro r hr heq
    exact hne (heq.symm.trans (hmerged r hr))
  unfold aggregate
  rw [hnone .closedUnmerged (by decide), hnone .conflicting (by decide), hnone .failingCi (by decide)]
  dsimp only
  rw [if_pos ⟨hsome, hmerged⟩]

/-- All merged or green: what is green is merged, if no review and no gate is against it. -/
theorem aggregate_of_green {statuses : List Surveyed}
    (hall : ∀ r ∈ statuses, r.status = .merged ∨ r.status = .green) (hgreen : ∃ r ∈ statuses, r.status = .green)
    (a : Artifacts) :
    aggregate s t ctx statuses a = multiRepoAutoMerge s t ctx (withStatus .green statuses) a := by
  have hnone (status : RepoStatus) (hmerged : status ≠ .merged) (hne : status ≠ .green) :
      withStatus status statuses = [] := by
    rw [withStatus_eq_nil]
    intro r hr heq
    rcases hall r hr with h | h
    · exact hmerged (heq.symm.trans h)
    · exact hne (heq.symm.trans h)
  obtain ⟨r, hr, hstatus⟩ := hgreen
  unfold aggregate
  rw [hnone .closedUnmerged (by decide) (by decide), hnone .conflicting (by decide) (by decide),
    hnone .failingCi (by decide) (by decide)]
  dsimp only
  rw [if_neg, if_pos]
  · refine ⟨?_, hnone .pending (by decide) (by decide), hnone .prMissing (by decide) (by decide)⟩
    exact List.ne_nil_of_mem (mem_withStatus.2 ⟨hr, hstatus⟩)
  · rintro ⟨-, hmerged⟩
    rw [hmerged r hr] at hstatus
    cases hstatus

/-- What the sum of the statuses can do. -/
theorem aggregate_cases (statuses : List Surveyed) (a : Artifacts) :
    StaysOrBlocks t (aggregate s t ctx statuses a).2 ∨
      (statuses ≠ [] ∧ (∀ r ∈ statuses, r.status = .merged) ∧
        (aggregate s t ctx statuses a).2.nextState = .done) ∨
      (((∀ r ∈ statuses, r.status = .merged ∨ r.status = .green) ∧
          ∃ r ∈ statuses, r.status = .green ∧ RequestsChanges s r.answers.review "") ∧
        (aggregate s t ctx statuses a).2.nextState = .addressingReview) ∨
      (aggregate s t ctx statuses a).2.nextState = .humanMrApproval := by
  unfold aggregate
  split
  · exact .inl (.inr rfl)
  · rename_i hclosed
    split
    · exact .inl (multiRepoRebase_holds s t _ _)
    · rename_i hconflicting
      split
      · exact .inl (multiRepoFixCi_holds s t _ _)
      · rename_i hfailing
        by_cases hmerged : statuses ≠ [] ∧ ∀ r ∈ statuses, r.status = .merged
        · rw [if_pos hmerged]
          exact .inr (.inl ⟨hmerged.1, hmerged.2, rfl⟩)
        rw [if_neg hmerged]
        dsimp only
        by_cases hgreen : withStatus .green statuses ≠ [] ∧ withStatus .pending statuses = [] ∧
            withStatus .prMissing statuses = []
        · -- the rest is merged
          rw [if_pos hgreen]
          have hall (r : Surveyed) (hr : r ∈ statuses) : r.status = .merged ∨ r.status = .green := by
            cases hstatus : r.status with
            | merged => exact .inl rfl
            | green => exact .inr rfl
            | closedUnmerged => exact absurd hstatus (withStatus_eq_nil.1 hclosed r hr)
            | conflicting => exact absurd hstatus (withStatus_eq_nil.1 hconflicting r hr)
            | failingCi => exact absurd hstatus (withStatus_eq_nil.1 hfailing r hr)
            | pending => exact absurd hstatus (withStatus_eq_nil.1 hgreen.2.1 r hr)
            | prMissing => exact absurd hstatus (withStatus_eq_nil.1 hgreen.2.2 r hr)
          unfold multiRepoAutoMerge
          obtain ⟨⟨r, hr, hrequest⟩, b, outcome, heq, hnext⟩ | ⟨-, heq⟩ :=
            requestedChanges_spec s (withStatus .green statuses) a
          · rw [heq]
            obtain ⟨hr, hstatus⟩ := mem_withStatus.1 hr
            exact .inr (.inr (.inl ⟨⟨hall, r, hr, hstatus, hrequest⟩, hnext⟩))
          · rw [heq]
            dsimp only
            split
            · exact .inr (.inr (.inr rfl))
            · exact .inl (.inl rfl)
        · rw [if_neg hgreen]
          split
          · exact .inl (countMissingPr_holds s t _ a)
          · exact .inl (.inl rfl)

/-! ### The survey -/

/-- Every repository is registered: the poll gets the status of each. -/
theorem surveyRepos_of_known {pairs : List (PrEntry × RepoAnswers)} (h : ∀ x ∈ pairs, x.2.known = true)
    (a : Artifacts) : ∃ b, surveyRepos pairs a = (b, .ok (pairs.map fun x => surveyed x.1 x.2)) := by
  induction pairs generalizing a with
  | nil => exact ⟨a, rfl⟩
  | cons x rest ih =>
    obtain ⟨e, r⟩ := x
    have hknown : r.known = true := h (e, r) (.head _)
    obtain ⟨b, hrest⟩ := ih (fun x hx => h x (.tail _ hx))
      (if repoStatus e r = .green then writeRepoCounter a (ciFixCycles e.repoId) 0 else a)
    refine ⟨b, ?_⟩
    rw [surveyRepos, if_neg (by simp [hknown])]
    dsimp only
    rw [hrest]
    rfl

/-- One that is not blocks the ticket. -/
theorem surveyRepos_of_unknown {pairs : List (PrEntry × RepoAnswers)} (h : ¬ ∀ x ∈ pairs, x.2.known = true)
    (a : Artifacts) : ∃ b note, surveyRepos pairs a = (b, .error (.block note)) := by
  induction pairs generalizing a with
  | nil => exact absurd (fun x hx => absurd hx List.not_mem_nil) h
  | cons x rest ih =>
    obtain ⟨e, r⟩ := x
    rw [surveyRepos]
    by_cases hknown : r.known = false
    · rw [if_pos hknown]
      exact ⟨_, _, rfl⟩
    · rw [if_neg hknown]
      have hrest : ¬ ∀ x ∈ rest, x.2.known = true := by
        intro hall
        refine h fun x hx => ?_
        rcases List.mem_cons.1 hx with rfl | hx
        · exact Bool.eq_true_of_not_eq_false hknown
        · exact hall x hx
      obtain ⟨b, note, heq⟩ := ih hrest
        (if repoStatus e r = .green then writeRepoCounter a (ciFixCycles e.repoId) 0 else a)
      dsimp only
      rw [heq]
      exact ⟨_, _, rfl⟩

/-- The statuses of a poll say what its answers show. -/
theorem allMerged_iff {pairs : List (PrEntry × RepoAnswers)} :
    AllMerged pairs ↔ (pairs.map fun x => surveyed x.1 x.2) ≠ [] ∧
      ∀ r ∈ pairs.map fun x => surveyed x.1 x.2, r.status = .merged := by
  unfold AllMerged
  rw [List.forall_mem_map, ne_eq, ne_eq, List.map_eq_nil_iff]
  simp only [surveyed, repoStatus_eq_merged]

theorem greenWithRequest_iff {pairs : List (PrEntry × RepoAnswers)} :
    GreenWithRequest s pairs ↔
      (∀ r ∈ pairs.map fun x => surveyed x.1 x.2, r.status = .merged ∨ r.status = .green) ∧
        ∃ r ∈ pairs.map fun x => surveyed x.1 x.2, r.status = .green ∧
          RequestsChanges s r.answers.review "" := by
  unfold GreenWithRequest
  rw [List.forall_mem_map]
  simp only [List.mem_map, exists_exists_and_eq_and, surveyed, repoStatus_eq_merged, repoStatus_eq_green]

/-- **Where a poll can send a ticket.** -/
theorem runMultiRepo_move (entries : List PrEntry) (a : Artifacts) :
    MultiRepoMove s t ctx entries (runMultiRepo s t ctx entries a).2.nextState := by
  unfold runMultiRepo
  split
  · exact .stays
  · rename_i hpolled
    by_cases hknown : ∀ x ∈ answered ctx entries, x.2.known = true
    · obtain ⟨b, heq⟩ := surveyRepos_of_known hknown a
      rw [heq]
      dsimp only
      obtain hholds | ⟨hsome, hmerged, hnext⟩ | ⟨hrequest, hnext⟩ | hnext :=
        aggregate_cases s t ctx ((answered ctx entries).map fun x => surveyed x.1 x.2) b
      · rcases hholds with h | h
        · rw [h]
          exact .stays
        · rw [h]
          exact .blocked
      · rw [hnext]
        exact .done ⟨Bool.eq_false_of_not_eq_true hpolled, hknown⟩ (allMerged_iff.2 ⟨hsome, hmerged⟩)
      · rw [hnext]
        exact .revised ⟨Bool.eq_false_of_not_eq_true hpolled, hknown⟩ ((greenWithRequest_iff s).2 hrequest)
      · rw [hnext]
        exact .held
    · obtain ⟨b, note, heq⟩ := surveyRepos_of_unknown hknown a
      rw [heq]
      exact .blocked

/-- Where it is sent on every pull request merged. -/
theorem runMultiRepo_of_allMerged {entries : List PrEntry} (hasks : AsksAll ctx entries)
    (h : AllMerged (answered ctx entries)) (a : Artifacts) : (runMultiRepo s t ctx entries a).2.nextState = .done := by
  obtain ⟨b, heq⟩ := surveyRepos_of_known hasks.known a
  obtain ⟨hsome, hmerged⟩ := allMerged_iff.1 h
  unfold runMultiRepo
  rw [if_neg (by simp [hasks.polled]), heq]
  dsimp only
  rw [aggregate_of_merged s t ctx hsome hmerged]
  rfl

/-- Where it is sent on changes requested of a green one. -/
theorem runMultiRepo_of_request {entries : List PrEntry} (hasks : AsksAll ctx entries)
    (h : GreenWithRequest s (answered ctx entries)) (a : Artifacts) : (runMultiRepo s t ctx entries a).2.nextState = .addressingReview := by
  obtain ⟨b, heq⟩ := surveyRepos_of_known hasks.known a
  obtain ⟨hall, r, hr, hstatus, hrequest⟩ := (greenWithRequest_iff s).1 h
  unfold runMultiRepo
  rw [if_neg (by simp [hasks.polled]), heq]
  dsimp only
  rw [aggregate_of_green s t ctx hall ⟨r, hr, hstatus⟩]
  unfold multiRepoAutoMerge
  obtain ⟨-, c, outcome, hsent, hnext⟩ | ⟨hquiet, -⟩ :=
    requestedChanges_spec s (withStatus .green ((answered ctx entries).map fun x => surveyed x.1 x.2)) b
  · rw [hsent]
    exact hnext
  · exact absurd hrequest (hquiet r (mem_withStatus.2 ⟨hr, hstatus⟩))

end Moves

end Stages
end RobotsixMill
