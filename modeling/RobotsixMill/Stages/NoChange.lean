import RobotsixMill.Stages.EditClaims
import RobotsixMill.Stages.Base
import RobotsixMill.Core.Models

/-!
# `Stages.NoChange` — closing a ticket on an empty diff

A run of the implement agent that leaves no diff is closed `done` in three ways: the agent declared that no change
is needed, the run was fresh, or it resumed earlier work. A fourth comes before any run: a ticket back from review
whose branch has no commits is closed at once. Each has its own list of guards; a guard that fires blocks the
ticket instead.

- `Situation` — the ticket, its spec, its discussion and its repositories, as git reports them.
- `AgentRun` — what the agent left: its messages, its summary, and whether it declared that nothing is to do.
- `noChangeCheck` — `_run_no_change_contradiction_check`; `reviewRoundBackstop` — the check before the run.
-/

namespace RobotsixMill
namespace Stages
open RobotsixMill.Core Lib

/-! ## Texts -/

/-- `CODE_CHANGE_MANDATE_PHRASES`. -/
def CODE_CHANGE_MANDATE_PHRASES : List String :=
  ["non-empty diff", "nonempty diff", "non-empty change", "must produce a diff", "must produce a non-empty",
    "must produce changes", "must make changes", "must change at least one file",
    "must modify at least one file", "must not produce an empty diff", "must not result in an empty diff",
    "must not close without", "must not be closed without", "must not mark as no-change",
    "must not conclude no change", "must not conclude 'already satisfied'",
    "must result in a non-empty diff", "empty diff is not acceptable", "an empty diff is not acceptable",
    "forbidden to close without changes", "required artifacts", "required files", "required deliverables",
    "must create the following", "must create a file", "must add the following files"]

/-- `spec_demands_code_change`. -/
def specDemandsCodeChange (text : String) : Bool :=
  let t := lower (strip text)
  decide (t ≠ "") && CODE_CHANGE_MANDATE_PHRASES.any fun phrase => contains t phrase

/-- `_EXTERNAL_FIX_PHRASES`. -/
def EXTERNAL_FIX_PHRASES : List String :=
  ["already implemented", "already fixed", "already shipped", "already merged", "already applied",
    "already resolved", "already done", "duplicate of", "shipped the fix", "parallel ticket", "superseded",
    "replaced by"]

/-- `_FALSE_POSITIVE_MARKERS` and `_INFO_ONLY_MARKERS`. -/
def NO_FIX_MARKERS : List String :=
  ["does not exist", "doesn't exist", "false positive", "disproves", "not actually", "cannot reproduce",
    "can't reproduce", "post a comment", "documenting", "information-only", "informational", "explaining why"]

/-- The words of `_RESOLVED_VERB_RE`. -/
def RESOLVED_VERBS : List String :=
  ["implemented", "fixed", "shipped", "merged", "applied", "resolved", "addressed", "landed"]

section Citations

-- `\w` and `\d`
variable (isWordChar isDecimal : Char → Bool)

/-- The maximal runs of word characters. A match of `\b…\b` inside a word would have an end within it. -/
def wordRuns (text : String) : List (List Char) :=
  (text.toList.splitOnP fun c => !isWordChar c).filter fun run => !run.isEmpty

/-- `[0-9a-f]`. -/
def isHexChar (c : Char) : Bool := (48 ≤ c.toNat && c.toNat ≤ 57) || (97 ≤ c.toNat && c.toNat ≤ 102)

/-- A word `_COMMIT_SHA_RE` matches. -/
def isShaRun (run : List Char) : Bool := run.all isHexChar && decide (7 ≤ run.length) && decide (run.length ≤ 40)

/-- A word `_TICKET_ID_RE` matches. -/
def isTicketIdRun (run : List Char) : Bool :=
  decide (run.length = 16) && (run.take 8).all isDecimal && decide ((run.drop 8).head? = some 'T') &&
    ((run.drop 9).take 6).all isDecimal && decide (run.getLast? = some 'Z')

/-- No word goes on here. -/
def endsWord : List Char → Bool
  | [] => true
  | c :: _ => !isWordChar c

/-- `re.search(r"\bphrase\b", text)`, for a phrase that starts and ends with a letter. -/
def hasPhrase (phrase : List Char) : Bool → List Char → Bool
  | _, [] => false
  | inWord, c :: cs =>
    (!inWord && phrase.isPrefixOf (c :: cs) && endsWord isWordChar ((c :: cs).drop phrase.length)) ||
      hasPhrase phrase (isWordChar c) cs

/-- `_PR_MR_REF_RE.search`. -/
def hasPrRef : Bool → List Char → Bool
  | _, [] => false
  | inWord, c :: cs =>
    let digits := cs.takeWhile isDecimal
    (!inWord && (c = '#' || c = '!') && !digits.isEmpty && endsWord isWordChar (cs.drop digits.length)) ||
      hasPrRef (isWordChar c) cs

/-- `_rationale_claims_external_fix`. -/
def rationaleClaimsExternalFix (rationale : String) : Bool :=
  let text := lower (strip rationale)
  let runs := wordRuns isWordChar text
  if text = "" then false
  else if EXTERNAL_FIX_PHRASES.any fun phrase => hasPhrase isWordChar phrase.toList false text.toList then true
  else if NO_FIX_MARKERS.any fun marker => contains text marker then false
  else
    (runs.any (isTicketIdRun isDecimal) || runs.any isShaRun || hasPrRef isWordChar isDecimal false text.toList) &&
      runs.any fun run => RESOLVED_VERBS.any fun verb => decide (run = verb.toList)

/-- `dict.fromkeys(_COMMIT_SHA_RE.findall(rationale.lower()))`. -/
def citedShas (rationale : String) : List String :=
  (((wordRuns isWordChar (lower rationale)).filter isShaRun).map String.ofList).eraseDups

end Citations

/-- `_CI_FAILURE_TITLE_RE.match` on a stripped title: `ci failure: <text> on <word>`. -/
def isCiFailureTitle (title : String) : Bool :=
  let t := title.toList.map asciiLower
  let word := (t.reverse.takeWhile fun c => !isPySpace c).reverse
  let before := t.take (t.length - word.length)
  let middle := (before.drop "ci failure: ".length).take (before.length - ("ci failure: ".length + " on ".length))
  "ci failure: ".toList.isPrefixOf before && !word.isEmpty && !middle.isEmpty &&
    middle.all (fun c => decide (c ≠ '\n')) &&
    decide (before = "ci failure: ".toList ++ middle ++ " on ".toList)

/-- `_is_ci_failure_ticket`. -/
def isCiFailureTicket (t : Ticket) : Bool :=
  decide (lower (strip t.source) = "ci") || isCiFailureTitle (strip t.title)

/-! ## Repositories -/

/-- The part of a repository's configuration that names a branch. -/
structure BranchConfig where
  /-- `""` when it is not set. -/
  workingBranch : String := ""
  /-- `cross_repo_target.base_branch`. -/
  crossRepoBase : Option String := none

/-- `target_branch_for`. -/
def targetBranchFor (forgeTargetBranch : String) (config : Option BranchConfig) : String :=
  match config with
  | some config => if config.workingBranch = "" then forgeTargetBranch else config.workingBranch
  | none => forgeTargetBranch

/-- `effective_target_branch`: the configured target. -/
def effectiveTargetBranch (forgeTargetBranch : String) (config : Option BranchConfig) : String :=
  match config.bind BranchConfig.crossRepoBase with
  | some base => base
  | none => targetBranchFor forgeTargetBranch config

/-- How a git command ended. -/
structure CommandResult where
  returncode : Int
  stdout : String

inductive FetchResult
  | ok
  /-- `CalledProcessError`. -/
  | failed
  /-- Another exception, such as a timeout. -/
  | raised
deriving DecidableEq

/-- A repository of the ticket and what git answers in it. -/
structure TicketRepo where
  path : String
  config : Option BranchConfig := none
  /-- Output of `git status --porcelain`; `none` when git fails. -/
  status : Option String
  fetch : String → FetchResult
  /-- `git rev-list --count origin/<target>..HEAD`. -/
  revList : String → CommandResult
  /-- Does that command outlast the ten seconds the backstop gives it? -/
  revListTimesOut : String → Bool := fun _ => false
  /-- `changed_source_files`; empty on any error. -/
  changedSourceFiles : String → List String := fun _ => []

/-- `has_changes`; `none` when git fails. -/
def TicketRepo.hasChanges (r : TicketRepo) : Option Bool := r.status.map fun out => decide (strip out ≠ "")

/-- `branch_is_ahead_of_main`; `none` when it raises. -/
def TicketRepo.branchIsAheadOfMain (r : TicketRepo) (target : String) : Option Bool :=
  match r.fetch target with
  | .raised => none
  | .failed => some true
  | .ok =>
    let result := r.revList target
    if result.returncode ≠ 0 then some true
    else
      match parseInt (strip result.stdout) with
      | none => some true
      | some n => some (decide (0 < n))

/-- `has_changes(repo) or branch_is_ahead_of_main(repo, target)`. -/
def TicketRepo.changedOrAhead (r : TicketRepo) (target : String) : Option Bool :=
  r.hasChanges.bind fun changed => if changed then some true else r.branchIsAheadOfMain target

/-! ## The situation of a pass -/

/-- The ticket, its texts, and its repositories. The clone of the primary one is where the agent worked. -/
structure Situation where
  ticket : Ticket
  spec : String
  comments : List Comment
  primary : TicketRepo
  clone : EditedClone
  extraRoots : List TicketRepo := []
  forgeTargetBranch : String := "main"
  /-- Output of `git cat-file -t <sha>` in the clone; `none` when it cannot be run. -/
  catFile : String → Option CommandResult
  /-- Exit code of `git merge-base --is-ancestor <sha> origin/main`. -/
  isAncestor : String → Option Int
  headSha : Option String := none
  isWordChar : Char → Bool
  isDecimal : Char → Bool
  /-- The clone is the primary repository. -/
  status_eq : clone.statusOf clone.files = primary.status

/-- What a run of the agent leaves behind. -/
structure AgentRun where
  messages : NewMessages := .empty
  summary : String := ""
  noChangeNeeded : Bool := false
  noChangeRationale : String := ""
  /-- `new_ic.open_thread_ids` and `new_ic.feedback`. -/
  openThreadIds : List CommentId := []
  feedback : String := ""

namespace Situation

variable (s : Situation) (run : AgentRun)

/-- The extra roots that are looked at. -/
def otherRoots : List TicketRepo := s.extraRoots.filter fun r => decide (r.path ≠ s.primary.path)

/-- The loop of `_any_repo_has_changes` over the extra roots. -/
def anyOtherHasChanges : List TicketRepo → Option Bool
  | [] => some false
  | r :: rest =>
    (r.changedOrAhead (targetBranchFor s.forgeTargetBranch r.config)).bind fun found =>
      if found then some true else anyOtherHasChanges rest

/-- `_any_repo_has_changes`; `none` when git raises. -/
def anyRepoHasChanges : Option Bool :=
  (s.primary.changedOrAhead (targetBranchFor s.forgeTargetBranch s.primary.config)).bind fun found =>
    if found then some true else s.anyOtherHasChanges s.otherRoots

/-- The cited commits of `cited_fix_unverified` that are no commit, or not in `origin/main`. -/
def unverifiedShas (text : String) : List String :=
  if rationaleClaimsExternalFix s.isWordChar s.isDecimal text then
    (citedShas s.isWordChar text).filter fun sha =>
      !(((s.catFile sha).any fun result => decide (result.returncode = 0) && decide (strip result.stdout = "commit")) &&
        decide (s.isAncestor sha = some 0))
  else []

/-- `_has_outstanding_review_directives`. -/
def hasOutstandingReviewDirectives : Bool := !run.openThreadIds.isEmpty && contains run.feedback "[REVIEW "

/-- `_base_sha_tag`. -/
def baseShaTag : String :=
  match s.headSha.map strip with
  | none => ""
  | some sha => if isShaRun sha.toList then s!" (base {String.ofList (sha.toList.take 12)})" else ""

/-- Some edit tool was called, and making the edits again is not known to change nothing. -/
def editClaimContradiction : Bool :=
  !(detectEditClaimContradiction run.messages).isEmpty &&
    decide (editsFormatterReverted s.clone run.messages ≠ some true)

/-- The note of a pass whose edits are ignored by git. -/
def ignoredNote (hits : List String) (summary : String) : String :=
  let hit_list := ", ".intercalate (hits.map fun p => "`" ++ p ++ "`")
  let text := s!"edits landed in gitignored path(s): {hit_list} — the files exist on disk but git cannot see " ++
    "them, so this board cannot deliver them (vcs-imported / vendored sub-tree). The spec must target " ++
    "git-tracked files, or the board needs manifest-aware delivery for that sub-tree.\n\n" ++ summary
  let words := (text.toList.splitOnP isPySpace).filter fun word => !word.isEmpty
  let reason := ([' '].intercalate words)
  "no changes produced — " ++ String.ofList (reason.take 300) ++
    (if 300 < reason.length then "… (see implement.md)" else "")

/-- `no_change_needed and no_change_rationale.strip()`. -/
def declaresNoChange : Bool := run.noChangeNeeded && !isBlank run.noChangeRationale

/-- `no_change_summary` of a fresh run. -/
def noChangeSummary : String :=
  if run.summary = "" then
    "Agent finished without producing any file edits and without explanation. Check " ++
      "artifacts/implement_messages.json for the full transcript."
  else run.summary

def done (note : String) : StageOutcome := { nextState := .done, note := some note }

/-- The agent declared that no change is needed. -/
def declaredNoChange : StageOutcome :=
  if s.editClaimContradiction run then .block "edit-claim contradiction (empty diff after edit calls)"
  else if specDemandsCodeChange s.spec then
    .block "spec demands code change but diff is empty (no_change_needed)"
  else if s.unverifiedShas (run.noChangeRationale ++ "\n" ++ run.summary) ≠ [] then
    .block "unverified 'already fixed' claim (cited commit not at origin/main)"
  else if hasOutstandingReviewDirectives run then
    .block "no_change_needed with empty diff but open review directives"
  else if isCiFailureTicket s.ticket then
    .block ("CI-failure ticket: no_change_needed with an empty diff while the workflow is not known to be " ++
      "green — needs a human diagnosis (ci-auto-close closes it once the workflow is green)")
  else
    let rationale := (strip run.noChangeRationale).toList
    let short := String.ofList (rationale.take 400) ++ (if 400 < rationale.length then "…" else "")
    done (s!"no change needed{s.baseShaTag} — " ++ short)

/-- The run was fresh. -/
def freshRun : StageOutcome :=
  let ignored_hits := claimedGitignoredEdits s.clone run.messages
  if ignored_hits ≠ [] then .block (ignoredNote ignored_hits (noChangeSummary run))
  else if s.editClaimContradiction run then .block "edit-claim contradiction (empty diff after edit calls)"
  else if specDemandsCodeChange s.spec then .block "spec demands code change but diff is empty (fresh run)"
  else if s.unverifiedShas (noChangeSummary run) ≠ [] then
    .block "unverified 'already fixed' claim (cited commit not at origin/main)"
  else done s!"already satisfied — no changes needed (empty diff vs base){s.baseShaTag}"

/-- The run resumed earlier work. -/
def resumedRun : StageOutcome :=
  if s.editClaimContradiction run then .block "edit-claim contradiction (empty diff after edit calls on resume)"
  else if specDemandsCodeChange s.spec then .block "spec demands code change but diff is empty (resume)"
  else done "already satisfied — no changes needed (resuming with empty diff vs base)"

/-! ### A branch that is ahead -/

/-- `os.path.basename`. -/
def baseName (path : String) : String := String.ofList (path.toList.reverse.takeWhile (· ≠ '/')).reverse

/-- `run_claimed_edited_paths`. -/
def runClaimedEditedPaths (m : NewMessages) : List String :=
  (((m.editCalls.filterMap claimedRawpathFromPart).map baseName).filter fun base => decide (base ≠ "")).eraseDups

/-- `claimed_edits_already_on_branch`. -/
def claimedEditsAlreadyOnBranch (m : NewMessages) (changed : List String) : Bool :=
  let claimed := runClaimedEditedPaths m
  let on_branch := (changed.filter fun p => decide (p ≠ "")).map baseName
  !claimed.isEmpty && !on_branch.isEmpty && claimed.all on_branch.contains

/-- Is every tree clean? `none` when git raises. -/
def workingTreesClean : List TicketRepo → Option Bool
  | [] => some true
  | r :: rest => r.hasChanges.bind fun changed => if changed then some false else workingTreesClean rest

/-- The guard of a resumed run whose branch has commits: the outcome, if it blocks. -/
def aheadOutcome (resuming : Bool) : Option (Option StageOutcome) :=
  (workingTreesClean (s.primary :: s.otherRoots)).map fun clean =>
    let target := targetBranchFor s.forgeTargetBranch s.primary.config
    let changed := s.primary.changedSourceFiles target
    if resuming && clean && s.editClaimContradiction run && !claimedEditsAlreadyOnBranch run.messages changed &&
        changed.isEmpty then
      some (.block "edit-claim contradiction (empty diff after edit calls on resume-with-ahead)")
    else none

/-! ### The two decisions -/

/-- How a check ends. -/
inductive PassResult
  | raised
  /-- The pass goes on. -/
  | passOn
  | returned (outcome : StageOutcome)

/-- `_run_no_change_contradiction_check`. -/
def noChangeCheck (resuming : Bool) : PassResult :=
  match s.anyRepoHasChanges with
  | none => .raised
  | some false =>
    if declaresNoChange run then .returned (s.declaredNoChange run)
    else if !resuming then .returned (s.freshRun run)
    else .returned (s.resumedRun run)
  | some true =>
    match s.aheadOutcome run resuming with
    | none => .raised
    | some none => .passOn
    | some (some outcome) => .returned outcome

/-- The count of `origin/<target>..HEAD`, as the backstop reads it: no output counts as none, and what is no
    number as unknown. The exit code is not looked at. -/
def aheadCount (target : String) : Int :=
  let count := strip (s.primary.revList target).stdout
  if count = "" then 0 else (parseInt count).getD (-1)

/-- The check before the agent runs: a ticket back from review whose branch has no commits. -/
def reviewRoundBackstop (resuming : Bool) : PassResult :=
  let target := effectiveTargetBranch s.forgeTargetBranch s.primary.config
  if !(resuming && decide (0 < s.ticket.reviewRounds)) then .passOn
  else if s.primary.revListTimesOut target then .raised
  else if s.aheadCount target = 0 then
    .returned (done ("already satisfied — no changes needed (empty diff vs base after review round; branch has " ++
      s!"no commits beyond origin/{target})"))
  else .passOn

end Situation
end Stages
end RobotsixMill
