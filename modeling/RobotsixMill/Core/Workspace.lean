import RobotsixMill.Core.Models
import RobotsixMill.Lib.PyText

/-!
# `Core.Workspace` — the per-ticket directory

A `Workspace` is the directory `<board>/workspaces/<ticket_id>/`: the body `description.md`, the
presence of the clones `repo/` and `repos/`, and the `artifacts/` files the service, the implement
preflight, the CI loop and the merge stage read or write. Text files are held as their text (`none` when
absent); a JSON file is absent, unreadable, or decoded.
-/

namespace RobotsixMill
namespace Core
open Lib

/-- A JSON file: missing, present but not decodable, or decoded. -/
inductive JsonFile (α : Type)
  | absent
  | corrupt
  | ok (content : α)
deriving DecidableEq, Repr

/-- `implement_stall_state.json`. -/
structure StallState where
  summaryFingerprint : String
  stallCount : Int
  resumeFingerprint : String
deriving DecidableEq, Repr

/-- `implement_spawn_state.json`: the marker of an implement attempt in flight. -/
structure SpawnState where
  state : String
  startedAt : DateTime
  spawnCount : Int
  counted : Bool
deriving DecidableEq, Repr

/-- One line of `implement_spawn_aborts.jsonl`. -/
structure SpawnAbort where
  startedAt : DateTime
  spawnCount : Int
  detectedAt : DateTime
  counted : Bool
deriving DecidableEq, Repr

/-- `implement_spawn_exhausted.json`: the spec fingerprint and how often it exhausted the budget. -/
structure SpawnExhaustion where
  specFp : String
  count : Int
deriving DecidableEq, Repr

/-- One comment of a review; `line` is absent on a comment that is about no line. -/
structure ReviewComment where
  body : String
  path : String := ""
  line : Option Int := none
  reviewState : String := "COMMENTED"
deriving DecidableEq, Repr

/-- `pr_review_status`, and `review_feedback.json`, which stores it. -/
structure ReviewStatus where
  state : String
  comments : List ReviewComment := []
  files : List String := []
  commitId : String := ""
  reviewId : Option Int := none
  /-- The GitHub forge gives none. -/
  body : Option String := none
deriving DecidableEq, Repr

/-- `human_mr_steady.json`: the pull request a full poll left waiting for a human, and when. -/
structure SteadyState where
  fingerprint : String
  at_ : ℚ
deriving DecidableEq, Repr

/-- One entry of `pr_urls.json`. -/
structure PrEntry where
  repoId : String
  branch : String
  url : String := ""
deriving DecidableEq, Repr

/-- The files of `artifacts/`, under their names there. -/
structure Artifacts where
  implementMd : Option String := none
  implementSummaryMd : Option String := none
  implementConversationState : Option String := none
  referenceFilesJson : Option String := none
  baselineCheckJson : Option String := none
  implementSpawnCount : Option String := none
  implementSpawnStateJson : JsonFile SpawnState := .absent
  implementSpawnAbortsJsonl : List SpawnAbort := []
  implementSpawnExhaustedJson : JsonFile SpawnExhaustion := .absent
  implementStallStateJson : JsonFile StallState := .absent
  implementSpecOverride : Option String := none
  implementZeroDiffCount : Option String := none
  implementZeroDiffPaused : Bool := false
  ciIdenticalFailureCountTxt : Option String := none
  autoFixCyclesTxt : Option String := none
  ciFailureFingerprintTxt : Option String := none
  ciFixTotalAttemptsTxt : Option String := none
  ciFixAttemptChecksetTxt : Option String := none
  ciTransientRetryTxt : Option String := none
  ciFixRefreshAttemptsTxt : Option String := none
  ciFixCyclesTxt : Option String := none
  rebaseAttemptsTxt : Option String := none
  rebaseDroppedFilesTxt : Option String := none
  rebaseFromStateTxt : Option String := none
  lastAutoFixStageTxt : Option String := none
  pingPongCountTxt : Option String := none
  greenUnpromotablePollsTxt : Option String := none
  emptyRollupPollsTxt : Option String := none
  emptyRollupSelfHealDone : Bool := false
  prMissingPollsTxt : Option String := none
  mergeRetryAttemptsTxt : Option String := none
  mergeMd : Option String := none
  reviewRevisionAttemptsTxt : Option String := none
  reviewFeedbackJson : JsonFile ReviewStatus := .absent
  humanMrSteadyJson : JsonFile SteadyState := .absent
  approvedDiffHashTxt : Option String := none
  prUrlsJson : JsonFile (List PrEntry) := .absent
  codeqlFpTriageDone : Bool := false
  /-- The counters kept for each repository of a multi-repo ticket, by the name of the file. -/
  repoCounters : List (String × String) := []
  externalScopeLastNote : Option String := none
  externalScopeOverrideConsumed : Option String := none
deriving DecidableEq, Repr

/-- A ticket's directory. -/
structure Workspace where
  description : Option String := none
  repo : Bool := false
  repos : Bool := false
  artifacts : Artifacts := {}
deriving DecidableEq, Repr

/-- `read_description`: an absent body reads as the empty text. -/
def Workspace.readDescription (ws : Workspace) : String := ws.description.getD ""

/-- `read_counter`: an absent or unparseable counter is zero. -/
def readCounter (file : Option String) : Int :=
  match file with
  | none => 0
  | some text => (parseInt text).getD 0

/-- `read_spawn_exhaustion_marker`: only a non-blank fingerprint with a positive count counts. -/
def readSpawnExhaustionMarker (a : Artifacts) : Option (String × Int) :=
  match a.implementSpawnExhaustedJson with
  | .ok m =>
    let specFp := strip m.specFp
    if specFp = "" ∨ m.count < 1 then none else some (specFp, m.count)
  | _ => none

/-- `clear_spawn_exhaustion_marker`. -/
def clearSpawnExhaustionMarker (a : Artifacts) : Artifacts :=
  { a with implementSpawnExhaustedJson := .absent }

/-- `prune_clone`. -/
def pruneClone (ws : Workspace) : Workspace := { ws with repo := false }

@[simp] theorem readCounter_none : readCounter none = 0 := rfl

/-- `write_counter`, read back. -/
@[simp] theorem readCounter_toString (n : Int) : readCounter (some (toString n)) = n := by
  rw [readCounter, parseInt_toString_int, Option.getD_some]

end Core
end RobotsixMill
