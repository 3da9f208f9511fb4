import RobotsixMill.Core.Workspace
import RobotsixMill.Lib.DelimitedText
import Mathlib.Data.List.Perm.Basic

/-!
# `Stages.ReviewAsks` — what the reviewer asks for, and where each ask goes

A verdict carries asks, each with the files that its fix would touch. The ticket's file map says which files are
in its scope; an ask on other files is either taken to be addressed by the branch, or becomes a ticket of its
own. `verifyClaim`, which asks git whether the commits that an ask cites touch its files, is a parameter.

- `askRoute` — where an ask goes, by its own content alone;
- `inScope_eq`, `alreadyAddressed_eq`, `stillOutOfScope_perm` — the lists the stage builds are the asks by their route.
-/

namespace RobotsixMill
namespace Stages
open RobotsixMill.Core Lib

/-- `ReviewAsk`. -/
structure ReviewAsk where
  title : String := ""
  description : String
  filesTouched : List String := []
deriving DecidableEq, Repr

/-- `ReviewVerdict.verdict`. -/
inductive Verdict
  | approve | requestChanges | needsDiscussion
deriving DecidableEq, Repr

/-- `ReviewVerdict`. -/
structure ReviewVerdict where
  verdict : Verdict
  comments : String
  requestChanges : List ReviewAsk := []
  autoMergeEligible : Bool := false
deriving DecidableEq, Repr

/-! ## Scope -/

/-- `_load_file_map`, of a file whose entries are objects with a `file` (or others, `none`). -/
def loadFileMap : JsonFile (List (Option String)) → Option (List String)
  | .absent => none
  | .corrupt => none
  | .ok raw =>
    let paths := raw.filterMap id
    if paths.isEmpty then none else some paths

/-- `_file_in_scope`. -/
def fileInScope (askFile : String) (fileMap : List String) : Bool :=
  fileMap.contains askFile ||
    fileMap.any fun m => endsWith askFile ("/" ++ m) || endsWith m ("/" ++ askFile)

/-- An ask that stays with the ticket: it touches no file, or none out of the file map. -/
def askInScope (fileMap : List String) (ask : ReviewAsk) : Bool :=
  ask.filesTouched.isEmpty || !(ask.filesTouched.any fun f => !fileInScope f fileMap)

/-- `_split_asks`. -/
def splitAsks (asks : List ReviewAsk) : Option (List String) → List ReviewAsk × List ReviewAsk
  | none => (asks, [])
  | some fileMap => asks.partition (askInScope fileMap)

/-- An ask whose files are all in the branch's diff. -/
def filesInDiff (modifiedPaths : List String) (ask : ReviewAsk) : Bool :=
  !ask.filesTouched.isEmpty && ask.filesTouched.all fun f => modifiedPaths.contains f

/-- `_gaps_already_addressed`. -/
def gapsAlreadyAddressed (asks : List ReviewAsk) (modifiedPaths : List String) : List ReviewAsk × List ReviewAsk :=
  asks.partition (filesInDiff modifiedPaths)

/-- An ask that nothing speaks against. -/
def claimStands (verifyClaim : String → List String → Bool) (ask : ReviewAsk) : Bool :=
  !(!ask.filesTouched.isEmpty && ask.description ≠ "" && !verifyClaim ask.description ask.filesTouched)

/-- `_verify_already_addressed_asks`. -/
def verifyAlreadyAddressedAsks (verifyClaim : String → List String → Bool) (alreadyAddressed : List ReviewAsk) :
    List ReviewAsk × List ReviewAsk :=
  alreadyAddressed.partition (claimStands verifyClaim)

/-! ## Routes -/

/-- Where an ask goes. -/
inductive AskRoute
  | inScope | addressed | spawned
deriving DecidableEq, Repr

/-- The asks of a verdict, as `_handle_request_changes` divides them. -/
structure RoutedAsks where
  inScope : List ReviewAsk
  alreadyAddressed : List ReviewAsk
  stillOutOfScope : List ReviewAsk
deriving DecidableEq, Repr

variable (verifyClaim : String → List String → Bool) (fileMap : Option (List String)) (modifiedPaths : List String)

/-- The division of `_handle_request_changes`. -/
def routeAsks (asks : List ReviewAsk) : RoutedAsks :=
  let split := splitAsks asks fileMap
  let gaps := gapsAlreadyAddressed split.2 modifiedPaths
  let verified := verifyAlreadyAddressedAsks verifyClaim gaps.1
  { inScope := split.1, alreadyAddressed := verified.1, stillOutOfScope := gaps.2 ++ verified.2 }

/-- Where one ask goes. -/
def askRoute (ask : ReviewAsk) : AskRoute :=
  if fileMap.all fun m => askInScope m ask then .inScope
  else if filesInDiff modifiedPaths ask && claimStands verifyClaim ask then .addressed
  else .spawned

/-- Has an ask this route? -/
def goes (route : AskRoute) (ask : ReviewAsk) : Bool :=
  decide (askRoute verifyClaim fileMap modifiedPaths ask = route)

variable {verifyClaim fileMap modifiedPaths} {asks : List ReviewAsk}

theorem splitAsks_eq (asks : List ReviewAsk) (fileMap : Option (List String)) :
    splitAsks asks fileMap = (asks.filter fun a => fileMap.all fun m => askInScope m a,
      asks.filter fun a => !(fileMap.all fun m => askInScope m a)) := by
  cases fileMap with
  | none => simp [splitAsks]
  | some m =>
      rw [splitAsks, List.partition_eq_filter_filter]
      rfl

theorem askRoute_eq_inScope_iff {a : ReviewAsk} :
    askRoute verifyClaim fileMap modifiedPaths a = .inScope ↔ fileMap.all (fun m => askInScope m a) = true := by
  rw [askRoute]
  split
  · rename_i hscope
    exact iff_of_true rfl hscope
  · rename_i hscope
    refine iff_of_false ?_ hscope
    split <;> exact AskRoute.noConfusion

theorem inScope_eq : (routeAsks verifyClaim fileMap modifiedPaths asks).inScope =
    asks.filter (goes verifyClaim fileMap modifiedPaths .inScope) := by
  rw [routeAsks, splitAsks_eq]
  apply List.filter_congr
  intro a _
  rw [goes, askRoute]
  cases fileMap.all fun m => askInScope m a with
  | true => rfl
  | false => cases filesInDiff modifiedPaths a && claimStands verifyClaim a <;> rfl

theorem alreadyAddressed_eq : (routeAsks verifyClaim fileMap modifiedPaths asks).alreadyAddressed =
    asks.filter (goes verifyClaim fileMap modifiedPaths .addressed) := by
  rw [routeAsks, splitAsks_eq]
  simp only [gapsAlreadyAddressed, List.partition_eq_filter_filter, verifyAlreadyAddressedAsks, List.filter_filter]
  apply List.filter_congr
  intro a _
  rw [goes, askRoute]
  cases fileMap.all fun m => askInScope m a with
  | true => simp
  | false => cases filesInDiff modifiedPaths a <;> cases claimStands verifyClaim a <;> rfl

/-- The pending asks come before the unverified ones. -/
theorem stillOutOfScope_perm : (routeAsks verifyClaim fileMap modifiedPaths asks).stillOutOfScope.Perm
    (asks.filter (goes verifyClaim fileMap modifiedPaths .spawned)) := by
  rw [routeAsks, splitAsks_eq]
  simp only [gapsAlreadyAddressed, List.partition_eq_filter_filter, verifyAlreadyAddressedAsks, List.filter_filter]
  induction asks with
  | nil => exact List.Perm.refl []
  | cons a asks ih =>
      simp only [List.filter_cons]
      rw [goes, askRoute]
      cases hin : fileMap.all fun m => askInScope m a with
      | true => simpa [hin] using ih
      | false =>
          cases hdiff : filesInDiff modifiedPaths a with
          | false => simpa [hin, hdiff] using ih.cons a
          | true =>
              cases hclaim : claimStands verifyClaim a with
              | true => simpa [hin, hdiff, hclaim] using ih
              | false => simpa [hin, hdiff, hclaim] using List.perm_middle.trans (ih.cons a)

theorem mem_stillOutOfScope {a : ReviewAsk} : a ∈ (routeAsks verifyClaim fileMap modifiedPaths asks).stillOutOfScope ↔
    a ∈ asks ∧ askRoute verifyClaim fileMap modifiedPaths a = .spawned := by
  rw [stillOutOfScope_perm.mem_iff, List.mem_filter, goes, decide_eq_true_iff]

theorem mem_inScope {a : ReviewAsk} : a ∈ (routeAsks verifyClaim fileMap modifiedPaths asks).inScope ↔
    a ∈ asks ∧ askRoute verifyClaim fileMap modifiedPaths a = .inScope := by
  rw [inScope_eq, List.mem_filter, goes, decide_eq_true_iff]

theorem mem_alreadyAddressed {a : ReviewAsk} :
    a ∈ (routeAsks verifyClaim fileMap modifiedPaths asks).alreadyAddressed ↔
      a ∈ asks ∧ askRoute verifyClaim fileMap modifiedPaths a = .addressed := by
  rw [alreadyAddressed_eq, List.mem_filter, goes, decide_eq_true_iff]

end Stages
end RobotsixMill
