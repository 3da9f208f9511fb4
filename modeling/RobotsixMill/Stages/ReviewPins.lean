import RobotsixMill.Stages.ReviewAsks
import RobotsixMill.Lib.DelimitedText

/-!
# `Stages.ReviewPins` — the pins that the reviewer may not approve

Two checks look at the action refs that the diff adds, whatever the agent's verdict: a pinned commit must exist
upstream, and must not be older than a commit that the operator's approval names. Each turns a violation into an
ask, puts it before the agent's own, and makes the verdict REQUEST_CHANGES.

What git answers about a commit is a parameter: `verifyActionSha` (`none` when it cannot tell) and
`shaIsOlderThan`.
-/

namespace RobotsixMill
namespace Stages
open Lib

/-- A `uses:` line that the diff adds. -/
structure ActionRef where
  file : String
  slug : String
  ref : String
  comment : String
deriving DecidableEq, Repr

/-- The characters of a commit id. -/
def isHexDigit (c : Char) : Bool := ('0' ≤ c && c ≤ '9') || ('a' ≤ c && c ≤ 'f')

/-- `_SHA_RE`: forty hex digits; its `$` also matches before a final newline. -/
def isSha (ref : String) : Bool :=
  let cs := if ref.toList.getLast? = some '\n' then ref.toList.dropLast else ref.toList
  cs.length == 40 && cs.all isHexDigit

/-- `owner/repo` of a slug. -/
def ownerRepo (slug : String) : Option String :=
  match splitChar '/' slug.toList with
  | owner :: repo :: _ => some (String.ofList owner ++ "/" ++ String.ofList repo)
  | _ => none

/-- `text[:n]`. -/
def takeText (n : Nat) (s : String) : String := String.ofList (s.toList.take n)

/-! ## Commits that do not exist -/

section Existence

variable (verifyActionSha : String → String → Option Bool)

/-- The upstream repository says that it does not have the commit. -/
def shaMissing (r : ActionRef) : Bool :=
  match ownerRepo r.slug with
  | none => false
  | some repo => verifyActionSha repo r.ref == some false

/-- The violations of `_validate_action_shas`. -/
def actionViolations (actionRefs reusableWorkflowRefs : List ActionRef) : List ActionRef :=
  actionRefs.filter (fun r => isSha r.ref && shaMissing verifyActionSha r) ++
    reusableWorkflowRefs.filter (shaMissing verifyActionSha)

/-- The ask for a missing commit. -/
def missingShaAsk (v : ActionRef) : ReviewAsk :=
  let commentPart := if v.comment = "" then "" else " # " ++ v.comment
  { title := takeText 80 ("Verify commit SHA for " ++ v.slug ++ " in " ++ v.file)
    description :=
      "Commit SHA `" ++ v.ref ++ "` for action `" ++ v.slug ++ commentPart ++ "` in `" ++ v.file ++
        "` was not found in the upstream repository. Verify the SHA is correct or replace it with a " ++
        "valid 40-char commit SHA."
    filesTouched := [v.file] }

/-- The comment that goes before the agent's. -/
def missingShaHeader : String :=
  "Action ref validation failed: commit SHA not found in upstream repo (see request_changes entries below)."

/-- REQUEST_CHANGES, with asks before the agent's own. -/
def forceRequestChanges (asks : List ReviewAsk) (header : String) (v : ReviewVerdict) : ReviewVerdict :=
  { verdict := .requestChanges
    autoMergeEligible := false
    requestChanges := asks ++ v.requestChanges
    comments := if v.comments = "" then header else header ++ "\n\n" ++ v.comments }

/-- `_validate_action_shas`. -/
def validateActionShas (actionRefs reusableWorkflowRefs : List ActionRef) (v : ReviewVerdict) : ReviewVerdict :=
  let violations := actionViolations verifyActionSha actionRefs reusableWorkflowRefs
  if violations.isEmpty then v else forceRequestChanges (violations.map missingShaAsk) missingShaHeader v

end Existence

/-! ## Commits older than the operator allows -/

def isAsciiAlnum (c : Char) : Bool :=
  ('0' ≤ c && c ≤ '9') || ('a' ≤ c && c ≤ 'z') || ('A' ≤ c && c ≤ 'Z')

/-- The maximal runs of letters and digits. -/
def alnumRuns (note : String) : List (List Char) := note.toList.splitOnP fun c => !isAsciiAlnum c

/-- `_constraint_shas`: runs of 7 to 40 hex digits that have a digit and a letter, each once. -/
def constraintShas (note : String) : List String :=
  let found := (alnumRuns note).filter fun tok => decide (7 ≤ tok.length ∧ tok.length ≤ 40) && tok.all isHexDigit
  let mixed := found.filter fun tok => tok.any (fun c => '0' ≤ c && c ≤ '9') && tok.any (fun c => 'a' ≤ c && c ≤ 'f')
  (mixed.map String.ofList).eraseDups

/-- `_pin_constraint_ask`; a check that could not run counts as failed. -/
def pinConstraintAsk (r : ActionRef) (floor approval : String) : Option Bool → Option ReviewAsk
  | none =>
    some
      { title := takeText 80 ("Verify " ++ pinName ++ " pin vs approval constraint")
        description :=
          "`" ++ r.file ++ "` pins `" ++ r.slug ++ "@" ++ r.ref ++ "`, but review could not verify it is not older than `" ++
            floor ++ "` named in the operator's approval note (binding) — the ancestry check could not run " ++
            "(fetch failed, or missing/expired token):\n\n" ++ approval ++ "\n\nPin a commit at or after `" ++ floor ++
            "`. If you believe the constraint cannot be satisfied, call `ask_user` with the constraint, your reason " ++
            "and the alternative, and stop."
        filesTouched := [r.file] }
  | some true =>
    some
      { title := takeText 80 ("Pin " ++ pinName ++ " per approval constraint")
        description :=
          "`" ++ r.file ++ "` pins `" ++ r.slug ++ "@" ++ r.ref ++ "`, which is older than `" ++ floor ++
            "` named in the operator's approval note (binding):\n\n" ++ approval ++
            "\n\nSatisfy the constraint. If you believe it cannot be satisfied, do NOT re-commit the deviation: " ++
            "call `ask_user` with the constraint, your reason and the alternative, and stop."
        filesTouched := [r.file] }
  | some false => none
where
  pinName : String := String.ofList ((splitChar '/' r.slug.toList).getLastD [])

section Floors

variable (shaIsOlderThan : String → String → String → Option Bool)

/-- The ask for one pin: the first floor that it fails. -/
def pinAsk (floors : List String) (approval : String) (r : ActionRef) : Option ReviewAsk :=
  if isSha r.ref then
    match ownerRepo r.slug with
    | none => none
    | some repo =>
      floors.findSome? fun floor =>
        if startsWith r.ref floor || startsWith floor r.ref then none
        else pinConstraintAsk r floor approval (shaIsOlderThan repo r.ref floor)
  else none

/-- The asks of `_enforce_approval_constraint_pins`. -/
def pinAsks (approval : Option String) (shaRefs : List ActionRef) : List ReviewAsk :=
  match approval with
  | none => []
  | some note => shaRefs.filterMap (pinAsk shaIsOlderThan (constraintShas note) note)

/-- The comment that goes before the agent's. -/
def pinHeader : String :=
  "Operator approval constraint violated or unverifiable: the diff pins a SHA that is older than, or could not be " ++
    "checked against, one the approval note names (see request_changes entries below)."

/-- `_enforce_approval_constraint_pins`. -/
def enforceApprovalConstraintPins (v : ReviewVerdict) (approval : Option String) (shaRefs : List ActionRef) :
    ReviewVerdict :=
  let asks := pinAsks shaIsOlderThan approval shaRefs
  if asks.isEmpty then v else forceRequestChanges asks pinHeader v

end Floors

/-! ## What the checks add -/

theorem isBlank_takeText {c : Char} {cs : List Char} {s : String} {n : Nat} (hc : isPySpace c = false)
    (hs : s.toList = c :: cs) : isBlank (takeText (n + 1) s) = false := by
  rw [isBlank, takeText, String.toList_ofList, hs, List.take_succ_cons, List.all_cons, hc, Bool.false_and]

theorem title_of_pinConstraintAsk {r : ActionRef} {floor approval : String} {older : Option Bool} {a : ReviewAsk}
    (h : pinConstraintAsk r floor approval older = some a) : isBlank a.title = false := by
  match older with
  | none =>
      obtain rfl := Option.some.inj h
      apply isBlank_takeText (c := 'V')
      · decide
      · rw [String.append_assoc, String.toList_append]
        rfl
  | some true =>
      obtain rfl := Option.some.inj h
      apply isBlank_takeText (c := 'P')
      · decide
      · rw [String.append_assoc, String.toList_append]
        rfl
  | some false => cases h

/-- The refs that the second check looks at. -/
def shaPins (actionRefs reusableWorkflowRefs : List ActionRef) : List ActionRef :=
  actionRefs.filter (fun r => isSha r.ref) ++ reusableWorkflowRefs

section Checks

variable (verifyActionSha : String → String → Option Bool) (shaIsOlderThan : String → String → String → Option Bool)
  (actionRefs reusableWorkflowRefs : List ActionRef) (approval : Option String)

/-- The asks that the two checks add, those of the second first. -/
def violationAsks : List ReviewAsk :=
  pinAsks shaIsOlderThan approval (shaPins actionRefs reusableWorkflowRefs) ++
    (actionViolations verifyActionSha actionRefs reusableWorkflowRefs).map missingShaAsk

/-- Steps 5 and 5b of the review. -/
def checkPins (v : ReviewVerdict) : ReviewVerdict :=
  enforceApprovalConstraintPins shaIsOlderThan (validateActionShas verifyActionSha actionRefs reusableWorkflowRefs v)
    approval (shaPins actionRefs reusableWorkflowRefs)

variable {verifyActionSha shaIsOlderThan actionRefs reusableWorkflowRefs approval} {v : ReviewVerdict}

theorem requestChanges_checkPins :
    (checkPins verifyActionSha shaIsOlderThan actionRefs reusableWorkflowRefs approval v).requestChanges =
      violationAsks verifyActionSha shaIsOlderThan actionRefs reusableWorkflowRefs approval ++ v.requestChanges := by
  rw [checkPins, enforceApprovalConstraintPins, validateActionShas, violationAsks]
  cases hpins : pinAsks shaIsOlderThan approval (shaPins actionRefs reusableWorkflowRefs) with
  | nil =>
      cases hmissing : actionViolations verifyActionSha actionRefs reusableWorkflowRefs with
      | nil => rfl
      | cons r rs => rfl
  | cons a as =>
      cases hmissing : actionViolations verifyActionSha actionRefs reusableWorkflowRefs with
      | nil => simp [forceRequestChanges]
      | cons r rs => simp [forceRequestChanges]

/-- A violation forces REQUEST_CHANGES. -/
theorem verdict_checkPins
    (h : violationAsks verifyActionSha shaIsOlderThan actionRefs reusableWorkflowRefs approval ≠ []) :
    (checkPins verifyActionSha shaIsOlderThan actionRefs reusableWorkflowRefs approval v).verdict = .requestChanges := by
  rw [checkPins, enforceApprovalConstraintPins, validateActionShas]
  rw [violationAsks] at h
  cases hpins : pinAsks shaIsOlderThan approval (shaPins actionRefs reusableWorkflowRefs) with
  | nil =>
      cases hmissing : actionViolations verifyActionSha actionRefs reusableWorkflowRefs with
      | nil =>
          rw [hpins, hmissing] at h
          exact absurd rfl h
      | cons r rs => rfl
  | cons a as => rfl

/-- The title of a violation says what is wrong. -/
theorem title_of_mem_violationAsks {a : ReviewAsk}
    (h : a ∈ violationAsks verifyActionSha shaIsOlderThan actionRefs reusableWorkflowRefs approval) :
    isBlank a.title = false := by
  obtain h | h := List.mem_append.1 h
  · cases approval with
    | none => exact absurd h List.not_mem_nil
    | some note =>
        obtain ⟨r, -, hask⟩ := List.mem_filterMap.1 h
        rw [pinAsk] at hask
        split at hask
        · split at hask
          · cases hask
          · obtain ⟨floor, -, hfloor⟩ := List.exists_of_findSome?_eq_some hask
            split at hfloor
            · cases hfloor
            · exact title_of_pinConstraintAsk hfloor
        · cases hask
  · obtain ⟨r, -, rfl⟩ := List.mem_map.1 h
    apply isBlank_takeText (c := 'V')
    · decide
    · rw [String.append_assoc, String.append_assoc, String.toList_append]
      rfl

end Checks
end Stages
end RobotsixMill
