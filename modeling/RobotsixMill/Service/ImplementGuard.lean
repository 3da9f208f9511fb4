import RobotsixMill.Core.Workspace
import RobotsixMill.Core.Settings

/-!
# `Service.ImplementGuard` — workspace bookkeeping of the implement and ci_fix guards

The files that remember earlier implement attempts, and the helpers by which a transition forgets them:
`clearStaleImplementGuard` (the stale-spec guard), `resetImplementSpawnCounter` (the spawn budget) and
`resetTrippedCiFixGuards` (the merge-side counters). All of them act on the `artifacts/` files only.
-/

namespace RobotsixMill
namespace Service
open RobotsixMill.Core Lib

/-! ## Reading `implement.md` -/

/-- The value of a `key: ` line. -/
def fieldValue (key line : String) : String :=
  strip (String.ofList (line.toList.drop key.length))

/-- The first `spec-fingerprint: ` line's value. -/
def specFingerprintLine (md : String) : Option String :=
  ((splitlines md).find? fun line => startsWith line "spec-fingerprint: ").map
    (fieldValue "spec-fingerprint: ")

/-- The summary fingerprint and the stall count an `implement.md` records; later lines win. -/
def stallLines (md : String) : String × Int :=
  (splitlines md).foldl
    (fun (acc : String × Int) line =>
      if startsWith line "summary-fingerprint: " then
        (fieldValue "summary-fingerprint: " line, acc.2)
      else if startsWith line "stall-count: " then
        (acc.1, (parseInt (fieldValue "stall-count: " line)).getD 0)
      else acc)
    ("", 0)

/-! ## The stale-spec guard -/

/-- The override marker after `_persist_spec_fingerprint_override`. -/
def persistedSpecOverride (a : Artifacts) : Option String :=
  match a.implementMd.bind specFingerprintLine with
  | none => a.implementSpecOverride
  | some specFp => if specFp = "" then a.implementSpecOverride else some specFp

/-- `_persist_spec_fingerprint_override`. -/
def persistSpecFingerprintOverride (a : Artifacts) : Artifacts :=
  { a with implementSpecOverride := persistedSpecOverride a }

/-- The stall file after `_persist_stall_state_from_implement_md`. With no body to extract from, an
    override still zeroes a count left in the JSON. -/
def persistedStallState (a : Artifacts) (resetCount : Bool) : JsonFile StallState :=
  let md := a.implementMd.getD ""
  if md = "" then
    match a.implementStallStateJson with
    | .ok prev =>
      if resetCount ∧ prev.stallCount ≠ 0 then .ok { prev with stallCount := 0 } else .ok prev
    | file => file
  else
    let (summaryFp, mdCount) := stallLines md
    let resumeFp :=
      if resetCount then summaryFp
      else match a.implementStallStateJson with
        | .ok prev => prev.resumeFingerprint
        | _ => ""
    let stallCount := if resetCount then 0 else mdCount
    if summaryFp ≠ "" ∨ stallCount ≠ 0 ∨ resetCount then
      .ok { summaryFingerprint := summaryFp, stallCount := stallCount, resumeFingerprint := resumeFp }
    else a.implementStallStateJson

/-- `_persist_stall_state_from_implement_md`. -/
def persistStallStateFromImplementMd (a : Artifacts) (resetCount : Bool := false) : Artifacts :=
  { a with implementStallStateJson := persistedStallState a resetCount }

/-- `_clear_stale_implement_guard`. -/
def clearStaleImplementGuard (a : Artifacts) (resetStall : Bool := true) : Artifacts :=
  { persistSpecFingerprintOverride (persistStallStateFromImplementMd a resetStall) with
    implementMd := none }

/-! ## Spawn budget and ci_fix counters -/

/-- `_reset_implement_spawn_counter`. -/
def resetImplementSpawnCounter (a : Artifacts) : Artifacts :=
  { clearSpawnExhaustionMarker a with
    implementSpawnCount := none
    implementSpawnStateJson := .absent
    implementSpawnAbortsJsonl := [] }

/-- Is a counter at or above an enabled ceiling? -/
def atCeiling (file : Option String) (ceiling : Nat) : Bool :=
  decide (0 < ceiling) && decide ((ceiling : Int) ≤ readCounter file)

/-- `_reset_tripped_ci_fix_guards`: the counters reset, and the labels for the event note. -/
def resetTrippedCiFixGuards (s : Settings) (a : Artifacts) : Artifacts × List String :=
  let identical := atCeiling a.ciIdenticalFailureCountTxt s.ciFixMaxIdenticalFailures
  let cycles := atCeiling a.autoFixCyclesTxt s.autoFixMaxCycles
  ({ a with
      ciIdenticalFailureCountTxt := if identical then none else a.ciIdenticalFailureCountTxt
      ciFailureFingerprintTxt := if identical then none else a.ciFailureFingerprintTxt
      autoFixCyclesTxt := if cycles then none else a.autoFixCyclesTxt },
    (if identical then ["ci_identical_failure_count.txt"] else []) ++
      (if cycles then ["auto_fix_cycles.txt"] else []))

/-! ## What the helpers leave behind -/

section Frame

variable (a : Artifacts) (b : Bool)

/-- **An override leaves no stall count behind**, whatever `implement.md` and the JSON held. -/
theorem persistedStallState_reset (st : StallState)
    (h : persistedStallState a true = .ok st) : st.stallCount = 0 := by
  unfold persistedStallState at h
  by_cases hmd : a.implementMd.getD "" = ""
  · rw [if_pos hmd] at h
    cases hj : a.implementStallStateJson with
    | absent => rw [hj] at h; cases h
    | corrupt => rw [hj] at h; cases h
    | ok prev =>
        rw [hj] at h
        by_cases hc : prev.stallCount = 0
        · simp [hc] at h; subst h; exact hc
        · simp [hc] at h; subst h; rfl
  · rw [if_neg hmd] at h
    simp only [or_true, if_true] at h
    cases h; rfl

end Frame

end Service
end RobotsixMill
