import RobotsixMill.Stages.Base

/-!
# `Stages.StageCache` — the outcomes that a stage may return again

`stage_cache.json` has one entry a stage: the hash of the input it last finished on, and the outcome. A file that
cannot be read counts as empty.

SHA-256 is a parameter.
-/

namespace RobotsixMill
namespace Stages
open RobotsixMill.Core

/-- An entry of the cache; `nextState` is `none` where it is missing or no state. -/
structure CacheEntry where
  inputHash : String
  nextState : Option State
  note : String
deriving DecidableEq, Repr

/-- `stage_cache.json`. -/
abbrev StageCache := String → Option CacheEntry

namespace StageCache

/-- `_check`: a blocked outcome is never served. -/
def check (cache : StageCache) (stageName inputHash : String) : Option StageOutcome :=
  match cache stageName with
  | none => none
  | some entry =>
    if entry.inputHash ≠ inputHash then none
    else match entry.nextState with
      | none => none
      | some .blocked => none
      | some nextState => some { nextState, note := some entry.note }

/-- `_update`: a blocked outcome is never stored. -/
def update (cache : StageCache) (stageName inputHash : String) (outcome : StageOutcome) : StageCache :=
  if outcome.nextState = .blocked then cache
  else fun name =>
    if name = stageName then
      some { inputHash, nextState := some outcome.nextState, note := outcome.note.getD "" }
    else cache name

/-- `_invalidate`. -/
def invalidate (cache : StageCache) (stageName : String) : StageCache :=
  fun name => if name = stageName then none else cache name

end StageCache

/-- What the hash of a review's input is taken of. -/
structure ReviewInput where
  spec : String
  diff : String
  headSha : String
  reviewerFingerprint : String
deriving DecidableEq, Repr

/-- The text that is hashed: the fields one after another, and the round unless it is the first. -/
def ReviewInput.text (i : ReviewInput) (reviewRounds : Nat) : String :=
  i.spec ++ i.diff ++ i.headSha ++ i.reviewerFingerprint ++ (if reviewRounds > 0 then toString reviewRounds else "")

/-- `review_input_hash`. -/
def reviewInputHash (sha256 : String → String) (i : ReviewInput) (reviewRounds : Nat) : String :=
  sha256 (i.text reviewRounds)

end Stages
end RobotsixMill
