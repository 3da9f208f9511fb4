import RobotsixMill.Core.States

/-!
# `Stages.Base` — what a stage returns

The worker applies the outcome; a stage never writes the row itself.
-/

namespace RobotsixMill
namespace Stages
open RobotsixMill.Core

/-- `Outcome`: the next state, with the note and the block reason to record. -/
structure StageOutcome where
  nextState : State
  note : Option String := none
  blockReason : Option String := none
deriving DecidableEq, Repr

/-- `Outcome(State.BLOCKED, note)`. -/
def StageOutcome.block (note : String) : StageOutcome := { nextState := .blocked, note := some note }

/-- `Outcome(State.IMPLEMENT_COMPLETE)`: back to the merge poll. -/
def StageOutcome.repoll : StageOutcome := { nextState := .implementComplete }

/-- The worker applies the outcome to a ticket in `src`: the ticket stays, or makes a legal move. -/
def StageOutcome.Applies (outcome : StageOutcome) (src : State) (blockedFrom pausedFrom : Option State) : Prop :=
  outcome.nextState = src ∨ canTransition src outcome.nextState blockedFrom pausedFrom = true

/-- The state itself, and the states of the table. -/
def allowedFrom (src : State) : List State := src :: TRANSITIONS src

@[simp] theorem nextState_block (note : String) : (StageOutcome.block note).nextState = .blocked := rfl
@[simp] theorem nextState_repoll : StageOutcome.repoll.nextState = .implementComplete := rfl

/-- Of a ticket that is neither blocked nor paused, the table alone decides. -/
theorem applies_iff {outcome : StageOutcome} {src : State} {bf pf : Option State} (hblocked : src ≠ .blocked)
    (hpaused : src ≠ .awaitingUserReply) : outcome.Applies src bf pf ↔ outcome.nextState ∈ allowedFrom src := by
  unfold StageOutcome.Applies canTransition allowedFrom
  rw [List.mem_cons]
  simp [hblocked, hpaused]

end Stages
end RobotsixMill
