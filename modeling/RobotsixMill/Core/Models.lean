import RobotsixMill.Core.States
import Mathlib.Data.Rat.Defs

/-!
# `Core.Models` — the management-plane rows

One `TicketRecord` gathers what the database of a board stores about one ticket: its `Ticket` row, its
`TicketEvent` rows and its `Comment` rows, each in id order. The pair (board, ticket id) is the key the
record is stored under, so the rows below do not repeat it: `create` stamps `board_id` with the board
whose database it writes and `migrate` restamps it, and every event and comment row of the ticket
carries its id.

Columns that hold a state name (`blocked_from`, `paused_from`) are `Option State`; a JSON list column
is `none` when the column is empty and otherwise the list `_parse_depends_on_str` reads from it.
-/

namespace RobotsixMill
namespace Core

/-- Microseconds since the epoch, UTC. -/
abbrev DateTime := Nat

abbrev BoardId := String
abbrev TicketId := String
abbrev CommentId := Nat

/-! Ticket origins the service compares against; the `source` column itself is free text. -/

def SourceKind.USER : String := "user"
def SourceKind.META : String := "meta"
def SourceKind.CI : String := "ci"
def SourceKind.CI_FIX_DEPENDENCY : String := "ci_fix_dependency"
def SourceKind.ORPHANED_PR_CHECK : String := "orphaned_pr_check"

/-- The kinds of ticket. -/
inductive TicketKind
  | task | inquiry | epic
deriving DecidableEq, Repr

/-- The row of a ticket. -/
structure Ticket where
  title : String
  state : State
  kind : TicketKind := .task
  branch : Option String := none
  parentId : Option TicketId := none
  source : String := SourceKind.USER
  /-- The state the ticket was in before it was blocked. -/
  blockedFrom : Option State := none
  /-- Machine-checkable reason of the current block. -/
  blockReason : Option String := none
  /-- The state the ticket was in before it was paused on a question. -/
  pausedFrom : Option State := none
  costUsd : ℚ := 0
  preRedraftCostUsd : ℚ := 0
  preRedraftTraceCount : Int := 0
  reviewRounds : Int := 0
  implementCycles : Int := 0
  retryAttempt : Int := 0
  lastTransientError : Option String := none
  nextRetryAt : Option DateTime := none
  /-- Ids that must be finished before this ticket may leave `ready`. -/
  dependsOn : Option (List TicketId) := none
  /-- Ids to re-open when this ticket completes. -/
  unblocks : Option (List TicketId) := none
  priority : Bool := false
  createdAt : DateTime
  updatedAt : DateTime
deriving DecidableEq, Repr

/-- One row of the append-only history. -/
structure TicketEvent where
  state : State
  note : Option String
  at_ : DateTime
  prevHash : Option String
  hash : String
deriving DecidableEq, Repr

/-- A reviewer comment; a reply names its parent. -/
structure Comment where
  id : CommentId
  body : String
  author : String := "user"
  parentId : Option CommentId := none
  closedAt : Option DateTime := none
  createdAt : DateTime
deriving DecidableEq, Repr

/-- `_parse_depends_on_str` on the decoded column: an empty or malformed column lists nothing. -/
def parseDependsOnStr (raw : Option (List TicketId)) : List TicketId := raw.getD []

/-- Everything a board stores about one ticket. -/
structure TicketRecord where
  ticket : Ticket
  events : List TicketEvent
  comments : List Comment
deriving DecidableEq, Repr

end Core
end RobotsixMill
