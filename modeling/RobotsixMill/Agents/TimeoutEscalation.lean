import RobotsixMill.Service.Refinement
import RobotsixMill.Lib.PyText

/-!
# `Agents.TimeoutEscalation` — the runner that blocks tickets nobody answers

A pass goes through the boards. On each it selects the tickets that have been waiting for a reply for longer than
the threshold, and looks at them one after the other: unless one of the ticket's `[ASK_USER]` threads has a reply,
the ticket is moved to `blocked`. The selection, the comments, the move and the comment on it are sessions of their
own; anything may happen in between.
-/

namespace RobotsixMill
namespace Agents
open RobotsixMill.Core Lib Service

/-! ## The pass -/

/-- The first `n` characters. -/
def cut (n : Nat) (text : String) : String := String.ofList (text.toList.take n)

/-- `_boards_to_scan`. -/
def boardsToScan (env : Env) (σ : Mill) : List BoardId :=
  ((((env.repos.getD []).map Prod.snd).filter (· ≠ "")) ++
    ((σ.boards.filter (· ≠ "")).mergeSort fun a b => decide (a ≤ b))).eraseDups

/-- A ticket as it was selected. -/
structure Selected where
  id : TicketId
  state : State
  updatedAt : DateTime
deriving DecidableEq, Repr

/-- Where the pass stands with a ticket. -/
inductive Escalating
  | idle
  /-- No reply was seen. -/
  | due (c : Selected) (note body : String)
  /-- The ticket is blocked, and the comment on it is still to be made. -/
  | moved (c : Selected) (body : String)
deriving DecidableEq, Repr

/-- A pass under way. -/
structure EscalationPass where
  startedAt : DateTime
  /-- The boards still to be scanned. -/
  boards : List BoardId
  board : BoardId
  /-- The tickets of `board` still to be looked at. -/
  candidates : List Selected
  phase : Escalating
  escalated : Nat
  skipped : Nat
deriving DecidableEq, Repr

/-- Was the ticket last touched before the cutoff? -/
def isOverdue (threshold : Nat) (startedAt : DateTime) (t : Ticket) : Bool :=
  decide (t.updatedAt + threshold * 1000000 < startedAt)

/-- The tickets of a board that have waited too long. -/
def staleTickets (threshold : Nat) (startedAt : DateTime) (board : BoardId) (σ : Mill) : List Selected :=
  (σ.records.rows.filter fun row => decide (row.1.1 = board) &&
    decide (row.2.ticket.state = .awaitingUserReply) && isOverdue threshold startedAt row.2.ticket).map
      fun row => ⟨row.1.2, row.2.ticket.state, row.2.ticket.updatedAt⟩

/-- `ask_threads`, open or closed. -/
def askThreads (cs : List Comment) : List Comment :=
  cs.filter fun c => c.parentId.isNone && startsWith c.body ASK_USER_MARKER

/-- Is one of the comments a reply in one of the threads? -/
def hasReply (threads cs : List Comment) : Bool := cs.any fun c => threads.any fun t => decide (c.parentId = some t.id)

/-- The note of the move. -/
def escalationNote (staleDays : Nat) : String :=
  cut 200 (s!"Escalated to BLOCKED after {staleDays}d awaiting user reply — " ++ "no operator response")

/-- The comment on the move; the threads are listed by creation time. -/
def escalationBody (staleDays : Nat) (threads : List Comment) : String :=
  let ordered := threads.insertionSort fun a b => a.createdAt ≤ b.createdAt
  let ids := ", ".intercalate (ordered.map fun t => s!"#{t.id}")
  let threadRef := if threads = [] then "" else s!" (thread(s) {ids})"
  "This ticket was escalated to BLOCKED because the question has " ++
    s!"been awaiting a reply for {staleDays} day(s).{threadRef}"

namespace EscalationPass

/-- A pass begins. -/
def start (env : Env) (now : DateTime) (σ : Mill) : EscalationPass where
  startedAt := now
  boards := boardsToScan env σ
  board := ""
  candidates := []
  phase := .idle
  escalated := 0
  skipped := 0

/-- The ticket is left alone, because of a reply or an exception. -/
def skip (p : EscalationPass) : EscalationPass := { p with phase := .idle, skipped := p.skipped + 1 }

/-- A candidate up to its move. -/
def readComments (env : Env) (c : Selected) (now : DateTime) (p : EscalationPass) (σ : Mill) : EscalationPass :=
  if c.state = .blocked then p.skip
  else
    match fetch env p.board σ c.id with
    | .error _ => p.skip
    | .ok (_, r) =>
      let threads := askThreads r.comments
      if hasReply threads r.comments then p.skip
      else
        let staleDays := max 1 ((now - c.updatedAt) / 86400000000)
        { p with phase := .due c (escalationNote staleDays) (escalationBody staleDays threads) }

/-- The move. -/
def move (env : Env) (c : Selected) (note body : String) (p : EscalationPass) (σ : Mill) : Mill × EscalationPass :=
  match transition env p.board c.id .blocked (some note) none σ with
  | (σ', .error _) => (σ', p.skip)
  | (σ', .ok ()) => (σ', { p with phase := .moved c body })

/-- The comment on the move. -/
def comment (env : Env) (c : Selected) (body : String) (p : EscalationPass) (σ : Mill) : Mill × EscalationPass :=
  match addComment env p.board c.id body "system" none σ with
  | (σ', .error _) => (σ', p.skip)
  | (σ', .ok ()) => (σ', { p with phase := .idle, escalated := p.escalated + 1 })

/-- The next step of a pass; the pass is over when it is `none`. -/
def advance (env : Env) (threshold : Nat) (now : DateTime) (p : EscalationPass) (σ : Mill) :
    Mill × Option EscalationPass :=
  match p.phase, p.candidates, p.boards with
  | .moved c body, _, _ =>
    let after := p.comment env c body σ
    (after.1, some after.2)
  | .due c note body, _, _ =>
    let after := p.move env c note body σ
    (after.1, some after.2)
  | .idle, c :: candidates, _ => (σ, some ({ p with candidates := candidates }.readComments env c now σ))
  | .idle, [], board :: boards =>
    (σ, some { p with
      boards := boards
      board := board
      candidates := staleTickets threshold p.startedAt board σ })
  | .idle, [], [] => (σ, none)

end EscalationPass

end Agents
end RobotsixMill
