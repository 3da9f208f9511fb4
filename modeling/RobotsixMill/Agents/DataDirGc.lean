import RobotsixMill.Service.Ops

/-!
# `Agents.DataDirGc` — the runner that reclaims disk space

A pass of the garbage collection goes through its prunes, and each prune through the boards on disk. A prune of
directories lists them, reads the rows of their tickets, and removes one directory after the other; the prune of
rows reads the finished tickets, and for each of the oldest looks for an active child and then deletes it. Every
listing, reading and removal is a step of its own (`GcPass.advance`).

The prune of `.venv` directories and the one of memory ledgers touch neither rows nor the files of a `Workspace`.
-/

namespace RobotsixMill
namespace Agents
open RobotsixMill.Core Lib Service

/-! ## The time in a ticket id -/

/-- The number that digits write. -/
def digitsValue (cs : List Char) : Nat := cs.foldl (fun n c => 10 * n + (c.toNat - 48)) 0

/-- The days of a month. -/
def daysInMonth (y m : Nat) : Nat :=
  if m = 2 then (if y % 4 = 0 ∧ (y % 100 ≠ 0 ∨ y % 400 = 0) then 29 else 28)
  else if m ∈ [4, 6, 9, 11] then 30
  else 31

/-- The day number, counted from 1970-01-01; the converse of `civil`. -/
def dayNumber (y m d : Nat) : Int :=
  let y' := if m ≤ 2 then y - 1 else y
  let yoe := y' % 400
  let doy := (153 * ((m + 9) % 12) + 2) / 5 + d - 1
  (y' / 400 * 146097 + (yoe * 365 + yoe / 4 - yoe / 100 + doy) : Nat) - 719468

/-- `_TICKET_ID_PREFIX_RE`, over the digits that ids are made of. -/
def isTicketName (name : String) : Bool :=
  let cs := name.toList
  decide (17 ≤ cs.length) && (cs.take 8).all Char.isDigit && decide (cs[8]? = some 'T') &&
    ((cs.drop 9).take 6).all Char.isDigit && decide (cs[15]? = some 'Z') && decide (cs[16]? = some '-')

/-- `_close_time_from_ticket_id`, in microseconds; the name is a ticket's. -/
def closeTimeFromTicketId (name : String) : Option Int :=
  let cs := name.toList
  let field := fun i n => digitsValue ((cs.drop i).take n)
  let (y, m, d) := (field 0 4, field 4 2, field 6 2)
  let (hour, minute, second) := (field 9 2, field 11 2, field 13 2)
  if 1 ≤ y ∧ 1 ≤ m ∧ m ≤ 12 ∧ 1 ≤ d ∧ d ≤ daysInMonth y m ∧ hour < 24 ∧ minute < 60 ∧ second < 60 then
    some ((dayNumber y m d * 86400 + (hour * 3600 + minute * 60 + second : Nat)) * 1000000)
  else none

example : closeTimeFromTicketId "20260811T103456Z-fix-the-thing-1a2b" = some 1786444496000000 := by decide +kernel

/-! ## Rows -/

/-- `_TERMINAL_STATES` of the runner. -/
def GC_TERMINAL_STATES : List State := [.closed, .epicClosed, .answered]

/-- Is the ticket finished? -/
def isFinished (r : TicketRecord) : Bool := decide (r.ticket.state ∈ GC_TERMINAL_STATES)

/-- The close time of a row: that of its latest event in a terminal state. -/
def terminalCloseTime (r : TicketRecord) : Option DateTime :=
  ((r.events.filter fun e => decide (e.state ∈ GC_TERMINAL_STATES)).map TicketEvent.at_).max?

/-- Is the time so many seconds ago? -/
def isAged (age : Nat) (now : DateTime) (t : Int) : Bool := decide (t + age * 1000000 ≤ now)

/-- `_iter_terminal_candidates`: is the directory one of a ticket that finished long enough ago? -/
def isPrunable (age : Nat) (now : DateTime) (board : BoardId) (σ : Mill) (name : TicketId) : Bool :=
  match σ.records.get (board, name) with
  | none => false
  | some r => isFinished r &&
      match terminalCloseTime r with
      | some t => isAged age now t
      | none => (closeTimeFromTicketId name).any (isAged age now)

/-- `find_orphan_workspaces`, and the age guard of `_prune_board_orphan_workspaces`. -/
def isOrphan (age : Nat) (now : DateTime) (board : BoardId) (σ : Mill) (name : TicketId) : Bool :=
  (σ.records.get (board, name)).isNone && (closeTimeFromTicketId name).any (isAged age now)

/-- The finished tickets of a board, oldest first. -/
def finishedRows (board : BoardId) (σ : Mill) : List TicketId :=
  ((σ.records.rows.filter fun row => decide (row.1.1 = board) && isFinished row.2).insertionSort
    fun a b => a.2.ticket.createdAt ≤ b.2.ticket.createdAt).map fun row => row.1.2

/-- `_has_active_child` of the runner. -/
def hasUnfinishedChild (σ : Mill) (board : BoardId) (tid : TicketId) : Bool :=
  σ.records.rows.any fun row =>
    decide (row.1.1 = board) && decide (row.2.ticket.parentId = some tid) && !isFinished row.2

/-! ## A pass -/

/-- The prunes, in their order. -/
inductive GcTask
  | clones
  | closed
  | dbRows
  | orphans
deriving DecidableEq, Repr

/-- What the runner is configured with; ages are constrained to be non-negative. -/
structure GcSettings where
  pruneTerminalClones : Bool := true
  pruneTerminalClonesAgeSeconds : Nat := 86400
  pruneClosed : Bool := false
  pruneClosedAgeSeconds : Nat := 604800
  pruneDbRows : Bool := true
  pruneOrphans : Bool := true
  pruneOrphansAgeSeconds : Nat := 86400

namespace GcSettings

/-- The prunes that are switched on. -/
def tasks (cfg : GcSettings) : List GcTask :=
  (if cfg.pruneTerminalClones then [.clones] else []) ++ (if cfg.pruneClosed then [.closed] else []) ++
    (if cfg.pruneDbRows then [.dbRows] else []) ++ (if cfg.pruneOrphans then [.orphans] else [])

/-- The age from which a prune removes. -/
def age (cfg : GcSettings) : GcTask → Nat
  | .clones => cfg.pruneTerminalClonesAgeSeconds
  | .closed => cfg.pruneClosedAgeSeconds
  | .orphans => cfg.pruneOrphansAgeSeconds
  | .dbRows => 0

end GcSettings

/-- Where a prune stands with a board. -/
inductive GcWork
  | idle
  /-- The directories are listed, and the rows not read. -/
  | listed (names : List TicketId)
  /-- These are to be removed. -/
  | removing (names : List TicketId)
  /-- So many rows are to be deleted, of these tickets. -/
  | purging (excess : Nat) (candidates : List TicketId)
  /-- The ticket has no active child on the board. -/
  | deleting (tid : TicketId) (excess : Nat) (candidates : List TicketId)
deriving DecidableEq, Repr

/-- A pass under way. -/
structure GcPass where
  /-- The prunes still to come. -/
  tasks : List GcTask
  task : GcTask
  now : DateTime
  /-- The boards this prune has still to go through. -/
  boards : List BoardId
  board : BoardId
  work : GcWork
deriving DecidableEq, Repr

/-- `shutil.rmtree`, of the directory or of the clones in it. -/
def removeDir (task : GcTask) (k : Key) (σ : Mill) : Mill :=
  match task, σ.workspaces k with
  | _, none => σ
  | .clones, some ws =>
    { σ with workspaces := Function.update σ.workspaces k (some { ws with repo := false, repos := false }) }
  | _, some _ => { σ with workspaces := Function.update σ.workspaces k none }

namespace GcPass

/-- A pass begins. -/
def start (cfg : GcSettings) : GcPass where
  tasks := cfg.tasks
  task := .clones
  now := 0
  boards := []
  board := ""
  work := .idle

/-- The next prune; `found` are the boards on disk. Without a cap there are no rows to prune. -/
def beginTask (env : Env) (task : GcTask) (tasks : List GcTask) (now : DateTime) (found : List BoardId) : GcPass where
  tasks := tasks
  task := task
  now := now
  boards := if task = .dbRows ∧ env.settings.maxArchivedTickets = 0 then [] else found
  board := ""
  work := .idle

/-- What a prune sees first of a board; `found` are the names in its directory. -/
def openBoard (env : Env) (board : BoardId) (found : List String) (p : GcPass) (σ : Mill) : GcWork :=
  match p.task with
  | .dbRows =>
    let candidates := finishedRows board σ
    if candidates.length ≤ env.settings.maxArchivedTickets then .idle
    else .purging (candidates.length - env.settings.maxArchivedTickets) candidates
  | _ => .listed (found.filter fun name => isTicketName name && (σ.workspaces (board, name)).isSome)

/-- Which of the listed directories the prune removes. -/
def takes (cfg : GcSettings) (p : GcPass) (σ : Mill) (name : TicketId) : Bool :=
  match p.task with
  | .orphans => isOrphan (cfg.age p.task) p.now p.board σ name
  | _ => isPrunable (cfg.age p.task) p.now p.board σ name

/-- The next step; the pass is over when it is `none`. `now` and `found` are what the clock and the directory say. -/
def advance (env : Env) (cfg : GcSettings) (now : DateTime) (found : List String) (p : GcPass) (σ : Mill) :
    Mill × Option GcPass :=
  match p.work with
  | .listed names => (σ, some { p with work := .removing (names.filter (p.takes cfg σ)) })
  | .removing (name :: names) => (removeDir p.task (p.board, name) σ, some { p with work := .removing names })
  | .removing [] => (σ, some { p with work := .idle })
  | .purging 0 _ | .purging _ [] => (σ, some { p with work := .idle })
  | .purging (excess + 1) (tid :: candidates) =>
    if hasUnfinishedChild σ p.board tid then (σ, some { p with work := .purging (excess + 1) candidates })
    else (σ, some { p with work := .deleting tid excess candidates })
  | .deleting tid excess candidates =>
    ({ σ with records := σ.records.erase (p.board, tid) }, some { p with work := .purging excess candidates })
  | .idle =>
    match p.boards, p.tasks with
    | board :: boards, _ => (σ, some { p with boards := boards, board := board, work := p.openBoard env board found σ })
    | [], task :: tasks => (σ, some (beginTask env task tasks now found))
    | [], [] => (σ, none)

/-- A database or a directory could not be read: the board is left at that. -/
def abandon (p : GcPass) : GcPass := { p with work := .idle }

end GcPass

end Agents
end RobotsixMill
