import RobotsixMill.Service.Store
import RobotsixMill.Service.ImplementGuard

/-!
# `Service.Session` — what one database session does to one ticket

Every state-writing method of the service opens a session on one ticket, checks a guard, and commits
new rows for that ticket. This module holds the record side of each method: the refusal its guard
raises (`…Refusal`, `none` when the session commits) and the committed `TicketRecord`. The clock is
passed as the readings `now 0, now 1, …` the session takes.

Looking records up, the workspace files, and what a method does after its commit are in `Service.Ops`.
-/

namespace RobotsixMill
namespace Service
open RobotsixMill.Core Lib

/-! ## State sets -/

/-- Terminal pipeline outcomes: refused while an `[ASK_USER]` thread is open. -/
def TERMINAL_STATES : List State := [.done, .closed, .errored]

/-- Terminal epic states: re-entering one is a no-op. -/
def TERMINAL_EPIC_STATES : List State := [.epicClosed]

/-- Completions that re-open the tickets listed in `unblocks`. -/
def UNBLOCK_TRIGGER_STATES : List State := [.done, .closed, .epicClosed]

/-- States whose tickets the archive purge may delete. -/
def ARCHIVABLE_STATES : List State := [.closed, .answered, .epicClosed]

/-- States implement reaches only by delivering work. -/
def IMPLEMENT_PROGRESS_STATES : List State :=
  [.codeReview, .documenting, .deliverable, .implementComplete]

/-! ## Threads and events -/

/-- A top-level `[ASK_USER]` comment; the match is SQLite's `LIKE`. -/
def isAskUserThread (c : Comment) : Bool :=
  c.parentId.isNone && sqlLike ASK_USER_MARKER.toList c.body.toList

/-- `_has_open_ask_user_threads`. -/
def openAskUserThreads (cs : List Comment) : List Comment :=
  cs.filter fun c => isAskUserThread c && c.closedAt.isNone

/-- Close every open `[ASK_USER]` thread. -/
def closeAskUserThreads (now : DateTime) (cs : List Comment) : List Comment :=
  cs.map fun c =>
    if isAskUserThread c && c.closedAt.isNone then { c with closedAt := some now } else c

/-- Append the event `_make_event` builds. -/
def appendEvent (tid : TicketId) (events : List TicketEvent) (state : State) (note : Option String)
    (now : DateTime) : List TicketEvent :=
  events ++ [makeEvent tid events state note now]

/-- `not note or not note.strip()`. -/
def blankNote (note : Option String) : Bool :=
  match note with
  | none => true
  | some text => isBlank text

/-! ## `transition` -/

/-- Re-closing a closed epic returns early. -/
def transitionNoop (t : Ticket) (dst : State) : Bool :=
  decide (t.state = dst) && decide (dst ∈ TERMINAL_EPIC_STATES)

/-- A force-close of a ticket blocked on a question closes its threads instead of refusing. -/
def forceClosesThreads (t : Ticket) (dst : State) : Bool :=
  decide (t.state = .blocked) && decide (dst = .closed) &&
    decide (t.blockedFrom = some .awaitingUserReply)

/-- The exception `transition` raises before it writes anything. -/
def transitionRefusal (tid : TicketId) (dst : State) (r : TicketRecord) : Option ServiceError :=
  let t := r.ticket
  if canTransition t.state dst t.blockedFrom t.pausedFrom = false then
    some (.transitionError s!"{tid}: {t.state.value} -> {dst.value} not allowed")
  else if dst ∈ TERMINAL_STATES ∧ openAskUserThreads r.comments ≠ [] ∧
      forceClosesThreads t dst = false then
    let open_threads := openAskUserThreads r.comments
    let ids := ", ".intercalate (open_threads.map fun c => toString c.id)
    some (.transitionError (s!"{tid}: cannot transition to {dst.value} while " ++
      s!"{open_threads.length} [ASK_USER] thread(s) are open (IDs: {ids})"))
  else none

/-- The note the event carries: a block without a reason gets a generic one. -/
def transitionNote (t : Ticket) (dst : State) (note : Option String) : Option String :=
  if dst = .blocked ∧ blankNote note = true then
    some s!"blocked from {t.state.value} (no reason recorded)"
  else note

/-- Does the transition answer the open questions? -/
def closesThreads (t : Ticket) (dst : State) : Bool :=
  forceClosesThreads t dst || (decide (t.state = .awaitingUserReply) && decide (dst = .ready))

/-- The ticket row `transition` commits. -/
def transitionTicket (now : DateTime) (dst : State) (blockReason : Option String) (t : Ticket) :
    Ticket :=
  { t with
    state := dst
    updatedAt := now
    blockedFrom :=
      if dst = .blocked then some t.state
      else if t.state = .blocked then none
      else t.blockedFrom
    blockReason :=
      if dst = .blocked then blockReason
      else if t.state = .blocked then none
      else t.blockReason
    pausedFrom :=
      if dst = .awaitingUserReply then
        (if t.pausedFrom = none then some t.state else t.pausedFrom)
      else if t.state = .awaitingUserReply ∧ dst ≠ .blocked then none
      else t.pausedFrom }

/-- The record `transition` commits. -/
def transitionRecord (tid : TicketId) (now : Nat → DateTime) (dst : State) (note : Option String)
    (blockReason : Option String) (r : TicketRecord) : TicketRecord where
  ticket := transitionTicket (now 1) dst blockReason r.ticket
  events := appendEvent tid r.events dst (transitionNote r.ticket dst note) (now 2)
  comments :=
    if closesThreads r.ticket dst then closeAskUserThreads (now 0) r.comments else r.comments

/-- The artifacts after `transition`: forcing a ticket back into `ready` clears the stale-spec guard,
    leaving `ready` for delivered work returns the spawn budget. -/
def transitionArtifacts (t : Ticket) (dst : State) (note : Option String) (a : Artifacts) :
    Artifacts :=
  if (t.state = .blocked ∨ t.state = .awaitingUserReply) ∧ dst = .ready then
    clearStaleImplementGuard a (!blankNote note)
  else if t.state = .ready ∧ dst ∈ IMPLEMENT_PROGRESS_STATES then resetImplementSpawnCounter a
  else a

/-- Where `_fire_unblocks` sends a blocked target. -/
def unblockDst (t : Ticket) : State :=
  match t.blockedFrom with
  | none => .draft
  | some parked =>
    if canTransition .blocked parked (some parked) none then parked else .draft

/-! ## `resume_blocked` -/

def resumeRefusal (tid : TicketId) (t : Ticket) : Option ServiceError :=
  if t.state ≠ .blocked then
    some (.transitionError
      s!"{tid}: cannot resume — not BLOCKED (currently {t.state.value})")
  else
    match t.blockedFrom with
    | none =>
      some (.transitionError (s!"{tid}: cannot resume — no blocked_from recorded; " ++
        "use a manual transition (READY or DRAFT) instead"))
    | some dst =>
      if canTransition t.state dst (some dst) none = false then
        some (.transitionError s!"{tid}: {t.state.value} -> {dst.value} not allowed")
      else none

/-- The implement-review cycle counter is reset when it sits at its ceiling. -/
def cyclesReset (s : Settings) (dst : State) (t : Ticket) : Bool :=
  decide (dst = .ready) && decide (0 < s.maxImplementReviewCycles) &&
    decide ((s.maxImplementReviewCycles : Int) ≤ t.implementCycles)

/-- The record `resume_blocked` commits; `cid` is the id a comment would get. -/
def resumeRecord (s : Settings) (tid : TicketId) (now : Nat → DateTime) (cid : CommentId)
    (note eventNote : String) (r : TicketRecord) : TicketRecord :=
  let dst := r.ticket.blockedFrom.getD .blocked
  let comment : Comment :=
    { id := cid, body := strip note, author := "operator", createdAt := now 1 }
  { ticket := { r.ticket with
      blockedFrom := none
      blockReason := none
      retryAttempt := 0
      lastTransientError := none
      nextRetryAt := none
      preRedraftTraceCount := -1
      implementCycles := if cyclesReset s dst r.ticket then 0 else r.ticket.implementCycles
      state := dst
      updatedAt := now 0 }
    events := appendEvent tid r.events dst (some eventNote) (now 2)
    comments := if strip note = "" then r.comments else r.comments ++ [comment] }

/-! ## `request_changes` and `request_implementation_changes` -/

def requestChangesRefusal (tid : TicketId) (t : Ticket) : Option ServiceError :=
  if t.state = .humanIssueApproval then none
  else some (.transitionError (s!"{tid}: cannot request changes — " ++
    s!"not human_issue_approval (currently {t.state.value})"))

def requestImplementationChangesRefusal (tid : TicketId) (body : String) (t : Ticket) :
    Option ServiceError :=
  if isBlank body then
    some (.transitionError (s!"{tid}: cannot request implementation changes — " ++
      "a non-empty body is required; it is the only thing that " ++
      "tells the implement agent what to change"))
  else if t.state = .humanMrApproval then none
  else some (.transitionError (s!"{tid}: cannot request implementation changes — " ++
    s!"not human_mr_approval (currently {t.state.value})"))

/-- The record both methods commit: a comment unless the body is blank, and a move to `dst`. -/
def sendBackRecord (tid : TicketId) (now : Nat → DateTime) (cid : CommentId) (dst : State)
    (note body author : String) (r : TicketRecord) : TicketRecord :=
  let comment : Comment := { id := cid, body := body, author := author, createdAt := now 0 }
  { ticket := { r.ticket with state := dst, updatedAt := now 1 }
    events := appendEvent tid r.events dst (some note) (now 2)
    comments := if isBlank body then r.comments else r.comments ++ [comment] }

def requestChangesRecord (tid : TicketId) (now : Nat → DateTime) (cid : CommentId)
    (body author : String) (r : TicketRecord) : TicketRecord :=
  sendBackRecord tid now cid .draft s!"changes requested: {body}" body author r

def requestImplementationChangesRecord (tid : TicketId) (now : Nat → DateTime) (cid : CommentId)
    (body author : String) (r : TicketRecord) : TicketRecord :=
  sendBackRecord tid now cid .ready s!"implementation changes requested: {body}" body author r

/-! ## `redraft`, `mark_done` and `close_tracker` -/

def redraftRefusal (tid : TicketId) (t : Ticket) : Option ServiceError :=
  if t.state ∈ [State.draft, .closed, .answered, .epicClosed, .epicOpen] then
    some (.transitionError (s!"{tid}: cannot redraft — " ++
      s!"state {t.state.value} is not eligible for redraft"))
  else none

/-- `redraft`: comments and history are dropped, the draft event starts a fresh chain. -/
def redraftRecord (tid : TicketId) (now : Nat → DateTime) (body : String) (cost : ℚ)
    (r : TicketRecord) : TicketRecord where
  ticket := { r.ticket with
    branch := none, preRedraftCostUsd := cost, costUsd := 0, state := .draft, updatedAt := now 0 }
  events := appendEvent tid [] .draft
    (some (if body = "" then "redrafted" else s!"redrafted: {body}")) (now 1)
  comments := []

/-- The body `redraft` folds the discussion into; comments are listed by creation time. -/
def redraftDescription (body original : String) (comments : List Comment) : String :=
  let ordered := comments.insertionSort fun a b => a.createdAt ≤ b.createdAt
  let folded := (if isBlank body then [] else [body]) ++ ordered.map fun c =>
    s!"**{c.author}** — {String.ofList (isoformat c.createdAt)}:\n{c.body}"
  if folded = [] then original
  else s!"{original}\n\n---\n## Folded-in on redraft\n" ++ "\n\n".intercalate folded

def markDoneRefusal (tid : TicketId) (t : Ticket) : Option ServiceError :=
  if t.state ∈ [State.done, .closed, .answered, .epicClosed, .epicOpen] then
    some (.transitionError (s!"{tid}: cannot mark done — " ++
      s!"state {t.state.value} is not eligible for mark-done"))
  else none

/-- Stuck tickets and CI reports skip the merge verification. -/
def isForceClose (t : Ticket) : Bool :=
  decide (t.state = .blocked) || decide (t.state = .rebasing) || decide (t.source = SourceKind.CI)

/-- The note before citations are checked. -/
def markDoneNote (r : TicketRecord) (note : String) : String :=
  let reason := if isBlank note then "operator mark-done" else note
  let note := if isForceClose r.ticket then s!"[force-closed from {r.ticket.state.value}] {reason}"
    else note
  let open_ask := openAskUserThreads r.comments
  if open_ask = [] then note
  else
    let note_prefix := s!"[force-closed with {open_ask.length} open [ASK_USER] " ++
      "thread(s) — automatically closed]"
    if isBlank note then note_prefix else s!"{note_prefix} {note}"

/-- `mark_done`; `note` is the final note, citations checked. -/
def markDoneRecord (tid : TicketId) (now : Nat → DateTime) (cid : CommentId) (note author : String)
    (r : TicketRecord) : TicketRecord :=
  let comment : Comment := { id := cid, body := note, author := author, createdAt := now 1 }
  let comments := closeAskUserThreads (now 0) r.comments
  { ticket := { r.ticket with state := .done, updatedAt := now 2 }
    events := appendEvent tid r.events .done
      (some (if note = "" then "mark done" else s!"mark done: {note}")) (now 3)
    comments := if isBlank note then comments else comments ++ [comment] }

def closeTrackerRefusal (tid : TicketId) (t : Ticket) : Option ServiceError :=
  if t.state ∈ [State.done, .closed, .answered, .epicClosed] then
    some (.transitionError (s!"{tid}: cannot close tracker — " ++
      s!"state {t.state.value} is already terminal"))
  else none

def closeTrackerRecord (tid : TicketId) (now : Nat → DateTime) (note : String) (r : TicketRecord) :
    TicketRecord where
  ticket := { r.ticket with
    blockedFrom := none, blockReason := none, pausedFrom := none, state := .closed
    updatedAt := now 0 }
  events := appendEvent tid r.events .closed (some note) (now 1)
  comments := r.comments

/-! ## Auto-resume -/

/-- The event of `l` with the latest time, the first such one. -/
def latestEvent (l : List TicketEvent) : Option TicketEvent := latestBy TicketEvent.at_ l

/-- Where a paused ticket goes back to: its `paused_from`, or, for a ticket without one, the state of
    its latest event outside `awaiting_user_reply`. -/
def resumeTarget (t : Ticket) (events : List TicketEvent) : Option State :=
  match t.pausedFrom with
  | some s => some s
  | none => (latestEvent (events.filter fun e => e.state ≠ .awaitingUserReply)).map
      TicketEvent.state

/-- Does `_maybe_resume_awaiting_user_reply` resume the ticket, and to which state? -/
def autoResumeDst (r : TicketRecord) : Option State :=
  if r.ticket.state ≠ .awaitingUserReply then none
  else
    let ask_threads := r.comments.filter isAskUserThread
    if ask_threads = [] ∨ ask_threads.any (fun c => c.closedAt.isNone) then none
    else resumeTarget r.ticket r.events

/-- The record `_maybe_resume_awaiting_user_reply` commits when it resumes to `dst`. -/
def autoResumeRecord (tid : TicketId) (now : Nat → DateTime) (dst : State) (r : TicketRecord) :
    TicketRecord where
  ticket := { r.ticket with
    blockedFrom := none, blockReason := none, pausedFrom := none, state := dst
    updatedAt := now 0 }
  events := appendEvent tid r.events dst (some "all ask_user threads closed — resuming") (now 1)
  comments := r.comments

/-! ## Same-state events -/

/-- `add_history_note`. -/
def historyNoteRecord (tid : TicketId) (now : Nat → DateTime) (note : String) (r : TicketRecord) :
    TicketRecord :=
  { r with events := appendEvent tid r.events r.ticket.state (some note) (now 0) }

/-- `add_step_event`: the same event, and the row is touched. -/
def stepEventRecord (tid : TicketId) (now : Nat → DateTime) (note : String) (r : TicketRecord) :
    TicketRecord :=
  { r with
    ticket := { r.ticket with updatedAt := now 1 }
    events := appendEvent tid r.events r.ticket.state (some note) (now 0) }

/-! ## Migration -/

/-- Copy comments under fresh ids from `next` on, parents mapped through the ids copied so far. -/
def copyComments : CommentId → List (CommentId × CommentId) → List Comment →
    List Comment × List (CommentId × CommentId)
  | _, idMap, [] => ([], idMap)
  | next, idMap, c :: cs =>
    let copy := { c with id := next, parentId := c.parentId.bind fun p => List.lookup p idMap }
    let (rest, idMap') := copyComments (next + 1) ((c.id, next) :: idMap) cs
    (copy :: rest, idMap')

/-- `repr` of a board id, which holds neither quotes nor control characters. -/
def reprStr (s : String) : String := s!"'{s}'"

def migrationNote (srcBoard dstBoard : BoardId) (state : State) (note : Option String) : String :=
  s!"migrated from board {reprStr srcBoard} to {reprStr dstBoard}" ++
    (if state = .draft then "" else s!" (was {state.value})") ++
    (match note with
      | some n => if n = "" then "" else s!": {n}"
      | none => "")

/-- The row of the copy on the target board. -/
def migrateTicket (now : DateTime) (t : Ticket) : Ticket :=
  { t with
    state := .draft, branch := none, blockedFrom := none, pausedFrom := none, reviewRounds := 0
    implementCycles := 0, retryAttempt := 0, lastTransientError := none, nextRetryAt := none
    updatedAt := now }

/-- The copy on the target board; `comments` are the copied comments. -/
def migrateRecord (tid : TicketId) (now : Nat → DateTime) (note : String) (comments : List Comment)
    (r : TicketRecord) : TicketRecord where
  ticket := migrateTicket (now 0) r.ticket
  events := appendEvent tid r.events .draft (some note) (now 1)
  comments := comments

/-! ## Retention -/

/-- `_maybe_purge_ticket_events`: keep the newest `cap` events; the first survivor loses its link. -/
def purgeEventsRecord (cap : Nat) (r : TicketRecord) : TicketRecord :=
  if cap = 0 ∨ r.events.length ≤ cap then r
  else
    match r.events.drop (r.events.length - cap) with
    | [] => { r with events := [] }
    | earliest :: rest => { r with events := { earliest with prevHash := none } :: rest }

theorem purgeEventsRecord_keeps (limit : Nat) (r : TicketRecord) :
    (purgeEventsRecord limit r).ticket = r.ticket ∧ (purgeEventsRecord limit r).comments = r.comments := by
  unfold purgeEventsRecord
  split
  · exact ⟨rfl, rfl⟩
  · split <;> exact ⟨rfl, rfl⟩

end Service
end RobotsixMill
