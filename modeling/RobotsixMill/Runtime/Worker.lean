import RobotsixMill.Core.Models
import RobotsixMill.Lib.MinQueue
import RobotsixMill.Lib.Runs
import Mathlib.Data.Prod.Lex
import Mathlib.Logic.Function.Basic

/-!
# `Runtime.Worker` — the per-board queues and their consumers

`Worker` holds one priority queue a board and the sets that guard them: `pending` (ids queued or in
flight), `capDeferred` (ids whose queue entry carries a demoted rank) and `inFlight` (ids a stage is
running for). The event loop switches tasks at an `await` only, so a consumer moves in three kinds of
steps:

- `iterate` — from `queue.get()` to the next wait: the pop-time rank check, the drain swaps, the
  drain-mode and in-flight-cap deferrals, the claim;
- `wake` — a deferral's sleep is over;
- `finish` — the stage run of the claimed ticket returned or crashed.

What an iteration reads from the database is arbitrary (`Reads`), and may differ from one read to the
next. `enqueue` and `reconcile` (the sweep of the poll loop) run in between.
-/

namespace RobotsixMill
namespace Runtime
open RobotsixMill.Core Lib

/-! ## Ranks and lanes -/

/-- States blocked by the in-flight-PR cap. -/
def CAP_GATED_STATES : List State := [.ready, .draft]

/-- Stages that drain mode does not start. -/
def DRAIN_HEAVY_STAGES : List String := ["implement", "ci_fix", "refine"]

/-- States that bypass the global concurrency gate. -/
def MERGE_LANE_STATES : List State := [.implementComplete, .humanMrApproval, .waitingAutoMerge]

/-- `_DEFAULT_STAGE_RANK`. -/
def DEFAULT_STAGE_RANK : Nat := 99

/-- `_STAGE_RANK`: lower pops first. -/
def STAGE_RANK : State → Option Nat
  | .classifying => some 0
  | .done => some 0
  | .deliverable => some 1
  | .documenting => some 2
  | .codeReview => some 3
  | .addressingReview => some 4
  | .fixingCi => some 5
  | .rebasing => some 6
  | .humanMrApproval => some 7
  | .waitingAutoMerge => some 8
  | .implementComplete => some 9
  | .ready => some 11
  | .draft => some 12
  | .asked => some 13
  | _ => none

/-- `_stage_rank`. -/
def stageRank : Option Ticket → Nat
  | none => DEFAULT_STAGE_RANK
  | some t => (STAGE_RANK t.state).getD DEFAULT_STAGE_RANK

/-- The priority rank of a ticket. -/
def prioRank : Option Ticket → Nat
  | some t => if t.priority then 0 else 1
  | none => 1

/-! ## The worker -/

/-- A queue item `(priority_rank, stage_rank, seq, ticket_id)`. -/
structure QueueItem where
  prio : Nat
  stage : Nat
  seq : Nat
  ticketId : TicketId
deriving DecidableEq, Repr

/-- The order of the heap; `seq` is unique. -/
def QueueItem.key (item : QueueItem) : Nat ×ₗ Nat ×ₗ Nat :=
  toLex (item.prio, toLex (item.stage, item.seq))

/-- One consumer task. -/
abbrev ConsumerId := Nat

/-- Where a consumer waits. -/
inductive Phase
  | getting
  /-- In the sleep after it deferred the ticket. -/
  | sleeping (tid : TicketId)
  /-- Between the claim of the ticket and the end of its run; `lane`: an ungated merge-lane run. -/
  | running (tid : TicketId) (lane : Bool)
  /-- An exception left the `finally` clause. -/
  | dead
deriving DecidableEq, Repr

/-- The fields of `Worker` its queues depend on, and where its consumers stand. A set is its membership
    test; a board without a queue has an empty one. -/
structure Worker where
  queues : BoardId → List QueueItem
  enqueueSeq : Nat
  pending : TicketId → Bool
  capDeferred : TicketId → Bool
  inFlight : TicketId → Bool
  phase : ConsumerId → Phase

/-- A worker that was just started. -/
def Worker.start : Worker where
  queues := fun _ => []
  enqueueSeq := 0
  pending := fun _ => false
  capDeferred := fun _ => false
  inFlight := fun _ => false
  phase := fun _ => .getting

/-- The consumer pool: the board each task serves, and whether the global gate exists. -/
structure Pool where
  board : ConsumerId → BoardId
  gated : Bool

/-- What the reads of one step return; each may raise. -/
structure Reads where
  /-- `self.ctx.service.get`: the ticket and its board. -/
  ctxGet : TicketId → Except String (Option (BoardId × Ticket))
  /-- The n-th `board_service.get` of the step. -/
  boardGet : Nat → TicketId → Except String (Option Ticket)
  /-- `max_inflight_prs` of the ticket's repo config. -/
  maxInflightPrs : TicketId → Option Int
  drainActive : Bool
  /-- `_count_inflight_prs`. -/
  inflightPrs : Except String Nat

namespace Worker

/-- `_DEFAULT_BOARD`. -/
def DEFAULT_BOARD : BoardId := ""

/-- `put_nowait` on a board's queue. -/
def put (board : BoardId) (item : QueueItem) (σ : Worker) : Worker :=
  { σ with queues := Function.update σ.queues board (σ.queues board ++ [item]) }

/-- `enqueue`; the flag tells whether it returned. The id is marked as pending before the ticket is
    read. -/
def enqueue (get : Except String (Option (BoardId × Ticket))) (tid : TicketId) (σ : Worker) :
    Worker × Bool :=
  if σ.pending tid then (σ, true)
  else
    let seq := σ.enqueueSeq + 1
    let σ₁ := { σ with pending := Function.update σ.pending tid true, enqueueSeq := seq }
    match get with
    | .error _ => (σ₁, false)
    | .ok owner =>
      let ticket := owner.map Prod.snd
      let board := (owner.map Prod.fst).getD DEFAULT_BOARD
      (σ₁.put board ⟨prioRank ticket, stageRank ticket, seq, tid⟩, true)

/-! ## One iteration of a consumer -/

/-- The ticket an iteration has in hand, with the ranks it was popped at. -/
structure Held where
  prio : Nat
  stage : Nat
  ticketId : TicketId
  before : Option Ticket

/-- The pop-time check: the entry's ranks are not the ticket's, and not because of a cap deferral. -/
def staleRank (σ : Worker) (item : QueueItem) (before : Option Ticket) : Bool :=
  before.isSome && !σ.capDeferred item.ticketId &&
    decide ((prioRank before, stageRank before) ≠ (item.prio, item.stage))

/-- The rank the ticket in hand is compared and put back with. -/
def curRank (σ : Worker) (h : Held) : Nat × Nat :=
  if σ.capDeferred h.ticketId then (h.prio, h.stage)
  else if h.before.isSome then (prioRank h.before, stageRank h.before)
  else (h.prio, h.stage)

/-- `(head_prio, head_stage) < cur_rank` on tuples. -/
def betterRank (head : QueueItem) (rank : Nat × Nat) : Bool :=
  decide (head.prio < rank.1) || (decide (head.prio = rank.1) && decide (head.stage < rank.2))

/-- Put the ticket in hand back into the queue under a rank. -/
def putBack (board : BoardId) (rank : Nat × Nat) (tid : TicketId) (σ : Worker) : Worker :=
  let seq := σ.enqueueSeq + 1
  { σ with enqueueSeq := seq, pending := Function.update σ.pending tid true }.put board
    ⟨rank.1, rank.2, seq, tid⟩

/-- The end of the drain loop: a ticket in hand, or an exception while one was. -/
inductive Drained
  | raised (tid : TicketId)
  | held (h : Held)

/-- The drain loop: swap the ticket in hand for the head of the queue while that is better ranked.
    `fuel` bounds the number of rounds, `none` is a loop that goes on; `n` counts the reads. -/
def drain (reads : Reads) (board : BoardId) : Nat → Nat → Held → Worker → Option (Worker × Drained)
  | 0, _, _, _ => none
  | fuel + 1, n, h, σ =>
    match popMin QueueItem.key (σ.queues board) with
    | none => some (σ, .held h)
    | some (head, _) =>
      if σ.capDeferred head.ticketId then some (σ, .held h)
      else if !betterRank head (σ.curRank h) then some (σ, .held h)
      else
        -- `task_done` and the new `get` do not wait: the queue is not empty
        let σ₁ := σ.putBack board (σ.curRank h) h.ticketId
        match popMin QueueItem.key (σ₁.queues board) with
        | none => none
        | some (item, rest) =>
          let σ₂ := { σ₁ with queues := Function.update σ₁.queues board rest }
          match reads.boardGet n item.ticketId with
          | .error _ => some (σ₂, .raised item.ticketId)
          | .ok before => drain reads board fuel (n + 1) ⟨item.prio, item.stage, item.ticketId, before⟩ σ₂

/-- Is the stage of the ticket's state one that drain mode does not start? -/
def heavy (before : Option Ticket) : Bool :=
  match before.bind fun t => STAGE_FOR_STATE t.state with
  | some stage => decide (stage ∈ DRAIN_HEAVY_STAGES)
  | none => false

/-- Is the ticket subject to the in-flight-PR cap, and which? -/
def capFor (reads : Reads) (h : Held) : Option Int :=
  match h.before with
  | some t =>
    if t.state ∈ CAP_GATED_STATES then (reads.maxInflightPrs h.ticketId).filter fun m => decide (0 < m)
    else none
  | none => none

/-- How an iteration goes on: it waits somewhere, or reaches its `finally` clause. -/
inductive Continuation
  | waits (σ : Worker)
  | ends (tid : TicketId) (σ : Worker)

/-- From the ticket in hand to the claim. -/
def admission (P : Pool) (reads : Reads) (c : ConsumerId) (h : Held) (σ : Worker) : Continuation :=
  let claim (σ : Worker) : Continuation :=
    let σ₁ := { σ with capDeferred := Function.update σ.capDeferred h.ticketId false }
    -- `_try_claim`: a live run covers the ticket
    if σ₁.inFlight h.ticketId then .ends h.ticketId σ₁
    else
      let lane := P.gated && h.before.any fun t => decide (t.state ∈ MERGE_LANE_STATES)
      .waits { σ₁ with inFlight := Function.update σ₁.inFlight h.ticketId true
                       phase := Function.update σ₁.phase c (.running h.ticketId lane) }
  let sleep (σ : Worker) : Continuation :=
    .waits { σ with phase := Function.update σ.phase c (.sleeping h.ticketId) }
  if reads.drainActive && heavy h.before then
    sleep (σ.putBack (P.board c) (h.prio, h.stage) h.ticketId)
  else
    match capFor reads h with
    | none => claim σ
    | some m =>
      match reads.inflightPrs with
      | .error _ => .ends h.ticketId σ
      | .ok n =>
        if m ≤ (n : Int) then
          sleep ({ σ with capDeferred := Function.update σ.capDeferred h.ticketId true }.putBack
            (P.board c) (max 1 h.prio, h.stage) h.ticketId)
        else claim σ

/-- An iteration of `_run`, from `queue.get()` on, up to its `finally` clause. -/
def iteration (P : Pool) (fuel : Nat) (reads : Reads) (c : ConsumerId) (σ : Worker) :
    Option Continuation :=
  match σ.phase c, popMin QueueItem.key (σ.queues (P.board c)) with
  | .getting, some (item, rest) =>
    let σ₁ := { σ with queues := Function.update σ.queues (P.board c) rest }
    match reads.boardGet 0 item.ticketId with
    | .error _ => some (.ends item.ticketId σ₁)
    | .ok before =>
      if σ₁.staleRank item before then
        let σ₂ := { σ₁ with pending := Function.update σ₁.pending item.ticketId false }
        some (.ends item.ticketId (σ₂.enqueue (reads.ctxGet item.ticketId) item.ticketId).1)
      else
        match drain reads (P.board c) fuel 1 ⟨item.prio, item.stage, item.ticketId, before⟩ σ₁ with
        | none => none
        | some (σ₂, .raised tid) => some (.ends tid σ₂)
        | some (σ₂, .held h) => some (admission P reads c h σ₂)
  | _, _ => none

/-- The `finally` clause, without the requeue at its end. -/
def finallyClause (tid : TicketId) (claimed : Bool) (σ : Worker) : Worker :=
  { σ with
    pending := Function.update σ.pending tid false
    inFlight := if claimed then Function.update σ.inFlight tid false else σ.inFlight }

/-- `_requeue_if_left_lane`, at the end of the `finally` clause: what raises there ends the task. -/
def requeueIfLeftLane (reads : Reads) (c : ConsumerId) (tid : TicketId) (σ : Worker) : Worker :=
  let die (σ : Worker) : Worker := { σ with phase := Function.update σ.phase c .dead }
  match reads.boardGet 0 tid with
  | .error _ => die σ
  | .ok none => σ
  | .ok (some t) =>
    if t.state ∉ MERGE_LANE_STATES ∧ (STAGE_FOR_STATE t.state).isSome = true then
      match σ.enqueue (reads.ctxGet tid) tid with
      | (σ', true) => σ'
      | (σ', false) => die σ'
    else σ

end Worker

/-! ## The steps of the event loop -/

/-- A ticket as the reconcile sweep sees it. -/
structure SweepRow where
  ticketId : TicketId
  ticket : Ticket
  unmetDependencies : Except String Bool
  ctxGet : Except String (Option (BoardId × Ticket))

/-- The sweep of `_poll_loop` over the listed tickets; an exception ends it. -/
def reconcile : List SweepRow → Worker → Worker
  | [], σ => σ
  | row :: rows, σ =>
    if row.ticket.kind = .epic ∧ row.ticket.state = .epicOpen then reconcile rows σ
    else if row.ticket.state = .awaitingUserReply then reconcile rows σ
    else if (STAGE_FOR_STATE row.ticket.state).isNone then reconcile rows σ
    else
      match row.unmetDependencies with
      | .error _ => σ
      | .ok true => reconcile rows σ
      | .ok false =>
        match σ.enqueue row.ctxGet row.ticketId with
        | (σ', true) => reconcile rows σ'
        | (σ', false) => σ'

/-- The steps. -/
inductive WorkerAction
  | enqueue (tid : TicketId) (get : Except String (Option (BoardId × Ticket)))
  | sweep (rows : List SweepRow)
  | iterate (c : ConsumerId) (fuel : Nat) (reads : Reads)
  | wake (c : ConsumerId)
  /-- `returned`: `process_ticket` came back without an exception. -/
  | finish (c : ConsumerId) (returned : Bool) (reads : Reads)

/-- The step, when it can be taken. -/
def WorkerAction.run (P : Pool) (σ : Worker) : WorkerAction → Option Worker
  | .enqueue tid get => some (σ.enqueue get tid).1
  | .sweep rows => some (reconcile rows σ)
  | .iterate c fuel reads =>
    match σ.iteration P fuel reads c with
    | none => none
    | some (.waits σ') => some σ'
    | some (.ends tid σ') => some (σ'.finallyClause tid false)
  | .wake c =>
    match σ.phase c with
    | .sleeping tid =>
      some { σ.finallyClause tid false with phase := Function.update σ.phase c .getting }
    | _ => none
  | .finish c returned reads =>
    match σ.phase c with
    | .running tid lane =>
      let σ₁ := { σ.finallyClause tid true with phase := Function.update σ.phase c .getting }
      if returned && lane then some (σ₁.requeueIfLeftLane reads c tid) else some σ₁
    | _ => none

/-- One step of the worker as a relation. -/
abbrev WorkerStep (P : Pool) (σ : Worker) (a : WorkerAction) (σ' : Worker) : Prop :=
  a.run P σ = some σ'

/-- Runs of the worker: any interleaving of its callers and consumers. -/
abbrev WorkerRun (P : Pool) (σ : Worker) (as : List WorkerAction) (σ' : Worker) : Prop :=
  Run (WorkerStep P) σ as σ'

end Runtime
end RobotsixMill
