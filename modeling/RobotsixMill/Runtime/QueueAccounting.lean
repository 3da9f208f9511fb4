import RobotsixMill.Runtime.Worker
import Mathlib.Data.Finset.Card

/-!
# `Runtime.QueueAccounting` — what the queues and the claims of the worker count

A queue counts the entries put into it for which `task_done` was not called yet, and `task_done` raises when there are
none, which ends the consumer that called it. `CountedWorker` is a worker together with these counters and a log of its
gets, its `task_done` calls and its claims; the functions below are those of `Runtime.Worker` with the calls put in
where `_run` makes them. A consumer may also be cancelled wherever it waits.

- `Balanced` — the books while a consumer is in the middle of its iteration;
- `queues_accounted` — every get is answered by one `task_done`, no such call raises, and the iteration that took a
  claim gives it back.
-/

namespace RobotsixMill
namespace Runtime
open RobotsixMill.Core Lib

/-! ## The worker with its counters -/

/-- What is logged. -/
inductive QueueEvent
  | got (c : ConsumerId)
  | done (c : ConsumerId)
  /-- `task_done` raised. -/
  | overdrawn (c : ConsumerId)
  | claimed (c : ConsumerId) (tid : TicketId)
  | released (c : ConsumerId) (tid : TicketId)
deriving DecidableEq, Repr

/-- The worker, `_unfinished_tasks` of its queues, and the log, latest event first. -/
structure CountedWorker where
  worker : Worker
  unfinished : BoardId → Nat
  log : List QueueEvent

/-- A worker that was just started. -/
def CountedWorker.start : CountedWorker := { worker := .start, unfinished := fun _ => 0, log := [] }

namespace CountedWorker

def record (e : QueueEvent) (σ : CountedWorker) : CountedWorker := { σ with log := e :: σ.log }

/-- `put_nowait`. -/
def put (board : BoardId) (item : QueueItem) (σ : CountedWorker) : CountedWorker :=
  { σ with
    worker := σ.worker.put board item
    unfinished := Function.update σ.unfinished board (σ.unfinished board + 1) }

/-- A `get` that does not wait; `none` if the queue is empty. -/
def get (c : ConsumerId) (board : BoardId) (σ : CountedWorker) : Option (QueueItem × CountedWorker) :=
  match popMin QueueItem.key (σ.worker.queues board) with
  | none => none
  | some (item, rest) =>
    let worker := { σ.worker with queues := Function.update σ.worker.queues board rest }
    some (item, { σ with worker := worker }.record (.got c))

/-- `task_done`; the flag tells whether it returned. -/
def taskDone (c : ConsumerId) (board : BoardId) (σ : CountedWorker) : CountedWorker × Bool :=
  if σ.unfinished board = 0 then (σ.record (.overdrawn c), false)
  else
    ({ σ with unfinished := Function.update σ.unfinished board (σ.unfinished board - 1) }.record (.done c), true)

/-- `enqueue`; the flag tells whether it returned. -/
def enqueue (get : Except String (Option (BoardId × Ticket))) (tid : TicketId) (σ : CountedWorker) :
    CountedWorker × Bool :=
  if σ.worker.pending tid then (σ, true)
  else
    let seq := σ.worker.enqueueSeq + 1
    let worker := { σ.worker with pending := Function.update σ.worker.pending tid true, enqueueSeq := seq }
    let σ₁ := { σ with worker := worker }
    match get with
    | .error _ => (σ₁, false)
    | .ok owner =>
      let ticket := owner.map Prod.snd
      let board := (owner.map Prod.fst).getD Worker.DEFAULT_BOARD
      (σ₁.put board ⟨prioRank ticket, stageRank ticket, seq, tid⟩, true)

/-! ### One iteration of a consumer -/

/-- Put the ticket in hand back into the queue under a rank. -/
def putBack (board : BoardId) (rank : Nat × Nat) (tid : TicketId) (σ : CountedWorker) : CountedWorker :=
  let seq := σ.worker.enqueueSeq + 1
  let worker := { σ.worker with enqueueSeq := seq, pending := Function.update σ.worker.pending tid true }
  { σ with worker := worker }.put board ⟨rank.1, rank.2, seq, tid⟩

/-- The drain loop. -/
def drain (reads : Reads) (c : ConsumerId) (board : BoardId) :
    Nat → Nat → Worker.Held → CountedWorker → Option (CountedWorker × Worker.Drained)
  | 0, _, _, _ => none
  | fuel + 1, n, h, σ =>
    match popMin QueueItem.key (σ.worker.queues board) with
    | none => some (σ, .held h)
    | some (head, _) =>
      if σ.worker.capDeferred head.ticketId then some (σ, .held h)
      else if !Worker.betterRank head (σ.worker.curRank h) then some (σ, .held h)
      else
        match σ.taskDone c board with
        | (σ₁, false) => some (σ₁, .raised h.ticketId)
        | (σ₁, true) =>
          match (σ₁.putBack board (σ.worker.curRank h) h.ticketId).get c board with
          | none => none
          | some (item, σ₂) =>
            match reads.boardGet n item.ticketId with
            | .error _ => some (σ₂, .raised item.ticketId)
            | .ok before => drain reads c board fuel (n + 1) ⟨item.prio, item.stage, item.ticketId, before⟩ σ₂

/-- How an iteration goes on: it waits somewhere, or reaches its `finally` clause. -/
inductive Continuation
  | waits (σ : CountedWorker)
  | ends (tid : TicketId) (σ : CountedWorker)

/-- From the ticket in hand to the claim. -/
def admission (P : Pool) (reads : Reads) (c : ConsumerId) (h : Worker.Held) (σ : CountedWorker) : Continuation :=
  let claim (σ : CountedWorker) : Continuation :=
    let worker := { σ.worker with capDeferred := Function.update σ.worker.capDeferred h.ticketId false }
    if worker.inFlight h.ticketId then .ends h.ticketId { σ with worker := worker }
    else
      let lane := P.gated && h.before.any fun t => decide (t.state ∈ MERGE_LANE_STATES)
      let worker := { worker with
        inFlight := Function.update worker.inFlight h.ticketId true
        phase := Function.update worker.phase c (.running h.ticketId lane) }
      .waits ({ σ with worker := worker }.record (.claimed c h.ticketId))
  let sleep (σ : CountedWorker) : Continuation :=
    let worker := { σ.worker with phase := Function.update σ.worker.phase c (.sleeping h.ticketId) }
    .waits { σ with worker := worker }
  if reads.drainActive && Worker.heavy h.before then
    sleep (σ.putBack (P.board c) (h.prio, h.stage) h.ticketId)
  else
    match Worker.capFor reads h with
    | none => claim σ
    | some m =>
      match reads.inflightPrs with
      | .error _ => .ends h.ticketId σ
      | .ok n =>
        if m ≤ (n : Int) then
          let worker := { σ.worker with capDeferred := Function.update σ.worker.capDeferred h.ticketId true }
          sleep ({ σ with worker := worker }.putBack (P.board c) (max 1 h.prio, h.stage) h.ticketId)
        else claim σ

/-- An iteration of `_run`, from `queue.get()` on, up to its `finally` clause. -/
def iteration (P : Pool) (fuel : Nat) (reads : Reads) (c : ConsumerId) (σ : CountedWorker) : Option Continuation :=
  match σ.worker.phase c, σ.get c (P.board c) with
  | .getting, some (item, σ₁) =>
    match reads.boardGet 0 item.ticketId with
    | .error _ => some (.ends item.ticketId σ₁)
    | .ok before =>
      if σ₁.worker.staleRank item before then
        let worker := { σ₁.worker with pending := Function.update σ₁.worker.pending item.ticketId false }
        some (.ends item.ticketId
          ({ σ₁ with worker := worker }.enqueue (reads.ctxGet item.ticketId) item.ticketId).1)
      else
        match drain reads c (P.board c) fuel 1 ⟨item.prio, item.stage, item.ticketId, before⟩ σ₁ with
        | none => none
        | some (σ₂, .raised tid) => some (.ends tid σ₂)
        | some (σ₂, .held h) => some (admission P reads c h σ₂)
  | _, _ => none

/-- The consumer task ends. -/
def die (c : ConsumerId) (σ : CountedWorker) : CountedWorker :=
  { σ with worker := { σ.worker with phase := Function.update σ.worker.phase c .dead } }

/-- The `finally` clause, without the requeue at its end; `claimed` is the local variable. The flag tells whether
    `task_done` returned. -/
def finallyClause (P : Pool) (c : ConsumerId) (tid : TicketId) (claimed : Option TicketId) (σ : CountedWorker) :
    CountedWorker × Bool :=
  let σ₁ := { σ with worker := { σ.worker with pending := Function.update σ.worker.pending tid false } }
  let σ₂ :=
    match claimed with
    | none => σ₁
    | some t =>
      let worker := { σ₁.worker with inFlight := Function.update σ₁.worker.inFlight t false }
      { σ₁ with worker := worker }.record (.released c t)
  σ₂.taskDone c (P.board c)

/-- `_requeue_if_left_lane`, at the end of the `finally` clause: what raises there ends the task. -/
def requeueIfLeftLane (reads : Reads) (c : ConsumerId) (tid : TicketId) (σ : CountedWorker) : CountedWorker :=
  match reads.boardGet 0 tid with
  | .error _ => σ.die c
  | .ok none => σ
  | .ok (some t) =>
    if t.state ∉ MERGE_LANE_STATES ∧ (STAGE_FOR_STATE t.state).isSome = true then
      match σ.enqueue (reads.ctxGet tid) tid with
      | (σ', true) => σ'
      | (σ', false) => σ'.die c
    else σ

/-- The end of an iteration, back to `queue.get()` unless something raised in the `finally` clause. -/
def endIteration (P : Pool) (c : ConsumerId) (tid : TicketId) (claimed : Option TicketId) (requeue : Option Reads)
    (σ : CountedWorker) : CountedWorker :=
  match σ.finallyClause P c tid claimed with
  | (σ₁, false) => σ₁.die c
  | (σ₁, true) =>
    let σ₂ := { σ₁ with worker := { σ₁.worker with phase := Function.update σ₁.worker.phase c .getting } }
    match requeue with
    | none => σ₂
    | some reads => σ₂.requeueIfLeftLane reads c tid

/-- The sweep of `_poll_loop`. -/
def reconcile : List SweepRow → CountedWorker → CountedWorker
  | [], σ => σ
  | row :: rows, σ =>
    if row.ticket.kind = .epic ∧ row.ticket.state = .epicOpen then reconcile rows σ
    else if row.ticket.state = .awaitingUserReply then reconcile rows σ
    else if (STAGE_FOR_STATE row.ticket.state).isNone then reconcile rows σ
    else
      match row.unmetDependencies with
      | .error _ => σ
      | .ok true => reconcile rows σ
      | .ok false =>
        match σ.enqueue row.ctxGet row.ticketId with
        | (σ', true) => reconcile rows σ'
        | (σ', false) => σ'

end CountedWorker

/-! ## The steps -/

/-- The steps of the worker, and the cancellation of a consumer where it waits; `requeue` tells whether a merge-lane
    run was over by then, and what its requeue reads. -/
inductive CountedAction
  | step (a : WorkerAction)
  | cancel (c : ConsumerId) (requeue : Option Reads)

/-- The step, when it can be taken. -/
def CountedAction.run (P : Pool) (σ : CountedWorker) : CountedAction → Option CountedWorker
  | .step (.enqueue tid get) => some (σ.enqueue get tid).1
  | .step (.sweep rows) => some (σ.reconcile rows)
  | .step (.iterate c fuel reads) =>
    match σ.iteration P fuel reads c with
    | none => none
    | some (.waits σ') => some σ'
    | some (.ends tid σ') => some (σ'.endIteration P c tid none none)
  | .step (.wake c) =>
    match σ.worker.phase c with
    | .sleeping tid => some (σ.endIteration P c tid none none)
    | _ => none
  | .step (.finish c returned reads) =>
    match σ.worker.phase c with
    | .running tid lane => some (σ.endIteration P c tid (some tid) (if returned && lane then some reads else none))
    | _ => none
  | .cancel c requeue =>
    match σ.worker.phase c with
    | .getting => some (σ.die c)
    | .sleeping tid => some ((σ.endIteration P c tid none none).die c)
    | .running tid lane =>
      some ((σ.endIteration P c tid (some tid) (requeue.filter fun _ => lane)).die c)
    | .dead => none

/-- One step as a relation. -/
def CountedStep (P : Pool) (σ : CountedWorker) (a : CountedAction) (σ' : CountedWorker) : Prop := a.run P σ = some σ'

/-! ## The books -/

/-- Does the consumer have an entry of its queue in hand? -/
def Phase.busy : Phase → Bool
  | .sleeping _ => true
  | .running _ _ => true
  | _ => false

/-- The claim that the consumer holds. -/
def Phase.claim : Phase → Option TicketId
  | .running tid _ => some tid
  | _ => none

/-- Where a consumer is in its iteration: without an entry, with one in hand, or with a claim besides. -/
inductive Standing
  | idle
  | holding
  | claiming (tid : TicketId)
deriving DecidableEq, Repr

/-- The standing of a consumer after the log: it gets an entry when it has none, answers the get without a claim, takes
    a claim while it holds an entry and releases the claim it took. `none` if another event came, or a `task_done`
    raised. -/
def standing (c : ConsumerId) : List QueueEvent → Option Standing
  | [] => some .idle
  | .got d :: log =>
    if d = c then (if standing c log = some .idle then some .holding else none) else standing c log
  | .done d :: log =>
    if d = c then (if standing c log = some .holding then some .idle else none) else standing c log
  | .overdrawn d :: log => if d = c then none else standing c log
  | .claimed d tid :: log =>
    if d = c then (if standing c log = some .holding then some (.claiming tid) else none) else standing c log
  | .released d tid :: log =>
    if d = c then (if standing c log = some (.claiming tid) then some .holding else none) else standing c log

/-- The standing of a consumer that has an entry in hand or not, and the claim. -/
def Standing.of : Bool → Option TicketId → Standing
  | false, _ => .idle
  | true, none => .holding
  | true, some tid => .claiming tid

/-- The books, where the consumers in `hand` have an entry in hand and each the given claim. -/
structure Balanced (P : Pool) (hand : Finset ConsumerId) (claim : ConsumerId → Option TicketId) (σ : CountedWorker) :
    Prop where
  counts : ∀ b, σ.unfinished b = (σ.worker.queues b).length + (hand.filter fun c => P.board c = b).card
  standings : ∀ c, standing c σ.log = some (.of (decide (c ∈ hand)) (claim c))
  inHand : ∀ c tid, claim c = some tid → c ∈ hand
  inFlight : ∀ tid, σ.worker.inFlight tid = true ↔ ∃ c, claim c = some tid
  unique : ∀ c d tid, claim c = some tid → claim d = some tid → c = d

/-- An iteration goes on as that of the worker does; where it waits, the books have its claim. -/
inductive Continued (P : Pool) (hand : Finset ConsumerId) (claim : ConsumerId → Option TicketId)
    (phase : ConsumerId → Phase) (c : ConsumerId) : Worker.Continuation → CountedWorker.Continuation → Prop
  | waits {σ : CountedWorker} (p : Phase) (hbusy : p.busy = true) (hphase : σ.worker.phase = Function.update phase c p)
      (h : Balanced P hand (Function.update claim c p.claim) σ) :
      Continued P hand claim phase c (.waits σ.worker) (.waits σ)
  | ends {σ : CountedWorker} (tid : TicketId) (hphase : σ.worker.phase = phase) (h : Balanced P hand claim σ) :
      Continued P hand claim phase c (.ends tid σ.worker) (.ends tid σ)

/-- The books between two steps. -/
def Accounts (P : Pool) (σ : CountedWorker) : Prop :=
  ∃ hand : Finset ConsumerId, (∀ c, c ∈ hand ↔ (σ.worker.phase c).busy = true) ∧
    Balanced P hand (fun c => (σ.worker.phase c).claim) σ

section Books

variable {P : Pool} {hand : Finset ConsumerId} {claim : ConsumerId → Option TicketId} {σ σ' : CountedWorker}
  {c : ConsumerId} {board : BoardId}

theorem accounts_start : Accounts P .start := by
  refine ⟨∅, fun c => ?_, fun b => rfl, fun c => rfl, fun c tid h => ?_, fun tid => ?_, fun c d tid h => ?_⟩
  · exact iff_of_false (Finset.notMem_empty c) Bool.false_ne_true
  · cases h
  · exact iff_of_false Bool.false_ne_true fun ⟨_, h⟩ => by cases h
  · cases h

/-- Of the worker, only its queues and its claims are accounted for. -/
theorem Balanced.congr (h : Balanced P hand claim σ) (hunfinished : σ'.unfinished = σ.unfinished)
    (hlog : σ'.log = σ.log) (hqueues : σ'.worker.queues = σ.worker.queues)
    (hinFlight : σ'.worker.inFlight = σ.worker.inFlight) : Balanced P hand claim σ' where
  counts b := by
    rw [hunfinished, hqueues]
    exact h.counts b
  standings := by
    rw [hlog]
    exact h.standings
  inHand := h.inHand
  inFlight tid := by
    rw [hinFlight]
    exact h.inFlight tid
  unique := h.unique

theorem Balanced.claim_eq_none (h : Balanced P hand claim σ) (hc : c ∉ hand) : claim c = none :=
  Option.eq_none_iff_forall_ne_some.2 fun tid htid => hc (h.inHand c tid htid)

theorem Balanced.put (h : Balanced P hand claim σ) (board : BoardId) (item : QueueItem) :
    Balanced P hand claim (σ.put board item) where
  counts b := by
    show Function.update σ.unfinished board (σ.unfinished board + 1) b =
      (Function.update σ.worker.queues board (σ.worker.queues board ++ [item]) b).length + _
    by_cases hb : b = board
    · subst hb
      rw [Function.update_self, Function.update_self, List.length_append, List.length_singleton, h.counts]
      omega
    · rw [Function.update_of_ne hb, Function.update_of_ne hb]
      exact h.counts b
  standings := h.standings
  inHand := h.inHand
  inFlight := h.inFlight
  unique := h.unique

theorem Balanced.putBack (h : Balanced P hand claim σ) (board : BoardId) (rank : Nat × Nat) (tid : TicketId) :
    Balanced P hand claim (σ.putBack board rank tid) := by
  unfold CountedWorker.putBack
  refine Balanced.put ?_ _ _
  exact h.congr rfl rfl rfl rfl

theorem get_eq_none (hpop : popMin QueueItem.key (σ.worker.queues board) = none) : σ.get c board = none := by
  unfold CountedWorker.get
  rw [hpop]

/-- A get takes an entry into the consumer's hands. -/
theorem Balanced.get (h : Balanced P hand claim σ) (hc : c ∉ hand) {item : QueueItem} {rest : List QueueItem}
    (hpop : popMin QueueItem.key (σ.worker.queues (P.board c)) = some (item, rest)) :
    ∃ σ', σ.get c (P.board c) = some (item, σ') ∧
      σ'.worker = { σ.worker with queues := Function.update σ.worker.queues (P.board c) rest } ∧
      Balanced P (insert c hand) claim σ' := by
  unfold CountedWorker.get
  rw [hpop]
  have hlength : (σ.worker.queues (P.board c)).length = rest.length + 1 := (perm_of_popMin hpop).length_eq.symm
  have hclaim := h.claim_eq_none hc
  refine ⟨_, rfl, rfl, fun b => ?_, fun d => ?_, fun d tid hd => Finset.mem_insert_of_mem (h.inHand d tid hd),
    h.inFlight, h.unique⟩
  · show σ.unfinished b = (Function.update σ.worker.queues (P.board c) rest b).length + _
    rw [h.counts, Finset.filter_insert]
    by_cases hb : P.board c = b
    · subst hb
      rw [if_pos rfl, Function.update_self, hlength,
        Finset.card_insert_of_notMem fun hmem => hc (Finset.mem_filter.1 hmem).1]
      omega
    · rw [if_neg hb, Function.update_of_ne (Ne.symm hb)]
  · show (if c = d then _ else _) = _
    by_cases hd : c = d
    · subst hd
      rw [if_pos rfl, h.standings, decide_eq_false hc, decide_eq_true (Finset.mem_insert_self c hand), hclaim]
      rfl
    · rw [if_neg hd, h.standings]
      simp [Finset.mem_insert, Ne.symm hd]

/-- A `task_done` of a consumer with an entry in hand does not raise. -/
theorem Balanced.taskDone (h : Balanced P hand claim σ) (hc : c ∈ hand) (hclaim : claim c = none) :
    ∃ σ', σ.taskDone c (P.board c) = (σ', true) ∧ σ'.worker = σ.worker ∧ Balanced P (hand.erase c) claim σ' := by
  have hmem : c ∈ hand.filter fun d => P.board d = P.board c := Finset.mem_filter.2 ⟨hc, rfl⟩
  have hpos : 0 < (hand.filter fun d => P.board d = P.board c).card := Finset.card_pos.2 ⟨c, hmem⟩
  have hcount := h.counts (P.board c)
  unfold CountedWorker.taskDone
  rw [if_neg (by omega)]
  refine ⟨_, rfl, rfl, fun b => ?_, fun d => ?_, fun d tid hd => Finset.mem_erase.2 ⟨?_, h.inHand d tid hd⟩,
    h.inFlight, h.unique⟩
  · show Function.update σ.unfinished (P.board c) (σ.unfinished (P.board c) - 1) b = (σ.worker.queues b).length + _
    rw [Finset.filter_erase]
    by_cases hb : b = P.board c
    · subst hb
      rw [Function.update_self, Finset.card_erase_of_mem hmem]
      omega
    · rw [Function.update_of_ne hb, h.counts, Finset.erase_eq_of_notMem]
      exact fun hmem => hb (Finset.mem_filter.1 hmem).2.symm
  · show (if c = d then _ else _) = _
    by_cases hd : c = d
    · subst hd
      rw [if_pos rfl, h.standings, decide_eq_true hc, decide_eq_false (Finset.notMem_erase c hand), hclaim]
      rfl
    · rw [if_neg hd, h.standings]
      simp [Finset.mem_erase, Ne.symm hd]
  · rintro rfl
    rw [hclaim] at hd
    cases hd

theorem Balanced.enqueue (h : Balanced P hand claim σ) (get : Except String (Option (BoardId × Ticket)))
    (tid : TicketId) : Balanced P hand claim (σ.enqueue get tid).1 := by
  unfold CountedWorker.enqueue
  split
  · exact h
  · cases get with
    | error _ => exact h.congr rfl rfl rfl rfl
    | ok owner =>
      refine Balanced.put ?_ _ _
      exact h.congr rfl rfl rfl rfl

theorem worker_enqueue (get : Except String (Option (BoardId × Ticket))) (tid : TicketId) (σ : CountedWorker) :
    (σ.enqueue get tid).1.worker = (σ.worker.enqueue get tid).1 ∧
      (σ.enqueue get tid).2 = (σ.worker.enqueue get tid).2 := by
  unfold CountedWorker.enqueue Worker.enqueue
  split
  · exact ⟨rfl, rfl⟩
  · cases get <;> exact ⟨rfl, rfl⟩

theorem Worker.phase_enqueue (get : Except String (Option (BoardId × Ticket))) (tid : TicketId) (w : Worker) :
    (w.enqueue get tid).1.phase = w.phase := by
  unfold Worker.enqueue
  split
  · rfl
  · cases get <;> rfl

/-- The drain loop swaps the entry in hand for another one. -/
theorem Balanced.drain {reads : Reads} {fuel : Nat} {d : Worker.Drained} (hc : c ∈ hand) (hclaim : claim c = none) :
    ∀ {n : Nat} {held : Worker.Held} {σ : CountedWorker}, Balanced P hand claim σ →
      σ.drain reads c (P.board c) fuel n held = some (σ', d) →
      Balanced P hand claim σ' ∧ Worker.drain reads (P.board c) fuel n held σ.worker = some (σ'.worker, d) ∧
        σ'.worker.phase = σ.worker.phase := by
  induction fuel with
  | zero =>
    intro n held σ h hdrain
    cases hdrain
  | succ fuel ih =>
    intro n held σ h hdrain
    unfold CountedWorker.drain at hdrain
    unfold Worker.drain
    cases hpop : popMin QueueItem.key (σ.worker.queues (P.board c)) with
    | none =>
      rw [hpop] at hdrain
      cases hdrain
      exact ⟨h, rfl, rfl⟩
    | some found =>
      obtain ⟨head, rest⟩ := found
      rw [hpop] at hdrain
      dsimp only at hdrain ⊢
      split at hdrain
      · rename_i hdeferred
        cases hdrain
        rw [if_pos hdeferred]
        exact ⟨h, rfl, rfl⟩
      · rename_i hdeferred
        rw [if_neg hdeferred]
        split at hdrain
        · rename_i hrank
          cases hdrain
          rw [if_pos hrank]
          exact ⟨h, rfl, rfl⟩
        · rename_i hrank
          rw [if_neg hrank]
          -- the `task_done` of the swap answers the get of the entry that goes back
          obtain ⟨σ₁, hdone, hworker, h₁⟩ := h.taskDone hc hclaim
          rw [hdone] at hdrain
          dsimp only at hdrain
          have h₂ := h₁.putBack (P.board c) (σ.worker.curRank held) held.ticketId
          have hworker₂ : (σ₁.putBack (P.board c) (σ.worker.curRank held) held.ticketId).worker =
              σ.worker.putBack (P.board c) (σ.worker.curRank held) held.ticketId := by
            rw [← hworker]
            rfl
          generalize σ₁.putBack (P.board c) (σ.worker.curRank held) held.ticketId = σ₂ at hdrain h₂ hworker₂
          have hphase₂ : σ₂.worker.phase = σ.worker.phase := by
            rw [hworker₂]
            rfl
          rw [← hworker₂]
          cases hnext : popMin QueueItem.key (σ₂.worker.queues (P.board c)) with
          | none =>
            rw [get_eq_none hnext] at hdrain
            cases hdrain
          | some next =>
            obtain ⟨item, others⟩ := next
            obtain ⟨σ₃, hget, hworker₃, h₃⟩ := h₂.get (Finset.notMem_erase c hand) hnext
            rw [Finset.insert_erase hc] at h₃
            have hphase₃ : σ₃.worker.phase = σ.worker.phase := by
              rw [hworker₃]
              exact hphase₂
            rw [hget] at hdrain
            dsimp only at hdrain ⊢
            rw [← hworker₃]
            cases hread : reads.boardGet n item.ticketId with
            | error _ =>
              rw [hread] at hdrain
              cases hdrain
              exact ⟨h₃, rfl, hphase₃⟩
            | ok before =>
              rw [hread] at hdrain
              obtain ⟨h', hworker', hphase'⟩ := ih h₃ hdrain
              exact ⟨h', hworker', hphase'.trans hphase₃⟩

/-- A claim of a ticket that nobody has claimed. -/
theorem Balanced.claimed {tid : TicketId} (h : Balanced P hand claim σ) (hc : c ∈ hand) (hclaim : claim c = none)
    (hfree : ¬σ.worker.inFlight tid = true) (hunfinished : σ'.unfinished = σ.unfinished)
    (hlog : σ'.log = .claimed c tid :: σ.log) (hqueues : σ'.worker.queues = σ.worker.queues)
    (hinFlight : σ'.worker.inFlight = Function.update σ.worker.inFlight tid true) :
    Balanced P hand (Function.update claim c (some tid)) σ' := by
  have hnobody : ∀ d, claim d ≠ some tid := fun d hd => hfree ((h.inFlight tid).2 ⟨d, hd⟩)
  refine ⟨fun b => ?_, fun d => ?_, fun d t hd => ?_, fun t => ?_, fun d e t hd he => ?_⟩
  · rw [hunfinished, hqueues]
    exact h.counts b
  · rw [hlog]
    show (if c = d then _ else _) = _
    by_cases hd : c = d
    · subst hd
      rw [if_pos rfl, h.standings, hclaim, decide_eq_true hc, Function.update_self]
      rfl
    · rw [if_neg hd, h.standings, Function.update_of_ne (Ne.symm hd)]
  · by_cases hdc : d = c
    · rw [hdc]
      exact hc
    · rw [Function.update_of_ne hdc] at hd
      exact h.inHand d t hd
  · rw [hinFlight]
    by_cases ht : t = tid
    · subst ht
      rw [Function.update_self]
      exact iff_of_true rfl ⟨c, Function.update_self ..⟩
    · rw [Function.update_of_ne ht, h.inFlight]
      constructor
      · rintro ⟨d, hd⟩
        have hdc : d ≠ c := by
          rintro rfl
          rw [hclaim] at hd
          cases hd
        exact ⟨d, by rw [Function.update_of_ne hdc, hd]⟩
      · rintro ⟨d, hd⟩
        by_cases hdc : d = c
        · subst hdc
          rw [Function.update_self] at hd
          exact absurd (Option.some.inj hd).symm ht
        · rw [Function.update_of_ne hdc] at hd
          exact ⟨d, hd⟩
  · by_cases hdc : d = c <;> by_cases hec : e = c
    · rw [hdc, hec]
    · subst hdc
      rw [Function.update_self] at hd
      rw [Function.update_of_ne hec, ← hd] at he
      exact absurd he (hnobody e)
    · subst hec
      rw [Function.update_self] at he
      rw [Function.update_of_ne hdc, ← he] at hd
      exact absurd hd (hnobody d)
    · rw [Function.update_of_ne hdc] at hd
      rw [Function.update_of_ne hec] at he
      exact h.unique d e t hd he

/-- The release of a claim by the consumer that holds it. -/
theorem Balanced.released {tid : TicketId} (h : Balanced P hand claim σ) (hclaim : claim c = some tid)
    (hunfinished : σ'.unfinished = σ.unfinished) (hlog : σ'.log = .released c tid :: σ.log)
    (hqueues : σ'.worker.queues = σ.worker.queues)
    (hinFlight : σ'.worker.inFlight = Function.update σ.worker.inFlight tid false) :
    Balanced P hand (Function.update claim c none) σ' := by
  have hothers : ∀ {d t}, Function.update claim c none d = some t → d ≠ c ∧ claim d = some t := by
    intro d t hd
    by_cases hdc : d = c
    · subst hdc
      rw [Function.update_self] at hd
      cases hd
    · rw [Function.update_of_ne hdc] at hd
      exact ⟨hdc, hd⟩
  refine ⟨fun b => ?_, fun d => ?_, fun d t hd => h.inHand d t (hothers hd).2, fun t => ?_, fun d e t hd he => ?_⟩
  · rw [hunfinished, hqueues]
    exact h.counts b
  · rw [hlog]
    show (if c = d then _ else _) = _
    by_cases hd : c = d
    · subst hd
      rw [if_pos rfl, h.standings, hclaim, decide_eq_true (h.inHand c tid hclaim), Function.update_self]
      exact if_pos rfl
    · rw [if_neg hd, h.standings, Function.update_of_ne (Ne.symm hd)]
  · rw [hinFlight]
    by_cases ht : t = tid
    · subst ht
      rw [Function.update_self]
      refine iff_of_false Bool.false_ne_true ?_
      rintro ⟨d, hd⟩
      obtain ⟨hdc, hd⟩ := hothers hd
      exact hdc (h.unique d c t hd hclaim)
    · rw [Function.update_of_ne ht, h.inFlight]
      constructor
      · rintro ⟨d, hd⟩
        have hdc : d ≠ c := by
          rintro rfl
          rw [hclaim] at hd
          exact ht (Option.some.inj hd).symm
        exact ⟨d, by rw [Function.update_of_ne hdc, hd]⟩
      · rintro ⟨d, hd⟩
        exact ⟨d, (hothers hd).2⟩
  · exact h.unique d e t (hothers hd).2 (hothers he).2

/-- The sleep after a deferral. -/
theorem Continued.sleeping (h : Balanced P hand claim σ) (hclaim : claim c = none) {phase : ConsumerId → Phase}
    (hphase : σ.worker.phase = phase) (tid : TicketId) :
    Continued P hand claim phase c
      (.waits { σ.worker with phase := Function.update σ.worker.phase c (.sleeping tid) })
      (.waits { σ with worker := { σ.worker with phase := Function.update σ.worker.phase c (.sleeping tid) } }) := by
  subst hphase
  have hsame : Function.update claim c (Phase.sleeping tid).claim = claim := by
    show Function.update claim c none = claim
    rw [← hclaim]
    exact Function.update_eq_self c claim
  refine Continued.waits
    (σ := { σ with worker := { σ.worker with phase := Function.update σ.worker.phase c (.sleeping tid) } })
    (.sleeping tid) rfl rfl ?_
  rw [hsame]
  exact h.congr rfl rfl rfl rfl

/-- `_try_claim`, which refuses a ticket that a live run covers. -/
theorem Continued.claiming (h : Balanced P hand claim σ) (hc : c ∈ hand) (hclaim : claim c = none)
    (tid : TicketId) (lane : Bool) {capDeferred : TicketId → Bool} :
    Continued P hand claim σ.worker.phase c
      (if σ.worker.inFlight tid = true then .ends tid { σ.worker with capDeferred := capDeferred }
        else .waits { σ.worker with
          capDeferred := capDeferred
          inFlight := Function.update σ.worker.inFlight tid true
          phase := Function.update σ.worker.phase c (.running tid lane) })
      (if σ.worker.inFlight tid = true then
          .ends tid { σ with worker := { σ.worker with capDeferred := capDeferred } }
        else .waits (CountedWorker.record (.claimed c tid) { σ with worker := { σ.worker with
          capDeferred := capDeferred
          inFlight := Function.update σ.worker.inFlight tid true
          phase := Function.update σ.worker.phase c (.running tid lane) } })) := by
  by_cases hlive : σ.worker.inFlight tid = true
  · rw [if_pos hlive, if_pos hlive]
    refine Continued.ends (σ := { σ with worker := { σ.worker with capDeferred := capDeferred } }) tid rfl ?_
    exact h.congr rfl rfl rfl rfl
  · rw [if_neg hlive, if_neg hlive]
    refine Continued.waits (σ := CountedWorker.record (.claimed c tid) { σ with worker := { σ.worker with
          capDeferred := capDeferred
          inFlight := Function.update σ.worker.inFlight tid true
          phase := Function.update σ.worker.phase c (.running tid lane) } }) (.running tid lane) rfl rfl ?_
    exact h.claimed hc hclaim hlive rfl rfl rfl rfl

/-- A consumer without a claim ends in a deferral, in a claim, or with nothing. -/
theorem Balanced.admission (h : Balanced P hand claim σ) (hc : c ∈ hand) (hclaim : claim c = none) (reads : Reads)
    (held : Worker.Held) :
    Continued P hand claim σ.worker.phase c (σ.worker.admission P reads c held) (σ.admission P reads c held) := by
  unfold CountedWorker.admission Worker.admission
  dsimp only
  by_cases hdrain : (reads.drainActive && Worker.heavy held.before) = true
  · rw [if_pos hdrain, if_pos hdrain]
    exact Continued.sleeping (h.putBack _ _ _) hclaim rfl _
  · rw [if_neg hdrain, if_neg hdrain]
    cases Worker.capFor reads held with
    | none => exact Continued.claiming h hc hclaim _ _
    | some m =>
      cases reads.inflightPrs with
      | error _ => exact Continued.ends _ rfl h
      | ok n =>
        dsimp only
        by_cases hcap : m ≤ (n : Int)
        · rw [if_pos hcap, if_pos hcap]
          have hdemoted : Balanced P hand claim { σ with worker := { σ.worker with
              capDeferred := Function.update σ.worker.capDeferred held.ticketId true } } :=
            h.congr rfl rfl rfl rfl
          exact Continued.sleeping (hdemoted.putBack _ _ _) hclaim rfl _
        · rw [if_neg hcap, if_neg hcap]
          exact Continued.claiming h hc hclaim _ _

/-- An iteration takes an entry in hand and goes on with it. -/
theorem Balanced.iteration {fuel : Nat} {reads : Reads} {k : CountedWorker.Continuation} (h : Balanced P hand claim σ)
    (hc : c ∉ hand) (hiteration : σ.iteration P fuel reads c = some k) :
    ∃ k', σ.worker.iteration P fuel reads c = some k' ∧
      Continued P (insert c hand) claim σ.worker.phase c k' k := by
  have hclaim := h.claim_eq_none hc
  unfold CountedWorker.iteration at hiteration
  unfold Worker.iteration
  cases hpop : popMin QueueItem.key (σ.worker.queues (P.board c)) with
  | none =>
    rw [get_eq_none hpop] at hiteration
    cases hphase : σ.worker.phase c <;> rw [hphase] at hiteration <;> cases hiteration
  | some found =>
    obtain ⟨item, rest⟩ := found
    obtain ⟨σ₁, hget, hworker₁, h₁⟩ := h.get hc hpop
    have hphase₁ : σ₁.worker.phase = σ.worker.phase := by
      rw [hworker₁]
    rw [hget] at hiteration
    cases hphase : σ.worker.phase c with
    | getting =>
      rw [hphase] at hiteration
      dsimp only at hiteration ⊢
      rw [← hworker₁]
      cases hread : reads.boardGet 0 item.ticketId with
      | error _ =>
        rw [hread] at hiteration
        cases hiteration
        exact ⟨_, rfl, .ends _ hphase₁ h₁⟩
      | ok before =>
        rw [hread] at hiteration
        dsimp only at hiteration ⊢
        by_cases hstale : σ₁.worker.staleRank item before = true
        · rw [if_pos hstale] at hiteration ⊢
          cases hiteration
          have h₂ : Balanced P (insert c hand) claim { σ₁ with worker := { σ₁.worker with
              pending := Function.update σ₁.worker.pending item.ticketId false } } :=
            h₁.congr rfl rfl rfl rfl
          have hworker := worker_enqueue (reads.ctxGet item.ticketId) item.ticketId { σ₁ with worker :=
            { σ₁.worker with pending := Function.update σ₁.worker.pending item.ticketId false } }
          have hends := Continued.ends (c := c) item.ticketId
            ((congrArg Worker.phase hworker.1).trans ((Worker.phase_enqueue ..).trans hphase₁))
            (h₂.enqueue (reads.ctxGet item.ticketId) item.ticketId)
          rw [hworker.1, hworker₁] at hends
          refine ⟨_, rfl, ?_⟩
          rw [hworker₁]
          exact hends
        · rw [if_neg hstale] at hiteration ⊢
          split at hiteration
          · cases hiteration
          · rename_i σ₂ tid hdrain
            cases hiteration
            obtain ⟨h₂, hworker₂, hphase₂⟩ := Balanced.drain (Finset.mem_insert_self c hand) hclaim h₁ hdrain
            rw [hworker₂]
            exact ⟨_, rfl, .ends _ (hphase₂.trans hphase₁) h₂⟩
          · rename_i σ₂ held hdrain
            cases hiteration
            obtain ⟨h₂, hworker₂, hphase₂⟩ := Balanced.drain (Finset.mem_insert_self c hand) hclaim h₁ hdrain
            rw [hworker₂, ← hphase₂.trans hphase₁]
            exact ⟨_, rfl, h₂.admission (Finset.mem_insert_self c hand) hclaim reads held⟩
    | sleeping tid =>
      rw [hphase] at hiteration
      cases hiteration
    | running tid lane =>
      rw [hphase] at hiteration
      cases hiteration
    | dead =>
      rw [hphase] at hiteration
      cases hiteration

/-! ## The end of an iteration -/

/-- The `finally` clause answers the get of the iteration and gives back its claim. -/
theorem Balanced.finallyClause {tid : TicketId} (h : Balanced P hand claim σ) (hc : c ∈ hand)
    (hown : ∀ t, claim c = some t → t = tid) :
    ∃ σ', σ.finallyClause P c tid (claim c) = (σ', true) ∧
      σ'.worker = σ.worker.finallyClause tid (claim c).isSome ∧
      Balanced P (hand.erase c) (Function.update claim c none) σ' := by
  unfold CountedWorker.finallyClause
  cases hclaim : claim c with
  | none =>
    have hsame : Function.update claim c none = claim := by
      rw [← hclaim]
      exact Function.update_eq_self c claim
    have h₁ : Balanced P hand claim
        { σ with worker := { σ.worker with pending := Function.update σ.worker.pending tid false } } :=
      h.congr rfl rfl rfl rfl
    obtain ⟨σ', hdone, hworker, h'⟩ := h₁.taskDone hc hclaim
    rw [hsame]
    exact ⟨σ', hdone, hworker, h'⟩
  | some t =>
    obtain rfl := hown t hclaim
    have h₁ : Balanced P hand (Function.update claim c none)
        (CountedWorker.record (.released c t) { σ with worker := { σ.worker with
          pending := Function.update σ.worker.pending t false
          inFlight := Function.update σ.worker.inFlight t false } }) :=
      h.released hclaim rfl rfl rfl rfl
    obtain ⟨σ', hdone, hworker, h'⟩ := h₁.taskDone hc (Function.update_self ..)
    exact ⟨σ', hdone, hworker, h'⟩

theorem Phase.claim_of_not_busy {p : Phase} (h : p.busy = false) : p.claim = none := by
  cases p with
  | getting => rfl
  | sleeping tid => rfl
  | running tid lane => cases h
  | dead => rfl

/-- A requeue leaves the books as they are; what raises in it ends the task. -/
theorem Balanced.requeueIfLeftLane (h : Balanced P hand claim σ) (hphase : (σ.worker.phase c).busy = false)
    (reads : Reads) (tid : TicketId) :
    Balanced P hand claim (σ.requeueIfLeftLane reads c tid) ∧
      (σ.requeueIfLeftLane reads c tid).worker = σ.worker.requeueIfLeftLane reads c tid ∧
      ∃ p : Phase, p.busy = false ∧
        (σ.requeueIfLeftLane reads c tid).worker.phase = Function.update σ.worker.phase c p := by
  have hsame : Function.update σ.worker.phase c (σ.worker.phase c) = σ.worker.phase :=
    Function.update_eq_self c σ.worker.phase
  unfold CountedWorker.requeueIfLeftLane Worker.requeueIfLeftLane
  dsimp only
  cases reads.boardGet 0 tid with
  | error _ => exact ⟨h.congr rfl rfl rfl rfl, rfl, .dead, rfl, rfl⟩
  | ok found =>
    cases found with
    | none => exact ⟨h, rfl, _, hphase, hsame.symm⟩
    | some t =>
      dsimp only
      split
      · obtain ⟨hworker, hreturned⟩ := worker_enqueue (reads.ctxGet tid) tid σ
        have h' := h.enqueue (reads.ctxGet tid) tid
        have hphase' := Worker.phase_enqueue (reads.ctxGet tid) tid σ.worker
        cases hσ : σ.enqueue (reads.ctxGet tid) tid with
        | mk σ' returned =>
          cases hw : σ.worker.enqueue (reads.ctxGet tid) tid with
          | mk w returned' =>
            rw [hσ, hw] at hworker hreturned
            rw [hσ] at h'
            rw [hw] at hphase'
            dsimp only at hworker hreturned h' hphase'
            subst hworker hreturned
            cases returned with
            | true => exact ⟨h', rfl, _, hphase, hphase'.trans hsame.symm⟩
            | false =>
              refine ⟨h'.congr rfl rfl rfl rfl, rfl, .dead, rfl, ?_⟩
              show Function.update σ'.worker.phase c .dead = _
              rw [hphase']
      · exact ⟨h, rfl, _, hphase, hsame.symm⟩

/-- The worker after the end of an iteration. -/
def Worker.endIteration (c : ConsumerId) (tid : TicketId) (claimed : Bool) (requeue : Option Reads) (w : Worker) :
    Worker :=
  let w₁ := { w.finallyClause tid claimed with phase := Function.update w.phase c .getting }
  requeue.elim w₁ fun reads => w₁.requeueIfLeftLane reads c tid

/-- At the end of an iteration the consumer has nothing in hand. -/
theorem Balanced.endIteration {tid : TicketId} (h : Balanced P hand claim σ) (hc : c ∈ hand)
    (hown : ∀ t, claim c = some t → t = tid) (requeue : Option Reads) :
    Balanced P (hand.erase c) (Function.update claim c none) (σ.endIteration P c tid (claim c) requeue) ∧
      (σ.endIteration P c tid (claim c) requeue).worker =
        σ.worker.endIteration c tid (claim c).isSome requeue ∧
      ∃ p : Phase, p.busy = false ∧
        (σ.endIteration P c tid (claim c) requeue).worker.phase = Function.update σ.worker.phase c p := by
  obtain ⟨σ₁, hfinally, hworker, h₁⟩ := h.finallyClause hc hown
  unfold CountedWorker.endIteration Worker.endIteration
  rw [hfinally]
  dsimp only
  have hphase₁ : σ₁.worker.phase = σ.worker.phase := by
    rw [hworker]
    rfl
  have h₂ : Balanced P (hand.erase c) (Function.update claim c none)
      { σ₁ with worker := { σ₁.worker with phase := Function.update σ₁.worker.phase c .getting } } :=
    h₁.congr rfl rfl rfl rfl
  rw [hphase₁] at h₂ ⊢
  rw [hworker] at h₂ ⊢
  cases requeue with
  | none => exact ⟨h₂, rfl, .getting, rfl, rfl⟩
  | some reads =>
    have hgetting : ((Function.update σ.worker.phase c .getting) c).busy = false := by
      rw [Function.update_self]
      rfl
    obtain ⟨h₃, hworker₃, p, hp, hphase₃⟩ := h₂.requeueIfLeftLane hgetting reads tid
    refine ⟨h₃, hworker₃, p, hp, hphase₃.trans ?_⟩
    exact Function.update_idem ..

/-! ## The steps keep the books -/

/-- The books of a state in which the consumers stand where they do. -/
theorem accounts_of (h : Balanced P hand claim σ) (hhand : ∀ c, c ∈ hand ↔ (σ.worker.phase c).busy = true)
    (hclaim : ∀ c, claim c = (σ.worker.phase c).claim) : Accounts P σ := by
  obtain rfl : claim = fun c => (σ.worker.phase c).claim := funext hclaim
  exact ⟨hand, hhand, h⟩

/-- The end of an iteration from between two steps. -/
theorem Balanced.ended {tid : TicketId} (h : Balanced P hand claim σ) (hc : c ∈ hand)
    (hown : ∀ t, claim c = some t → t = tid)
    (hhand : ∀ d, d ≠ c → (d ∈ hand ↔ (σ.worker.phase d).busy = true))
    (hclaim : ∀ d, d ≠ c → claim d = (σ.worker.phase d).claim) (requeue : Option Reads) :
    Accounts P (σ.endIteration P c tid (claim c) requeue) := by
  obtain ⟨h', -, p, hp, hphase⟩ := h.endIteration hc hown requeue
  refine accounts_of h' (fun d => ?_) fun d => ?_
  · rw [hphase]
    by_cases hd : d = c
    · subst hd
      rw [Function.update_self, hp]
      exact iff_of_false (Finset.notMem_erase d hand) Bool.false_ne_true
    · rw [Function.update_of_ne hd, ← hhand d hd, Finset.mem_erase]
      exact and_iff_right hd
  · rw [hphase]
    by_cases hd : d = c
    · subst hd
      rw [Function.update_self, Function.update_self, Phase.claim_of_not_busy hp]
    · rw [Function.update_of_ne hd, Function.update_of_ne hd]
      exact hclaim d hd

/-- A task that has nothing in hand may end. -/
theorem Accounts.die (h : Accounts P σ) (hphase : (σ.worker.phase c).busy = false) : Accounts P (σ.die c) := by
  obtain ⟨hand, hhand, h⟩ := h
  refine accounts_of (h.congr rfl rfl rfl rfl) (fun d => ?_) fun d => ?_
  · show _ ↔ (Function.update σ.worker.phase c .dead d).busy = true
    rw [hhand d]
    by_cases hd : d = c
    · subst hd
      rw [Function.update_self, hphase]
      rfl
    · rw [Function.update_of_ne hd]
  · show _ = (Function.update σ.worker.phase c .dead d).claim
    by_cases hd : d = c
    · subst hd
      rw [Function.update_self]
      exact Phase.claim_of_not_busy hphase
    · rw [Function.update_of_ne hd]

theorem Accounts.enqueue (h : Accounts P σ) (get : Except String (Option (BoardId × Ticket))) (tid : TicketId) :
    Accounts P (σ.enqueue get tid).1 := by
  obtain ⟨hand, hhand, h⟩ := h
  obtain ⟨hworker, -⟩ := worker_enqueue get tid σ
  have hphase : (σ.enqueue get tid).1.worker.phase = σ.worker.phase := by
    rw [hworker]
    exact Worker.phase_enqueue ..
  refine accounts_of (h.enqueue get tid) (fun c => ?_) fun c => ?_
  · rw [hphase]
    exact hhand c
  · rw [hphase]

theorem Accounts.sweep : ∀ (rows : List SweepRow) {σ : CountedWorker}, Accounts P σ →
    Accounts P (σ.reconcile rows) ∧ (σ.reconcile rows).worker = reconcile rows σ.worker
  | [], _, h => ⟨h, rfl⟩
  | row :: rows, σ, h => by
    unfold CountedWorker.reconcile reconcile
    split
    · exact Accounts.sweep rows h
    · split
      · exact Accounts.sweep rows h
      · split
        · exact Accounts.sweep rows h
        · cases row.unmetDependencies with
          | error _ => exact ⟨h, rfl⟩
          | ok unmet =>
            cases unmet with
            | true => exact Accounts.sweep rows h
            | false =>
              dsimp only
              obtain ⟨hworker, hreturned⟩ := worker_enqueue row.ctxGet row.ticketId σ
              have h' := h.enqueue row.ctxGet row.ticketId
              cases hσ : σ.enqueue row.ctxGet row.ticketId with
              | mk σ' returned =>
                cases hw : σ.worker.enqueue row.ctxGet row.ticketId with
                | mk w returned' =>
                  rw [hσ, hw] at hworker hreturned
                  rw [hσ] at h'
                  dsimp only at hworker hreturned h'
                  subst hworker hreturned
                  cases returned with
                  | true => exact Accounts.sweep rows h'
                  | false => exact ⟨h', rfl⟩

theorem getting_of_iteration {fuel : Nat} {reads : Reads} {k : CountedWorker.Continuation}
    (h : σ.iteration P fuel reads c = some k) : σ.worker.phase c = .getting := by
  unfold CountedWorker.iteration at h
  split at h
  · assumption
  · cases h

/-- Whoever waits for an entry has none. -/
theorem Worker.endIteration_of_getting {w : Worker} {tid : TicketId} (h : w.phase c = .getting) :
    w.endIteration c tid false none = w.finallyClause tid false := by
  show { w.finallyClause tid false with phase := Function.update w.phase c .getting } = w.finallyClause tid false
  rw [← h, Function.update_eq_self]
  rfl

/-- The end of an iteration of a consumer that waited with an entry in hand. -/
theorem Accounts.ended {tid : TicketId} (h : Accounts P σ) (hbusy : (σ.worker.phase c).busy = true)
    (hown : ∀ t, (σ.worker.phase c).claim = some t → t = tid) (requeue : Option Reads) :
    Accounts P (σ.endIteration P c tid (σ.worker.phase c).claim requeue) ∧
      (σ.endIteration P c tid (σ.worker.phase c).claim requeue).worker =
        σ.worker.endIteration c tid (σ.worker.phase c).claim.isSome requeue ∧
      ((σ.endIteration P c tid (σ.worker.phase c).claim requeue).worker.phase c).busy = false := by
  obtain ⟨hand, hhand, h⟩ := h
  have hc : c ∈ hand := (hhand c).2 hbusy
  obtain ⟨-, hworker, p, hp, hphase⟩ := h.endIteration hc hown requeue
  refine ⟨h.ended hc hown (fun d _ => hhand d) (fun d _ => rfl) requeue, hworker, ?_⟩
  rw [hphase, Function.update_self]
  exact hp

/-- An iteration from between two steps: the books are kept, and the worker iterates too. -/
theorem Accounts.iterate {fuel : Nat} {reads : Reads} (h : Accounts P σ)
    (hrun : CountedAction.run P σ (.step (.iterate c fuel reads)) = some σ') :
    Accounts P σ' ∧ (WorkerAction.iterate c fuel reads).run P σ.worker = some σ'.worker := by
  dsimp only [CountedAction.run] at hrun
  dsimp only [WorkerAction.run]
  cases hiteration : σ.iteration P fuel reads c with
  | none =>
    rw [hiteration] at hrun
    cases hrun
  | some k =>
    obtain ⟨hand, hhand, h⟩ := h
    have hgetting := getting_of_iteration hiteration
    have hc : c ∉ hand := fun hc => by
      have hbusy := (hhand c).1 hc
      rw [hgetting] at hbusy
      cases hbusy
    have hothers : ∀ d, d ≠ c → (d ∈ insert c hand ↔ (σ.worker.phase d).busy = true) := by
      intro d hd
      rw [Finset.mem_insert, ← hhand d]
      exact or_iff_right hd
    obtain ⟨k', hworker, hk⟩ := h.iteration hc hiteration
    rw [hiteration] at hrun
    rw [hworker]
    cases hk with
    | waits p hbusy hphase h' =>
      cases hrun
      refine ⟨accounts_of h' (fun d => ?_) fun d => ?_, rfl⟩
      · rw [hphase]
        by_cases hd : d = c
        · subst hd
          rw [Function.update_self]
          exact iff_of_true (Finset.mem_insert_self d hand) hbusy
        · rw [Function.update_of_ne hd]
          exact hothers d hd
      · rw [hphase]
        by_cases hd : d = c
        · subst hd
          rw [Function.update_self, Function.update_self]
        · rw [Function.update_of_ne hd, Function.update_of_ne hd]
    | ends tid hphase h' =>
      cases hrun
      have hclaim : (σ.worker.phase c).claim = none := by
        rw [hgetting]
        rfl
      have hown : ∀ t, (σ.worker.phase c).claim = some t → t = tid := fun t ht => by
        rw [hclaim] at ht
        cases ht
      rw [← hphase] at h' hothers hown hclaim hgetting
      have hmem := Finset.mem_insert_self c hand
      have hended := h'.ended hmem hown hothers (fun d _ => rfl) none
      obtain ⟨-, hworker', -⟩ := h'.endIteration hmem hown none
      rw [hclaim] at hended hworker'
      refine ⟨hended, ?_⟩
      rw [hworker']
      exact congrArg some (Worker.endIteration_of_getting hgetting).symm

theorem Accounts.wake (h : Accounts P σ) (hrun : CountedAction.run P σ (.step (.wake c)) = some σ') :
    Accounts P σ' ∧ (WorkerAction.wake c).run P σ.worker = some σ'.worker := by
  dsimp only [CountedAction.run] at hrun
  dsimp only [WorkerAction.run]
  cases hphase : σ.worker.phase c with
  | sleeping tid =>
    rw [hphase] at hrun
    cases hrun
    have hended := @Accounts.ended P σ c tid h
    rw [hphase] at hended
    obtain ⟨h', hworker, -⟩ := hended rfl (fun t ht => by cases ht) none
    exact ⟨h', congrArg some hworker.symm⟩
  | getting =>
    rw [hphase] at hrun
    cases hrun
  | running tid lane =>
    rw [hphase] at hrun
    cases hrun
  | dead =>
    rw [hphase] at hrun
    cases hrun

theorem Accounts.finish {returned : Bool} {reads : Reads} (h : Accounts P σ)
    (hrun : CountedAction.run P σ (.step (.finish c returned reads)) = some σ') :
    Accounts P σ' ∧ (WorkerAction.finish c returned reads).run P σ.worker = some σ'.worker := by
  dsimp only [CountedAction.run] at hrun
  dsimp only [WorkerAction.run]
  cases hphase : σ.worker.phase c with
  | running tid lane =>
    rw [hphase] at hrun
    cases hrun
    have hended := @Accounts.ended P σ c tid h
    rw [hphase] at hended
    obtain ⟨h', hworker, -⟩ := hended rfl (fun t ht => (Option.some.inj ht).symm)
      (if returned && lane then some reads else none)
    refine ⟨h', ?_⟩
    rw [show (some tid : Option TicketId) = (Phase.running tid lane).claim from rfl, hworker]
    dsimp only
    by_cases hlane : (returned && lane) = true
    · rw [if_pos hlane, if_pos hlane]
      rfl
    · rw [if_neg hlane, if_neg hlane]
      rfl
  | getting =>
    rw [hphase] at hrun
    cases hrun
  | sleeping tid =>
    rw [hphase] at hrun
    cases hrun
  | dead =>
    rw [hphase] at hrun
    cases hrun

/-- A step from between two steps: the books are kept, and the worker takes the step too. -/
theorem Accounts.run {a : WorkerAction} (h : Accounts P σ) (hrun : CountedAction.run P σ (.step a) = some σ') :
    Accounts P σ' ∧ a.run P σ.worker = some σ'.worker := by
  cases a with
  | enqueue tid get =>
    cases hrun
    refine ⟨h.enqueue get tid, ?_⟩
    rw [(worker_enqueue get tid σ).1]
    rfl
  | sweep rows =>
    cases hrun
    obtain ⟨h', hworker⟩ := h.sweep rows
    rw [hworker]
    exact ⟨h', rfl⟩
  | iterate c fuel reads => exact h.iterate hrun
  | wake c => exact h.wake hrun
  | finish c returned reads => exact h.finish hrun

/-- A cancellation from between two steps keeps the books. -/
theorem Accounts.cancel {requeue : Option Reads} (h : Accounts P σ)
    (hrun : CountedAction.run P σ (.cancel c requeue) = some σ') : Accounts P σ' := by
  dsimp only [CountedAction.run] at hrun
  have hended := @Accounts.ended P σ c
  cases hphase : σ.worker.phase c with
  | getting =>
    rw [hphase] at hrun
    cases hrun
    exact h.die (by rw [hphase]; rfl)
  | sleeping tid =>
    rw [hphase] at hrun hended
    cases hrun
    obtain ⟨h', -, hidle⟩ := @hended tid h rfl (fun t ht => by cases ht) none
    exact h'.die hidle
  | running tid lane =>
    rw [hphase] at hrun hended
    cases hrun
    obtain ⟨h', -, hidle⟩ := @hended tid h rfl (fun t ht => (Option.some.inj ht).symm) (requeue.filter fun _ => lane)
    exact h'.die hidle
  | dead =>
    rw [hphase] at hrun
    cases hrun

end Books

theorem Accounts.step {P : Pool} {σ σ' : CountedWorker} {a : CountedAction} (h : Accounts P σ)
    (hstep : CountedStep P σ a σ') : Accounts P σ' := by
  cases a with
  | step a => exact (h.run hstep).1
  | cancel c requeue => exact h.cancel hstep

/-- The standing of a consumer that waits there. -/
def Phase.standing (p : Phase) : Standing := .of p.busy p.claim

/-- **Queue accounting.** Over every run, each queue counts its entries and those that its consumers have in hand; each
    consumer answers each of its gets by one `task_done` before the next, none of which raises; and it releases each
    claim it took before that `task_done`, so a ticket is claimed exactly while one consumer runs it. -/
theorem queues_accounted (P : Pool) (as : List CountedAction) (σ : CountedWorker)
    (hrun : Run (CountedStep P) .start as σ) :
    ∃ hand : Finset ConsumerId, (∀ c, c ∈ hand ↔ (σ.worker.phase c).busy = true) ∧
      (∀ b, σ.unfinished b = (σ.worker.queues b).length + (hand.filter fun c => P.board c = b).card) ∧
      (∀ c, standing c σ.log = some (σ.worker.phase c).standing) ∧
      (∀ tid, σ.worker.inFlight tid = true ↔ ∃ c, (σ.worker.phase c).claim = some tid) ∧
      (∀ c d tid, (σ.worker.phase c).claim = some tid → (σ.worker.phase d).claim = some tid → c = d) := by
  obtain ⟨hand, hhand, h⟩ : Accounts P σ := hrun.invariant (fun _ _ _ hs hstep => hs.step hstep) accounts_start
  refine ⟨hand, hhand, h.counts, fun c => ?_, h.inFlight, h.unique⟩
  rw [h.standings c]
  congr 2
  exact Bool.eq_iff_iff.2 (by rw [decide_eq_true_iff, hhand c])

/-- Reads that find no ticket. -/
def noTickets : Reads where
  ctxGet := fun _ => .ok none
  boardGet := fun _ _ => .ok none
  maxInflightPrs := fun _ => none
  drainActive := false
  inflightPrs := .ok 0

/-- One consumer claims the first of two tickets and is cancelled in its run. -/
def cancelledRun : List CountedAction :=
  [.step (.enqueue "a" (.ok none)), .step (.enqueue "b" (.ok none)), .step (.iterate 0 1 noTickets), .cancel 0 none]

theorem queues_accounted_cancelled :
    ∃ σ, Run (CountedStep ⟨fun _ => "", false⟩) .start cancelledRun σ ∧
      σ.log = [.done 0, .released 0 "a", .claimed 0 "a", .got 0] ∧
      standing 0 σ.log = some (σ.worker.phase 0).standing := by
  have hrun : ∃ σ, Run (CountedStep ⟨fun _ => "", false⟩) .start cancelledRun σ ∧
      σ.log = [.done 0, .released 0 "a", .claimed 0 "a", .got 0] :=
    ⟨_, .cons rfl (.cons rfl (.cons rfl (.cons rfl (.nil _)))), rfl⟩
  obtain ⟨σ, hσ, hlog⟩ := hrun
  obtain ⟨-, -, -, hstanding, -⟩ := queues_accounted _ cancelledRun σ hσ
  exact ⟨σ, hσ, hlog, hstanding 0⟩

end Runtime
end RobotsixMill
