import RobotsixMill.Service.Lifecycle

/-!
# `Service.ConcurrentWriters` — sessions on one ticket, step by step

`Service.Session` says what a session leaves behind when nothing else happens on the ticket. Here the
sessions are cut into the steps SQLite sees: a read returns what was committed last (a session's own
flushed rows excepted), the first flush takes the write lock, the commit gives it back. Sessions on one
ticket interleave freely between these steps.

- `transition` and `resume_blocked` read the row, check it, flush, and read the previous hash under the
  lock;
- `add_history_note` and `add_step_event` read the row and the previous hash before anything is flushed.

`commits_linear_iff` says which interleavings keep one linear chain of events and legal changes of state;
`steps_alone` that a session by itself is the one of `Service.Session`.
-/

namespace RobotsixMill
namespace Service
open RobotsixMill.Core Lib

/-! ## The writers -/

/-- One call with the clock readings of its session. What `resume_blocked` reads from the workspace shows
    in its event note; `cid` is the id its comment gets. -/
inductive Writer
  | transition (now : Nat → DateTime) (dst : State) (note blockReason : Option String)
  | resumeBlocked (now : Nat → DateTime) (cid : CommentId) (note eventNote : String)
  | addHistoryNote (now : Nat → DateTime) (note : String)
  | addStepEvent (now : Nat → DateTime) (note : String)

namespace Writer

/-- The writers that flush before they read the previous hash. -/
def locksFirst : Writer → Bool
  | transition _ _ _ _ | resumeBlocked _ _ _ _ => true
  | addHistoryNote _ _ | addStepEvent _ _ => false

/-- What the check on the row finds: the session goes on, or it returns or raises. -/
def passes (tid : TicketId) (row : Ticket) : Writer → Bool
  | transition _ dst _ _ =>
    !transitionNoop row dst && canTransition row.state dst row.blockedFrom row.pausedFrom
  | resumeBlocked _ _ _ _ => (resumeRefusal tid row).isNone
  | addHistoryNote _ _ | addStepEvent _ _ => true

/-- What the check on the open threads finds. -/
def passesThreads (row : Ticket) (threads : List Comment) : Writer → Bool
  | transition _ dst _ _ =>
    !(decide (dst ∈ TERMINAL_STATES) && !threads.isEmpty && !forceClosesThreads row dst)
  | _ => true

/-- The state the writer gives the ticket. -/
def target (row : Ticket) : Writer → State
  | transition _ dst _ _ => dst
  | resumeBlocked _ _ _ _ => row.blockedFrom.getD .blocked
  | addHistoryNote _ _ | addStepEvent _ _ => row.state

/-- The row as the writer changes it in memory. -/
def newRow (s : Settings) (tid : TicketId) (row : Ticket) : Writer → Ticket
  | transition now dst _ reason => transitionTicket (now 1) dst reason row
  | resumeBlocked now cid note eventNote =>
    (resumeRecord s tid now cid note eventNote { ticket := row, events := [], comments := [] }).ticket
  | addHistoryNote _ _ => row
  | addStepEvent now _ => { row with updatedAt := now 1 }

/-- The comments it flushes: `threads` are the open ones it has read. -/
def flushComments (row : Ticket) (threads cs : List Comment) : Writer → List Comment
  | transition now dst _ _ =>
    if closesThreads row dst then
      cs.map fun c => if threads.any fun t => decide (t.id = c.id) then
        { c with closedAt := some (now 0) } else c
    else cs
  | resumeBlocked now cid note _ =>
    if strip note = "" then cs
    else cs ++ [{ id := cid, body := strip note, author := "operator", createdAt := now 1 }]
  | addHistoryNote _ _ | addStepEvent _ _ => cs

/-- The event it appends to the history it has seen. -/
def event (tid : TicketId) (row : Ticket) (seen : List TicketEvent) : Writer → TicketEvent
  | transition now dst note _ => makeEvent tid seen dst (transitionNote row dst note) (now 2)
  | resumeBlocked now _ _ eventNote =>
    makeEvent tid seen (row.blockedFrom.getD .blocked) (some eventNote) (now 2)
  | addHistoryNote now note | addStepEvent now note => makeEvent tid seen row.state (some note) (now 0)

end Writer

/-- One column of an `UPDATE`: written only when its value changed in memory. -/
def mergeColumn {α : Type} [DecidableEq α] (old new stored : α) : α := if new = old then stored else new

/-- The stored row after the changes from `old` to `new` were flushed. -/
def mergeRow (old new stored : Ticket) : Ticket where
  title := mergeColumn old.title new.title stored.title
  state := mergeColumn old.state new.state stored.state
  kind := mergeColumn old.kind new.kind stored.kind
  branch := mergeColumn old.branch new.branch stored.branch
  parentId := mergeColumn old.parentId new.parentId stored.parentId
  source := mergeColumn old.source new.source stored.source
  blockedFrom := mergeColumn old.blockedFrom new.blockedFrom stored.blockedFrom
  blockReason := mergeColumn old.blockReason new.blockReason stored.blockReason
  pausedFrom := mergeColumn old.pausedFrom new.pausedFrom stored.pausedFrom
  costUsd := mergeColumn old.costUsd new.costUsd stored.costUsd
  preRedraftCostUsd := mergeColumn old.preRedraftCostUsd new.preRedraftCostUsd stored.preRedraftCostUsd
  preRedraftTraceCount :=
    mergeColumn old.preRedraftTraceCount new.preRedraftTraceCount stored.preRedraftTraceCount
  reviewRounds := mergeColumn old.reviewRounds new.reviewRounds stored.reviewRounds
  implementCycles := mergeColumn old.implementCycles new.implementCycles stored.implementCycles
  retryAttempt := mergeColumn old.retryAttempt new.retryAttempt stored.retryAttempt
  lastTransientError := mergeColumn old.lastTransientError new.lastTransientError stored.lastTransientError
  nextRetryAt := mergeColumn old.nextRetryAt new.nextRetryAt stored.nextRetryAt
  dependsOn := mergeColumn old.dependsOn new.dependsOn stored.dependsOn
  unblocks := mergeColumn old.unblocks new.unblocks stored.unblocks
  priority := mergeColumn old.priority new.priority stored.priority
  createdAt := mergeColumn old.createdAt new.createdAt stored.createdAt
  updatedAt := mergeColumn old.updatedAt new.updatedAt stored.updatedAt

@[simp] theorem mergeColumn_self {α : Type} [DecidableEq α] (old new : α) :
    mergeColumn old new old = new := by
  unfold mergeColumn
  split
  · rename_i h; exact h.symm
  · rfl

/-- Flushed onto the row it was loaded from, the changed row is stored as it is. -/
@[simp] theorem mergeRow_self (old new : Ticket) : mergeRow old new old = new := by
  simp [mergeRow]

/-! ## The steps -/

/-- How far a session has come, with what it has read. -/
inductive Phase
  | start
  /-- The row was read and passed the check. -/
  | loaded (row : Ticket)
  /-- The open threads were read, too, and passed theirs. -/
  | checked (row : Ticket) (threads : List Comment)
  /-- The previous hash was read, from the history `seen`, before anything was flushed. -/
  | hashed (row : Ticket) (seen : List TicketEvent)
  /-- The row is flushed, the lock is held. -/
  | flushed (row : Ticket) (threads : List Comment)
  /-- The event is built from the history `seen` and flushed, the lock is held. -/
  | written (row : Ticket) (seen : List TicketEvent)
  /-- Committed, returned or raised. -/
  | finished

/-- Sessions on one ticket: what was committed, newest first, and what the holder of the write lock has
    flushed. -/
structure Sessions (ι : Type) where
  settings : Settings
  tid : TicketId
  writer : ι → Writer
  phase : ι → Phase
  committed : TicketRecord
  past : List TicketRecord
  lock : Option (ι × TicketRecord)

namespace Sessions

variable {ι : Type} [DecidableEq ι]

/-- Session `i` comes to phase `p`. -/
def enter (S : Sessions ι) (i : ι) (p : Phase) : Sessions ι :=
  { S with phase := Function.update S.phase i p }

/-- What session `i` flushes, besides its event. -/
def flushed (S : Sessions ι) (i : ι) (row : Ticket) (threads : List Comment) : TicketRecord :=
  { S.committed with
    ticket := mergeRow row ((S.writer i).newRow S.settings S.tid row) S.committed.ticket
    comments := (S.writer i).flushComments row threads S.committed.comments }

/-- `r` with the event of session `i` appended. -/
def withEvent (S : Sessions ι) (i : ι) (row : Ticket) (seen : List TicketEvent) (r : TicketRecord) :
    TicketRecord :=
  { r with events := r.events ++ [(S.writer i).event S.tid row seen] }

/-- Session `i` takes one step; `none` when it has ended or waits for the lock. -/
def step (S : Sessions ι) (i : ι) : Option (Sessions ι) :=
  let w := S.writer i
  match S.phase i with
  | .start =>
    let row := S.committed.ticket
    some (S.enter i (if w.passes S.tid row then .loaded row else .finished))
  | .loaded row =>
    if w.locksFirst then
      let threads := openAskUserThreads S.committed.comments
      some (S.enter i (if w.passesThreads row threads then .checked row threads else .finished))
    else some (S.enter i (.hashed row S.committed.events))
  | .checked row threads =>
    match S.lock with
    | some _ => none
    | none =>
      some { S.enter i (.flushed row threads) with lock := some (i, S.flushed i row threads) }
  | .hashed row seen =>
    match S.lock with
    | some _ => none
    | none =>
      some { S.enter i (.written row seen) with
        lock := some (i, S.withEvent i row seen (S.flushed i row [])) }
  | .flushed row _ =>
    match S.lock with
    | none => none
    | some (_, r) =>
      -- the history seen under the lock
      some { S.enter i (.written row r.events) with lock := some (i, S.withEvent i row r.events r) }
  | .written _ _ =>
    match S.lock with
    | none => none
    | some (_, r) =>
      some { S.enter i .finished with committed := r, past := S.committed :: S.past, lock := none }
  | .finished => none

/-! ## The invariant of the steps -/

/-- What a session in phase `p` knows about the store, whoever else is at work. -/
def PhaseOk (S : Sessions ι) (i : ι) : Phase → Prop
  | .start | .finished => True
  | .loaded row => (S.writer i).passes S.tid row = true
  | .checked row _ => (S.writer i).passes S.tid row = true ∧ (S.writer i).locksFirst = true
  | .hashed row seen =>
    (S.writer i).passes S.tid row = true ∧ (S.writer i).locksFirst = false ∧
      seen <+: S.committed.events
  | .flushed row threads =>
    (S.writer i).passes S.tid row = true ∧ (S.writer i).locksFirst = true ∧
      S.lock = some (i, S.flushed i row threads)
  | .written row seen =>
    (S.writer i).passes S.tid row = true ∧ seen <+: S.committed.events ∧
      ((S.writer i).locksFirst = true → seen = S.committed.events) ∧
      ∃ r threads, S.lock = some (i, r) ∧ r = S.withEvent i row seen (S.flushed i row threads)

def Orderly (S : Sessions ι) : Prop := ∀ i, S.PhaseOk i (S.phase i)

/-- Nothing has begun. -/
structure Initial (S : Sessions ι) : Prop where
  phase : ∀ i, S.phase i = .start
  past : S.past = []
  lock : S.lock = none

omit [DecidableEq ι] in
theorem Initial.orderly {S : Sessions ι} (h : S.Initial) : S.Orderly := by
  intro i
  rw [h.phase i]
  trivial

/-- What the step of one session changes for the others: events are only appended, and while another
    session holds the lock neither the lock nor the committed record changes. -/
structure Frame (S T : Sessions ι) (i : ι) : Prop where
  settings : T.settings = S.settings
  tid : T.tid = S.tid
  writer : T.writer = S.writer
  phase : ∀ j, j ≠ i → T.phase j = S.phase j
  events : S.committed.events <+: T.committed.events
  held : ∀ j r, j ≠ i → S.lock = some (j, r) → T.lock = S.lock ∧ T.committed = S.committed

omit [DecidableEq ι] in
theorem Frame.phaseOk {S T : Sessions ι} {i j : ι} (h : Frame S T i) (hj : j ≠ i) {p : Phase}
    (hp : S.PhaseOk j p) : T.PhaseOk j p := by
  cases p with
  | start => trivial
  | finished => trivial
  | loaded row => simpa [PhaseOk, h.writer, h.tid] using hp
  | checked row threads => simpa [PhaseOk, h.writer, h.tid] using hp
  | hashed row seen =>
      obtain ⟨hpass, hkind, hseen⟩ := hp
      refine ⟨?_, ?_, hseen.trans h.events⟩
      · rw [h.writer, h.tid]; exact hpass
      · rw [h.writer]; exact hkind
  | flushed row threads =>
      obtain ⟨hpass, hkind, hlock⟩ := hp
      obtain ⟨hl, hc⟩ := h.held j _ hj hlock
      refine ⟨?_, ?_, ?_⟩
      · rw [h.writer, h.tid]; exact hpass
      · rw [h.writer]; exact hkind
      · rw [hl, hlock]
        simp only [Sessions.flushed, h.settings, h.tid, h.writer, hc]
  | written row seen =>
      obtain ⟨hpass, hseen, hfresh, r, threads, hlock, hr⟩ := hp
      obtain ⟨hl, hc⟩ := h.held j _ hj hlock
      refine ⟨?_, ?_, ?_, r, threads, hl.trans hlock, ?_⟩
      · rw [h.writer, h.tid]; exact hpass
      · rw [hc]; exact hseen
      · rw [h.writer, hc]; exact hfresh
      · rw [hr]
        simp only [Sessions.withEvent, Sessions.flushed, h.settings, h.tid, h.writer, hc]

/-- What a step does. -/
inductive StepCase (S : Sessions ι) (i : ι) (T : Sessions ι) : Prop
  /-- A read, or an end without a write. -/
  | read (p : Phase) (hT : T = S.enter i p) (hp : T.PhaseOk i p)
      (hopen : ∀ row seen, S.phase i ≠ .written row seen) : StepCase S i T
  /-- A flush: the lock was free or the session's own. -/
  | flush (p : Phase) (r : TicketRecord) (hT : T = { S.enter i p with lock := some (i, r) })
      (hp : T.PhaseOk i p) (hlock : ∀ j r', S.lock = some (j, r') → j = i)
      (hopen : ∀ row seen, S.phase i ≠ .written row seen) : StepCase S i T
  /-- The commit. -/
  | commit (row : Ticket) (seen : List TicketEvent) (threads : List Comment)
      (hphase : S.phase i = .written row seen) (hok : S.PhaseOk i (.written row seen))
      (hT : T = { S.enter i .finished with
        committed := S.withEvent i row seen (S.flushed i row threads), past := S.committed :: S.past
        lock := none }) : StepCase S i T

theorem StepCase.frame {S T : Sessions ι} {i : ι} (h : StepCase S i T) : Frame S T i := by
  cases h with
  | read p hT hp hopen =>
      subst hT
      exact { settings := rfl, tid := rfl, writer := rfl, events := List.prefix_refl _
              phase := fun j hj => Function.update_of_ne hj ..
              held := fun _ _ _ _ => ⟨rfl, rfl⟩ }
  | flush p r hT hp hlock hopen =>
      subst hT
      exact { settings := rfl, tid := rfl, writer := rfl, events := List.prefix_refl _
              phase := fun j hj => Function.update_of_ne hj ..
              held := fun j r' hj hl => absurd (hlock j r' hl) hj }
  | commit row seen threads hphase hok hT =>
      subst hT
      obtain ⟨-, -, -, r, -, hl, -⟩ := hok
      refine { settings := rfl, tid := rfl, writer := rfl, events := List.prefix_append _ _
               phase := fun j hj => Function.update_of_ne hj .., held := ?_ }
      intro j r' hj hl'
      rw [hl] at hl'
      cases hl'
      exact absurd rfl hj

/-- **The step, case by case.** -/
theorem stepCase {S T : Sessions ι} {i : ι} (h : S.Orderly) (hstep : S.step i = some T) :
    StepCase S i T := by
  have hok := h i
  unfold step at hstep
  dsimp only at hstep
  cases hp : S.phase i with
  | start =>
      have hopen : ∀ row seen, S.phase i ≠ .written row seen := by simp [hp]
      rw [hp] at hstep
      cases hstep
      cases hpass : (S.writer i).passes S.tid S.committed.ticket with
      | true => exact .read (.loaded S.committed.ticket) rfl hpass hopen
      | false => exact .read .finished rfl trivial hopen
  | loaded row =>
      have hopen : ∀ row seen, S.phase i ≠ .written row seen := by simp [hp]
      rw [hp] at hstep hok
      have hpass : (S.writer i).passes S.tid row = true := hok
      dsimp only at hstep
      cases hkind : (S.writer i).locksFirst with
      | true =>
          rw [hkind, if_pos rfl] at hstep
          cases hstep
          split
          · exact .read _ rfl ⟨hpass, hkind⟩ hopen
          · exact .read _ rfl trivial hopen
      | false =>
          rw [hkind, if_neg (by simp)] at hstep
          cases hstep
          exact .read _ rfl ⟨hpass, hkind, List.prefix_refl _⟩ hopen
  | checked row threads =>
      have hopen : ∀ row seen, S.phase i ≠ .written row seen := by simp [hp]
      rw [hp] at hstep hok
      obtain ⟨hpass, hkind⟩ := hok
      cases hl : S.lock with
      | some _ => rw [hl] at hstep; cases hstep
      | none =>
          rw [hl] at hstep
          cases hstep
          refine .flush (.flushed row threads) _ rfl ⟨hpass, hkind, rfl⟩ ?_ hopen
          simp [hl]
  | hashed row seen =>
      have hopen : ∀ row seen, S.phase i ≠ .written row seen := by simp [hp]
      rw [hp] at hstep hok
      obtain ⟨hpass, hkind, hseen⟩ := hok
      cases hl : S.lock with
      | some _ => rw [hl] at hstep; cases hstep
      | none =>
          rw [hl] at hstep
          cases hstep
          refine .flush (.written row seen) _ rfl ⟨hpass, hseen, ?_, _, [], rfl, rfl⟩ ?_ hopen
          · intro hlocks
            exact absurd (hkind.symm.trans hlocks) Bool.false_ne_true
          · simp [hl]
  | flushed row threads =>
      have hopen : ∀ row seen, S.phase i ≠ .written row seen := by simp [hp]
      rw [hp] at hstep hok
      obtain ⟨hpass, hkind, hl⟩ := hok
      rw [hl] at hstep
      cases hstep
      refine .flush (.written row S.committed.events) _ rfl
        ⟨hpass, List.prefix_refl _, fun _ => rfl, _, threads, rfl, rfl⟩ ?_ hopen
      intro j r' hj
      rw [hl] at hj
      cases hj
      rfl
  | written row seen =>
      rw [hp] at hstep hok
      obtain ⟨-, -, -, r, threads, hl, rfl⟩ := id hok
      rw [hl] at hstep
      cases hstep
      exact .commit row seen threads hp hok rfl
  | finished => rw [hp] at hstep; cases hstep

/-- **The invariant is kept by every step.** -/
theorem Orderly.step {S T : Sessions ι} {i : ι} (h : S.Orderly) (hstep : S.step i = some T) :
    T.Orderly := by
  have hcase := stepCase h hstep
  intro j
  by_cases hj : j = i
  · subst hj
    cases hcase with
    | read p hT hp hopen =>
        have hphase : T.phase j = p := by rw [hT]; exact Function.update_self ..
        rw [hphase]
        exact hp
    | flush p r hT hp hlock hopen =>
        have hphase : T.phase j = p := by rw [hT]; exact Function.update_self ..
        rw [hphase]
        exact hp
    | commit row seen threads hphase hok hT =>
        have hphase : T.phase j = .finished := by rw [hT]; exact Function.update_self ..
        rw [hphase]
        trivial
  · rw [hcase.frame.phase j hj]
    exact hcase.frame.phaseOk hj (h j)

/-! ## The chain and the changes of state -/

/-- One linear chain: every link is the hash of the event before, and no two events share theirs. -/
structure Linear (tid : TicketId) (events : List TicketEvent) : Prop where
  chained : ChainOk tid events
  unshared : (events.map TicketEvent.prevHash).Nodup

/-- An event linked to the history `seen` extends the chain exactly if nothing was committed since. -/
theorem linear_snoc_iff {tid : TicketId} {events seen : List TicketEvent} {e : TicketEvent}
    (h : Linear tid events) (hseen : seen <+: events) (hlink : e.prevHash = prevHashFor seen)
    (hsound : EventSound tid e) (hd : ((events ++ [e]).map TicketEvent.hash).Nodup) :
    Linear tid (events ++ [e]) ↔ seen = events := by
  have htip := prevHashFor_eq_tip (HashChain.Chained.initial h.chained hseen)
  constructor
  · intro hlinear
    obtain ⟨fs, rfl⟩ := hseen
    cases fs with
    | nil => exact (List.append_nil seen).symm
    | cons e' fs =>
        exact absurd hlinear.unshared (h.chained.not_nodup_of_fork (hlink.trans htip))
  · intro heq
    subst heq
    have hchained : ChainOk tid (seen ++ [e]) := h.chained.snoc (hlink.trans htip) hsound
    exact ⟨hchained, hchained.nodup_prevOf hd⟩

/-- A change of state the table allows. -/
def LegalChange (old new : Ticket) : Prop :=
  new.state = old.state ∨ canTransition old.state new.state old.blockedFrom old.pausedFrom = true

/-- What was committed: one linear chain, and changes of state the table allows. -/
structure Good (S : Sessions ι) : Prop where
  linear : Linear S.tid S.committed.events
  legal : (S.committed :: S.past).IsChain fun new old => LegalChange old.ticket new.ticket

/-- The row still stands as it was loaded, as far as the table asks. -/
structure Current (row stored : Ticket) : Prop where
  state : row.state = stored.state
  blockedFrom : row.blockedFrom = stored.blockedFrom
  pausedFrom : row.pausedFrom = stored.pausedFrom

/-- What session `i` must find when it commits. A note must have seen the history that is committed. A
    transition or a resume must have loaded the row that is committed, or not touch the state, or lead to
    the committed state or to one it may change to. -/
def UpToDate (S : Sessions ι) (i : ι) (row : Ticket) (seen : List TicketEvent) : Prop :=
  let stored := S.committed.ticket
  let target := (S.writer i).target row
  if (S.writer i).locksFirst then
    Current row stored ∨ target = row.state ∨ target = stored.state ∨
      canTransition stored.state target stored.blockedFrom stored.pausedFrom = true
  else seen = S.committed.events

/-- The condition on a step: a commit is up to date. -/
def Serialised (S : Sessions ι) (i : ι) : Prop :=
  ∀ row seen, S.phase i = .written row seen → S.UpToDate i row seen

section Commit

variable {tid : TicketId} {row stored : Ticket} {s : Settings} {w : Writer}

/-- The state of the changed row is the writer's target. -/
theorem newRow_state : (w.newRow s tid row).state = w.target row := by
  cases w <;> rfl

/-- The check of a writer leaves its target legal. -/
theorem canTransition_target (h : w.passes tid row = true) (hl : w.locksFirst = true) :
    canTransition row.state (w.target row) row.blockedFrom row.pausedFrom = true := by
  cases w with
  | transition now dst note reason =>
      simp only [Writer.passes, Bool.and_eq_true] at h
      exact h.2
  | resumeBlocked now cid note eventNote =>
      have hnone : resumeRefusal tid row = none := by simpa [Writer.passes] using h
      obtain ⟨hb, dst, hdst⟩ :=
        resume_allowed (r := { ticket := row, events := [], comments := [] }) hnone
      have hb' : row.state = .blocked := hb
      have hdst' : row.blockedFrom = some dst := hdst
      simp only [Writer.target, hb', hdst', Option.getD_some]
      exact canTransition_blocked_resume dst row.pausedFrom
  | addHistoryNote now note => cases hl
  | addStepEvent now note => cases hl

/-- A note leaves the state alone. -/
theorem target_of_note (hl : w.locksFirst = false) : w.target row = row.state := by
  cases w with
  | transition now dst note reason => cases hl
  | resumeBlocked now cid note eventNote => cases hl
  | addHistoryNote now note => rfl
  | addStepEvent now note => rfl

/-- What a flush does to the state, seen from the committed row. -/
theorem legalChange_mergeRow :
    LegalChange stored (mergeRow row (w.newRow s tid row) stored) ↔
      w.target row = row.state ∨ w.target row = stored.state ∨
      canTransition stored.state (w.target row) stored.blockedFrom stored.pausedFrom = true := by
  have hstate : (mergeRow row (w.newRow s tid row) stored).state =
      mergeColumn row.state (w.target row) stored.state := by
    rw [← @newRow_state tid row s w]
    rfl
  unfold LegalChange
  rw [hstate]
  unfold mergeColumn
  by_cases h : w.target row = row.state
  · simp [h]
  · simp [h]

/-- The event of a writer links to the history it has seen. -/
theorem event_prevHash (seen : List TicketEvent) :
    (w.event tid row seen).prevHash = prevHashFor seen := by
  cases w <;> rfl

theorem event_sound (seen : List TicketEvent) : EventSound tid (w.event tid row seen) := by
  cases w <;> rfl

end Commit

/-- Of two hashes that are written none collides: BLAKE2b is taken at its word. -/
def NoCollision (S : Sessions ι) : Prop := (S.committed.events.map TicketEvent.hash).Nodup

/-- A step of one session after which no two committed events hash alike. -/
def Step (S : Sessions ι) (i : ι) (T : Sessions ι) : Prop := S.step i = some T ∧ T.NoCollision

omit [DecidableEq ι] in
theorem good_of_committed {S T : Sessions ι} (htid : T.tid = S.tid)
    (hc : T.committed = S.committed) (hp : T.past = S.past) (h : S.Good) : T.Good := by
  refine ⟨?_, ?_⟩
  · rw [htid, hc]; exact h.linear
  · rw [hc, hp]; exact h.legal

/-- **One step.** A step keeps what was committed good exactly if it meets the condition. -/
theorem good_step_iff {S T : Sessions ι} {i : ι} (ho : S.Orderly) (hg : S.Good)
    (h : Step S i T) : T.Good ↔ S.Serialised i := by
  obtain ⟨hstep, hnc⟩ := h
  cases stepCase ho hstep with
  | read p hT hp hopen =>
      subst hT
      exact ⟨fun _ row seen hphase => absurd hphase (hopen row seen),
        fun _ => good_of_committed (S := S) rfl rfl rfl hg⟩
  | flush p r hT hp hlock hopen =>
      subst hT
      exact ⟨fun _ row seen hphase => absurd hphase (hopen row seen),
        fun _ => good_of_committed (S := S) rfl rfl rfl hg⟩
  | commit row seen threads hphase hok hT =>
      obtain ⟨hpass, hseen, hfresh, -⟩ := hok
      have hlegal : LegalChange S.committed.ticket T.committed.ticket ↔
          (S.writer i).target row = row.state ∨ (S.writer i).target row = S.committed.ticket.state ∨
          canTransition S.committed.ticket.state ((S.writer i).target row)
            S.committed.ticket.blockedFrom S.committed.ticket.pausedFrom = true := by
        rw [hT]
        exact legalChange_mergeRow
      have hlinear : Linear T.tid T.committed.events ↔ seen = S.committed.events := by
        rw [hT] at hnc ⊢
        exact linear_snoc_iff hg.linear hseen (event_prevHash seen) (event_sound seen) hnc
      have hgood : T.Good ↔ seen = S.committed.events ∧
          LegalChange S.committed.ticket T.committed.ticket := by
        have hpast : T.past = S.committed :: S.past := by rw [hT]
        constructor
        · intro hgT
          have hchain := hgT.legal
          rw [hpast, List.isChain_cons_cons] at hchain
          exact ⟨hlinear.1 hgT.linear, hchain.1⟩
        · rintro ⟨hs, hch⟩
          refine ⟨hlinear.2 hs, ?_⟩
          rw [hpast, List.isChain_cons_cons]
          exact ⟨hch, hg.legal⟩
      rw [hgood, hlegal]
      have hcond : S.Serialised i ↔ S.UpToDate i row seen := by
        refine ⟨fun hser => hser row seen hphase, ?_⟩
        intro hser row' seen' hphase'
        rw [hphase] at hphase'
        cases hphase'
        exact hser
      rw [hcond]
      unfold UpToDate
      dsimp only
      cases hkind : (S.writer i).locksFirst with
      | true =>
          -- read under the lock, the history is the committed one
          rw [if_pos rfl]
          constructor
          · rintro ⟨-, hch⟩
            exact .inr hch
          · rintro (hcur | hch)
            · refine ⟨hfresh hkind, .inr (.inr ?_)⟩
              rw [← hcur.state, ← hcur.blockedFrom, ← hcur.pausedFrom]
              exact canTransition_target hpass hkind
            · exact ⟨hfresh hkind, hch⟩
      | false =>
          rw [if_neg (by simp)]
          exact ⟨fun hs => hs.1, fun hs => ⟨hs, .inl (target_of_note hkind)⟩⟩

/-- Nobody wrote between what session `i` read and its commit: the row and the history are those it has seen. -/
def Undisturbed (S : Sessions ι) (i : ι) : Prop :=
  ∀ row seen, S.phase i = .written row seen → row = S.committed.ticket ∧ seen = S.committed.events

omit [DecidableEq ι] in
theorem Undisturbed.serialised {S : Sessions ι} {i : ι} (h : S.Undisturbed i) : S.Serialised i := by
  intro row seen hphase
  obtain ⟨hrow, hseen⟩ := h row seen hphase
  unfold UpToDate
  dsimp only
  split
  · exact .inl (hrow ▸ ⟨rfl, rfl, rfl⟩)
  · exact hseen

/-- **Writers that do not meet are serialised.** A run each of whose commits finds the row and the history that the
    session has read is one whose commits are up to date. -/
theorem run_of_undisturbed {S T : Sessions ι} {sched : List ι} (h : Run (Guarded Undisturbed Step) S sched T) :
    Run (Guarded Serialised Step) S sched T :=
  h.mono fun _ _ _ hstep => ⟨hstep.1.serialised, hstep.2⟩

/-- **Concurrent writers.** Whatever the sessions on a ticket and however their steps interleave, the
    committed history stays one linear chain and every committed change of state is legal, all along the
    run, exactly if every commit of the run meets the condition. -/
theorem commits_linear_iff {S T : Sessions ι} {sched : List ι} (hstart : S.Initial)
    (hlinear : Linear S.tid S.committed.events) (hrun : Run Step S sched T) :
    Run.Always Step Good S sched ↔ Run (Guarded Serialised Step) S sched T := by
  have hgood : S.Good := ⟨hlinear, by rw [hstart.past]; exact .singleton _⟩
  have hdet : ∀ (s : Sessions ι) (a : ι) (t t' : Sessions ι), Step s a t → Step s a t' → t = t' :=
    fun s a t t' h h' => Option.some.inj (h.1.symm.trans h'.1)
  apply Run.always_iff_guarded_of_invariant (J := Sessions.Orderly) hdet
  · intro s a t hs hst
    exact hs.step hst.1
  · intro s a t hs hgood hst
    exact good_step_iff hs hgood hst
  · exact hrun
  · exact hstart.orderly
  · exact hgood

/-! ## A session by itself -/

/-- The steps of a schedule, in order; `none` when one of them has to wait. -/
def steps : Sessions ι → List ι → Option (Sessions ι)
  | S, [] => some S
  | S, i :: sched => (S.step i).bind fun T => T.steps sched

end Sessions

/-- The session of `Service.Lifecycle` a writer stands for. -/
def Writer.change (s : Settings) : Writer → Change
  | transition now dst note reason => .transition now dst note reason
  | resumeBlocked now cid note eventNote => .resumeBlocked s now cid note eventNote
  | addHistoryNote now note => .historyNote now note
  | addStepEvent now note => .stepEvent now note

section Alone

variable {tid : TicketId} {r : TicketRecord} {s : Settings} {w : Writer}

/-- The guard of the session is the check on the row and then the one on the threads. -/
theorem passes_of_allowed (h : (w.change s).Allowed tid r) :
    w.passes tid r.ticket = true ∧ w.passesThreads r.ticket (openAskUserThreads r.comments) = true := by
  cases w with
  | transition now dst note reason =>
      obtain ⟨hnoop, href⟩ := h
      have hedge := canTransition_of_refusal_none href
      refine ⟨by simp [Writer.passes, hnoop, hedge], ?_⟩
      unfold transitionRefusal at href
      dsimp only at href
      rw [if_neg (by simp [hedge])] at href
      split at href
      · cases href
      · rename_i hopen
        simp only [not_and, Bool.not_eq_false] at hopen
        by_cases hdst : dst ∈ TERMINAL_STATES
        · by_cases hnil : openAskUserThreads r.comments = []
          · simp [Writer.passesThreads, hnil]
          · simp [Writer.passesThreads, hopen hdst hnil]
        · simp [Writer.passesThreads, hdst]
  | resumeBlocked now cid note eventNote =>
      have hnone : resumeRefusal tid r.ticket = none := h
      exact ⟨by simp [Writer.passes, hnone], rfl⟩
  | addHistoryNote now note => exact ⟨rfl, rfl⟩
  | addStepEvent now note => exact ⟨rfl, rfl⟩

/-- Closing the threads read by their ids is closing the open threads. -/
theorem closed_by_id {cs : List Comment} (hids : (cs.map Comment.id).Nodup) (now : DateTime) :
    (cs.map fun c => if (openAskUserThreads cs).any fun t => decide (t.id = c.id) then
      { c with closedAt := some now } else c) = closeAskUserThreads now cs := by
  refine List.map_congr_left ?_
  intro c hc
  have hiff : ((openAskUserThreads cs).any fun t => decide (t.id = c.id)) =
      (isAskUserThread c && c.closedAt.isNone) := by
    rw [Bool.eq_iff_iff, List.any_eq_true]
    constructor
    · rintro ⟨t, ht, hid⟩
      obtain ⟨htmem, hopen⟩ := List.mem_filter.1 ht
      have htc : t = c := List.inj_on_of_nodup_map hids htmem hc (of_decide_eq_true hid)
      exact htc ▸ hopen
    · intro hopen
      exact ⟨c, List.mem_filter.2 ⟨hc, hopen⟩, by simp⟩
  rw [hiff]

namespace Sessions

variable {ι : Type} [DecidableEq ι] {S : Sessions ι} {i : ι}

omit [DecidableEq ι] in
/-- Its flush and its event make up the record its session commits. -/
theorem withEvent_flushed (hids : (S.committed.comments.map Comment.id).Nodup) :
    S.withEvent i S.committed.ticket S.committed.events
        (S.flushed i S.committed.ticket (openAskUserThreads S.committed.comments)) =
      ((S.writer i).change S.settings).apply S.tid S.committed := by
  unfold withEvent flushed
  rw [mergeRow_self]
  cases S.writer i with
  | transition now dst note reason =>
      simp only [Writer.flushComments, closed_by_id hids]
      rfl
  | resumeBlocked now cid note eventNote => rfl
  | addHistoryNote now note => rfl
  | addStepEvent now note => rfl

/-- **A writer that meets nobody** leaves behind what its session of `Service.Session` commits. -/
theorem steps_alone (h : S.Initial)
    (hal : ((S.writer i).change S.settings).Allowed S.tid S.committed)
    (hids : (S.committed.comments.map Comment.id).Nodup) :
    ∃ T, S.steps (List.replicate (if (S.writer i).locksFirst then 5 else 4) i) = some T ∧
      T.committed = ((S.writer i).change S.settings).apply S.tid S.committed := by
  obtain ⟨hrow, hthreads⟩ := passes_of_allowed hal
  rw [← withEvent_flushed hids]
  cases hkind : (S.writer i).locksFirst with
  | true =>
      refine ⟨{ S.enter i .finished with
        committed := S.withEvent i S.committed.ticket S.committed.events
          (S.flushed i S.committed.ticket (openAskUserThreads S.committed.comments))
        past := S.committed :: S.past, lock := none }, ?_, rfl⟩
      simp [List.replicate, steps, step, enter, h.phase, h.lock, hkind, hrow, hthreads, flushed, withEvent]
  | false =>
      -- a note flushes no comments
      have hflush : S.flushed i S.committed.ticket [] =
          S.flushed i S.committed.ticket (openAskUserThreads S.committed.comments) := by
        unfold flushed
        cases hw : S.writer i with
        | transition now dst note reason => rw [hw] at hkind; cases hkind
        | resumeBlocked now cid note eventNote => rw [hw] at hkind; cases hkind
        | addHistoryNote now note => rfl
        | addStepEvent now note => rfl
      rw [← hflush]
      refine ⟨{ S.enter i .finished with
        committed := S.withEvent i S.committed.ticket S.committed.events
          (S.flushed i S.committed.ticket [])
        past := S.committed :: S.past, lock := none }, ?_, rfl⟩
      simp [List.replicate, steps, step, enter, h.phase, h.lock, hkind, hrow, flushed, withEvent]

end Sessions
end Alone

/-! ## Schedules -/

namespace Sessions

variable {ι : Type} {S T : Sessions ι} {i : ι}

instance (row stored : Ticket) : Decidable (Current row stored) :=
  decidable_of_iff (row.state = stored.state ∧ row.blockedFrom = stored.blockedFrom ∧
      row.pausedFrom = stored.pausedFrom)
    ⟨fun h => ⟨h.1, h.2.1, h.2.2⟩, fun h => ⟨h.state, h.blockedFrom, h.pausedFrom⟩⟩

instance (S : Sessions ι) (i : ι) (row : Ticket) (seen : List TicketEvent) :
    Decidable (S.UpToDate i row seen) :=
  inferInstanceAs (Decidable (if (S.writer i).locksFirst then
    Current row S.committed.ticket ∨ (S.writer i).target row = row.state ∨
      (S.writer i).target row = S.committed.ticket.state ∨
      canTransition S.committed.ticket.state ((S.writer i).target row)
        S.committed.ticket.blockedFrom S.committed.ticket.pausedFrom = true
    else seen = S.committed.events))

/-- Is the step of session `i` no commit, or one that is up to date? -/
def serialised (S : Sessions ι) (i : ι) : Bool :=
  match S.phase i with
  | .written row seen => decide (S.UpToDate i row seen)
  | _ => true

theorem serialised_iff : S.serialised i = true ↔ S.Serialised i := by
  unfold serialised Serialised
  cases S.phase i with
  | written row seen =>
      simp only [decide_eq_true_eq, Phase.written.injEq]
      exact ⟨fun h _ _ heq => heq.1 ▸ heq.2 ▸ h, fun h => h row seen ⟨rfl, rfl⟩⟩
  | _ => simp

variable [DecidableEq ι]

/-- Is every commit of a schedule up to date? -/
def serialisedSteps : Sessions ι → List ι → Bool
  | _, [] => true
  | S, i :: sched => S.serialised i && (S.step i).all fun T => T.serialisedSteps sched

/-- Events are only appended. -/
theorem events_of_steps {sched : List ι} (ho : S.Orderly) (h : S.steps sched = some T) :
    S.committed.events <+: T.committed.events := by
  induction sched generalizing S with
  | nil => cases h; exact List.prefix_refl _
  | cons i sched ih =>
      obtain ⟨S', hstep, hrest⟩ := Option.bind_eq_some_iff.1 h
      exact (stepCase ho hstep).frame.events.trans (ih (ho.step hstep) hrest)

/-- A schedule that nobody waits in is a run, a serialised one a run that meets the condition. -/
theorem run_of_steps {sched : List ι} (ho : S.Orderly) (h : S.steps sched = some T)
    (hser : S.serialisedSteps sched = true) (hnc : T.NoCollision) :
    Run (Guarded Serialised Step) S sched T := by
  induction sched generalizing S with
  | nil => cases h; exact .nil _
  | cons i sched ih =>
      obtain ⟨S', hstep, hrest⟩ := Option.bind_eq_some_iff.1 h
      obtain ⟨hi, hall⟩ := Bool.and_eq_true_iff.1 hser
      rw [hstep] at hall
      have ho' := ho.step hstep
      have hnc' : S'.NoCollision := by
        obtain ⟨es, hes⟩ := events_of_steps ho' hrest
        have hnodup := hnc
        unfold NoCollision at hnodup ⊢
        rw [← hes, List.map_append] at hnodup
        exact (List.nodup_append.1 hnodup).1
      exact .cons ⟨serialised_iff.1 hi, hstep, hnc'⟩ (ih ho' hrest hall)

end Sessions

/-- A draft as `create` stores it, and two sessions on it. -/
def onDraft (w w' : Writer) : Sessions Bool where
  settings := {}
  tid := "t-1"
  writer b := if b then w else w'
  phase _ := .start
  committed :=
    { ticket := { title := "ticket", state := .draft, createdAt := 0, updatedAt := 0 }
      events := appendEvent "t-1" [] .draft (some "created") 0
      comments := [] }
  past := []
  lock := none

theorem onDraft_initial (w w' : Writer) : (onDraft w w').Initial := ⟨fun _ => rfl, rfl, rfl⟩

theorem onDraft_linear (w w' : Writer) :
    Sessions.Linear (onDraft w w').tid (onDraft w w').committed.events :=
  ⟨makeEvent_chainOk (chainOk_nil _) _ _ _, List.nodup_singleton _⟩

/-- Two trace breadcrumbs. -/
def twoNotes : Sessions Bool :=
  onDraft (.addHistoryNote id "🔍 [Trace: refine](a)") (.addHistoryNote (· + 1) "🔍 [Trace: refine](b)")

/-- The operator approves while the refine stage asks for approval. -/
def twoMoves : Sessions Bool :=
  onDraft (.transition id .ready none none) (.transition (· + 1) .humanIssueApproval none none)

/-- Both notes read the previous hash before either is flushed: two events share their predecessor. Both
    transitions load the draft before either is flushed: `ready` is followed by a state it may not change
    to. -/
theorem interleaved_writers_break :
    (twoNotes.steps [true, true, false, false, true, true, false, false]).any (fun T =>
      !decide (T.committed.events.map TicketEvent.prevHash).Nodup) = true ∧
    (twoMoves.steps [true, true, false, false, true, true, true, false, false, false]).map (fun T =>
      (T.committed :: T.past).map fun r => r.ticket.state) =
        some [.humanIssueApproval, .ready, .draft] ∧
    canTransition .ready .humanIssueApproval none none = false := by
  decide +kernel

/-- One note after the other. -/
theorem commits_linear_serial :
    ∃ T, twoNotes.steps [true, true, true, true, false, false, false, false] = some T ∧
      Run.Always Sessions.Step Sessions.Good twoNotes
        [true, true, true, true, false, false, false, false] := by
  let sched := [true, true, true, true, false, false, false, false]
  have hnc : (twoNotes.steps sched).any (fun T =>
      decide (T.committed.events.map TicketEvent.hash).Nodup) = true := by decide +kernel
  cases hT : twoNotes.steps sched with
  | none => rw [hT] at hnc; cases hnc
  | some T =>
      rw [hT] at hnc
      have hnodup : (T.committed.events.map TicketEvent.hash).Nodup := of_decide_eq_true hnc
      have hrun := Sessions.run_of_steps (onDraft_initial _ _).orderly hT (by decide +kernel) hnodup
      exact ⟨T, rfl, (Sessions.commits_linear_iff (onDraft_initial _ _) (onDraft_linear _ _)
        hrun.unguard).2 hrun⟩

end Service
end RobotsixMill
