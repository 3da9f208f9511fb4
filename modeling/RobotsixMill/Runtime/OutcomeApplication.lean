import RobotsixMill.Runtime.StageRetry
import RobotsixMill.Service.OpenQuestions
import RobotsixMill.Stages.Base

/-!
# `Runtime.OutcomeApplication` — from the end of a stage run to the ticket's next state

`_process_ticket_inner` reads a ticket, runs its stage for minutes, and applies the outcome to whatever
the ticket has become. In between the stage itself and other sessions may have moved it.

- `applyOutcome` — what the worker does with an outcome;
- `StageRun` — a dispatched run, with everything that happened to the mill while it was under way;
- `respectsMoves_iff` — when the outcome leaves the moves of other sessions alone.
-/

namespace RobotsixMill
namespace Runtime
open RobotsixMill.Core Lib Service Stages

section Apply

variable (env : Env) (svc : BoardId) (tid : TicketId)

/-- `set_retry_state` with the breadcrumbs of past failures removed. -/
def clearRetryState (σ : Mill) : Result Unit :=
  match fetch env svc σ tid with
  | .error e => (σ, .error e)
  | .ok (k, r) => ((σ.putRecord k (setRetryState (σ.now env 0) 0 none none r)).tick, .ok ())

/-- `_post_trace_event`; a failure is logged and dropped. -/
def postTrace (stage : String) (url : Option String) (σ : Mill) : Mill :=
  match url with
  | none => σ
  | some link => (addHistoryNote env svc tid s!"🔍 [Trace: {stage}]({link})" σ).1

/-- `close_open_ask_user_threads`. -/
def closeOpenAskUserThreads (σ : Mill) : Result Unit :=
  match boardFor env svc σ tid with
  | .error e => (σ, .error e)
  | .ok b =>
    match σ.records.get (b, tid) with
    | none => (σ, .ok ())
    | some r =>
      ((σ.putComments (b, tid) r (closeAskUserThreads (σ.now env 0) r.comments)).tick, .ok ())

/-- `_is_stale_ask_user_block`. -/
def isStaleAskUserBlock (nextState : State) (msg : String) : Bool :=
  decide (nextState ∈ TERMINAL_STATES) && contains msg "[ASK_USER]"

/-- The note that records an outcome which was not applied. -/
def discardNote (stage : String) (dispatched : State) (now : Option State) (outcome : StageOutcome) :
    String :=
  let now_state := (now.map State.value).getD "(gone)"
  let outcome_note := outcome.note.getD ""
  s!"stage outcome discarded: ticket moved " ++
    s!"{dispatched.value} -> {now_state} during " ++
    s!"{stage} run; outcome was " ++
    s!"{outcome.nextState.value}; note: {outcome_note}"

/-- The transition an outcome asks for. -/
def transitionTo (outcome : StageOutcome) (σ : Mill) : Result Unit :=
  transition env svc tid outcome.nextState outcome.note outcome.blockReason σ

/-- The transition to the outcome's state. A refusal for open questions closes them and tries again; any
    other refusal discards the outcome, with a note on the ticket as it then is. -/
def transitionToOutcome (stage : String) (dispatched : State) (outcome : StageOutcome) (σ : Mill) :
    Result Unit :=
  match transitionTo env svc tid outcome σ with
  | (σ', .error (.transitionError msg)) =>
    if isStaleAskUserBlock outcome.nextState msg then
      match closeOpenAskUserThreads env svc tid σ' with
      | (σ'', .error e) => (σ'', .error e)
      | (σ'', .ok ()) => transitionTo env svc tid outcome σ''
    else
      let note := discardNote stage dispatched ((ticketOf env svc tid σ').map Ticket.state) outcome
      ((addHistoryNote env svc tid (truncate 500 note) σ').1, .ok ())
  | res => res

/-- `_process_ticket_inner` once the stage returned: `dispatched` is the row the stage was started on.
    Notifications and the re-evaluation of a parent epic are left out. -/
def applyOutcome (stage : String) (dispatched : Ticket) (url : Option String) (outcome : StageOutcome)
    (σ : Mill) : Result Unit :=
  let cleared : Result Unit :=
    if 0 < dispatched.retryAttempt then clearRetryState env svc tid σ else (σ, .ok ())
  match cleared with
  | (σ₁, .error e) => (σ₁, .error e)
  | (σ₁, .ok ()) =>
    let σ₂ := postTrace env svc tid stage url σ₁
    if outcome.nextState = dispatched.state then (σ₂, .ok ())
    -- a stage tool may have set the state already
    else if (ticketOf env svc tid σ₂).map Ticket.state = some outcome.nextState then (σ₂, .ok ())
    else transitionToOutcome env svc tid stage dispatched.state outcome σ₂

end Apply

/-! ## What the guard of `transition` lets through -/

section Refusal

variable (tid : TicketId) {r : TicketRecord} {dst : State}

/-- An illegal edge is refused whatever the comments are. -/
theorem transitionRefusal_of_illegal
    (h : canTransition r.ticket.state dst r.ticket.blockedFrom r.ticket.pausedFrom = false) :
    ∃ msg, transitionRefusal tid dst r = some (.transitionError msg) := by
  unfold transitionRefusal
  dsimp only
  rw [if_pos h]
  exact ⟨_, rfl⟩

/-- A legal edge is refused for open questions only, and the refusal says so. -/
theorem transitionRefusal_of_legal
    (h : canTransition r.ticket.state dst r.ticket.blockedFrom r.ticket.pausedFrom = true) :
    transitionRefusal tid dst r = none ∨
    ∃ msg, transitionRefusal tid dst r = some (.transitionError msg) ∧
      isStaleAskUserBlock dst msg = true := by
  unfold transitionRefusal
  dsimp only
  rw [if_neg (by simp [h])]
  split
  · rename_i hthreads
    refine .inr ⟨_, rfl, ?_⟩
    unfold isStaleAskUserBlock
    rw [Bool.and_eq_true, decide_eq_true_eq]
    refine ⟨hthreads.1, ?_⟩
    apply contains_append_right
    apply contains_append_left
    apply contains_append_left
    apply contains_append_right
    decide +kernel
  · exact .inl rfl

/-- With the questions closed a legal edge is open. -/
theorem transitionRefusal_of_closed {cs : List Comment} {now : DateTime}
    (h : canTransition r.ticket.state dst r.ticket.blockedFrom r.ticket.pausedFrom = true) :
    transitionRefusal tid dst { r with comments := closeAskUserThreads now cs } = none := by
  unfold transitionRefusal
  dsimp only
  rw [if_neg (by simp [h]), if_neg]
  rintro ⟨-, hopen, -⟩
  exact hopen (openAskUserThreads_close ..)

end Refusal

/-! ## What bookkeeping leaves alone -/

/-- The state of the row, what guards its edges, and the comments are kept. -/
structure Kept (r r' : TicketRecord) : Prop where
  state : r'.ticket.state = r.ticket.state
  blockedFrom : r'.ticket.blockedFrom = r.ticket.blockedFrom
  pausedFrom : r'.ticket.pausedFrom = r.ticket.pausedFrom
  comments : r'.comments = r.comments

theorem Kept.refl (r : TicketRecord) : Kept r r := ⟨rfl, rfl, rfl, rfl⟩

theorem Kept.trans {r r' r'' : TicketRecord} (h : Kept r r') (h' : Kept r' r'') : Kept r r'' :=
  ⟨h'.state.trans h.state, h'.blockedFrom.trans h.blockedFrom, h'.pausedFrom.trans h.pausedFrom,
    h'.comments.trans h.comments⟩

section Effects

variable {env : Env} {svc : BoardId} {tid : TicketId} {σ : Mill} {k : Key} {r : TicketRecord}

theorem clearRetryState_kept (hf : fetch env svc σ tid = .ok (k, r)) :
    ∃ σ' r', clearRetryState env svc tid σ = (σ', .ok ()) ∧ fetch env svc σ' tid = .ok (k, r') ∧
      Kept r r' := by
  rw [clearRetryState, hf]
  refine ⟨_, setRetryState (σ.now env 0) 0 none none r, rfl, ?_, ⟨rfl, rfl, rfl, rfl⟩⟩
  exact (fetch_congr (records_tick _) tid).trans (fetch_putRecord hf)

theorem addHistoryNote_kept (note : String) (hf : fetch env svc σ tid = .ok (k, r)) :
    ∃ r', fetch env svc (addHistoryNote env svc tid note σ).1 tid = .ok (k, r') ∧ Kept r r' := by
  refine ⟨historyNoteRecord tid (σ.now env) note r, ?_, ⟨rfl, rfl, rfl, rfl⟩⟩
  simp only [addHistoryNote, hf]
  exact (fetch_congr (records_tick _) tid).trans (fetch_putRecord hf)

theorem postTrace_kept (stage : String) (url : Option String)
    (hf : fetch env svc σ tid = .ok (k, r)) :
    ∃ r', fetch env svc (postTrace env svc tid stage url σ) tid = .ok (k, r') ∧ Kept r r' := by
  cases url with
  | none => exact ⟨r, hf, .refl r⟩
  | some link => exact addHistoryNote_kept _ hf

theorem closeOpenAskUserThreads_of_fetch (hf : fetch env svc σ tid = .ok (k, r)) :
    ∃ σ', closeOpenAskUserThreads env svc tid σ = (σ', .ok ()) ∧ fetch env svc σ' tid =
      .ok (k, { r with comments := closeAskUserThreads (σ.now env 0) r.comments }) := by
  have hput := @fetch_putComments env svc tid σ k r (closeAskUserThreads (σ.now env 0) r.comments) hf
  unfold fetch at hf
  cases hb : boardFor env svc σ tid with
  | error e => rw [hb] at hf; cases hf
  | ok b =>
      rw [hb] at hf
      dsimp only at hf
      cases hg : σ.records.get (b, tid) with
      | none => rw [hg] at hf; cases hf
      | some r₀ =>
          rw [hg] at hf
          cases hf
          rw [closeOpenAskUserThreads, hb]
          dsimp only
          rw [hg]
          refine ⟨_, rfl, ?_⟩
          exact (fetch_congr (records_tick _) tid).trans hput

/-! ## What the transition does to the state -/

/-- The state of the ticket stored under `k`. -/
def stateAt (σ : Mill) (k : Key) : Option State := (σ.records.get k).map fun r => r.ticket.state

theorem stateAt_of_fetch (hf : fetch env svc σ tid = .ok (k, r)) :
    stateAt σ k = some r.ticket.state := by
  simp [stateAt, (get_of_fetch hf).2]

variable {dst : State} {note reason : Option String}

theorem transition_of_refused {e : ServiceError} (hf : fetch env svc σ tid = .ok (k, r))
    (hn : transitionNoop r.ticket dst = false) (hr : transitionRefusal tid dst r = some e) :
    transition env svc tid dst note reason σ = (σ, .error e) := by
  simp [transition, transitionSession, hf, hn, hr]

/-- The cascade blocks nothing and unblocks what is blocked: another state it leaves alone. -/
theorem state_of_fireUnblocks {k : Key} {s : State} (hs : s ≠ .blocked) (depth : Nat)
    (solver : TicketId) (targets : List TicketId) (σ : Mill)
    (h : ∀ r, σ.records.get k = some r → r.ticket.state = s) :
    ∀ r, (fireUnblocks env svc depth solver targets σ).records.get k = some r →
      r.ticket.state = s := by
  have hstable : Stable RoutineCommit fun k' r => k' = k → r.ticket.state = s := by
    refine ⟨fun _ _ hc => (by cases hc), ?_, fun _ _ _ _ _ _ hc => (by cases hc)⟩
    intro k' r c hc hal hP hk
    have hst := hP hk
    cases hc with
    | unblock k r now text => exact absurd (hst.symm.trans hal.1) hs
    | answerUnblock k r now text => exact absurd (hst.symm.trans hal.1) hs
    | comments k r cs => exact hst
  obtain ⟨cs, hrun⟩ := reaches_fireUnblocks routine_routineCommit depth solver targets σ
  intro r hr
  refine allRows_of_run hstable hrun ?_ k r hr rfl
  intro k' r' hr' hk
  exact h r' (hk ▸ hr')

/-- Only a completion fires the cascade. -/
theorem targets_of_transitionSession {targets : List TicketId} {σ' : Mill}
    (hdst : dst ∉ UNBLOCK_TRIGGER_STATES)
    (h : transitionSession env svc tid dst note reason σ = (σ', .ok targets)) : targets = [] := by
  unfold transitionSession at h
  simp only [if_neg hdst] at h
  repeat' split at h
  all_goals cases h
  all_goals rfl

/-- A transition that is not refused leaves the ticket in `dst`, or the purge has taken it. -/
theorem state_of_transition (hf : fetch env svc σ tid = .ok (k, r))
    (hn : transitionNoop r.ticket dst = false) (hr : transitionRefusal tid dst r = none) :
    ∀ r', (transition env svc tid dst note reason σ).1.records.get k = some r' →
      r'.ticket.state = dst := by
  have hsession : ∀ r', (transitionSession env svc tid dst note reason σ).1.records.get k = some r' →
      r'.ticket.state = dst := by
    obtain ⟨ds, hds⟩ := @transitionSession_of_allowed env svc tid dst note reason σ k r hf hn hr
    intro r' hr'
    rw [hds, get_eraseAll] at hr'
    split at hr'
    · cases hr'
    · rw [Table.get_put_self] at hr'
      cases hr'
      rfl
  unfold transition
  split
  · rename_i heq; rw [heq] at hsession; exact hsession
  · rename_i targets heq
    rw [heq] at hsession
    by_cases htrig : dst ∈ UNBLOCK_TRIGGER_STATES
    · have hne : dst ≠ .blocked := by rintro rfl; exact absurd htrig (by decide)
      exact state_of_fireUnblocks hne _ _ _ _ hsession
    · rw [targets_of_transitionSession htrig heq]
      exact hsession

theorem error_of_afterCommit {σ' : Mill} {e : ServiceError}
    (h : afterCommit env svc σ = (σ', .error e)) : ∃ msg, e = .valueError msg := by
  unfold afterCommit maybePurgeArchived at h
  dsimp only at h
  split at h
  · rename_i heq
    repeat' split at heq
    all_goals cases heq
    cases h
    exact ⟨_, rfl⟩
  · cases h

/-- A transition that is not refused raises no `TransitionError` later on. -/
theorem transition_ne_transitionError (hf : fetch env svc σ tid = .ok (k, r))
    (hn : transitionNoop r.ticket dst = false) (hr : transitionRefusal tid dst r = none) (msg : String) :
    (transition env svc tid dst note reason σ).2 ≠ .error (.transitionError msg) := by
  intro h
  unfold transition transitionSession at h
  simp only [hf, hn, hr, Bool.false_eq_true, if_false] at h
  split at h
  · rename_i heq
    split at heq
    · split at heq
      · rename_i hafter
        cases heq
        obtain ⟨m, rfl⟩ := error_of_afterCommit hafter
        cases h
      · cases heq
    · cases heq
  · cases h

/-! ## What an outcome does to the state -/

/-- The outcome moves the ticket: it names neither the state the stage was started in nor the one the
    ticket is in, and a state the ticket may go to. -/
def moves (dispatched : State) (outcome : StageOutcome) (t : Ticket) : Bool :=
  !decide (outcome.nextState = dispatched) && !decide (outcome.nextState = t.state) &&
    canTransition t.state outcome.nextState t.blockedFrom t.pausedFrom

theorem Kept.moves {r r' : TicketRecord} (h : Kept r r') (dispatched : State) (outcome : StageOutcome) :
    moves dispatched outcome r'.ticket = moves dispatched outcome r.ticket := by
  simp [Runtime.moves, h.state, h.blockedFrom, h.pausedFrom]

theorem transitionNoop_of_ne {t : Ticket} (h : dst ≠ t.state) : transitionNoop t dst = false := by
  simp [transitionNoop, Ne.symm h]

/-- The transition an outcome asks for, on a ticket in another state: it moves the ticket along a legal
    edge and leaves it alone otherwise. -/
theorem state_of_transitionToOutcome {stage : String} {dispatched : State} {outcome : StageOutcome}
    (hf : fetch env svc σ tid = .ok (k, r)) (hne : outcome.nextState ≠ r.ticket.state) :
    if canTransition r.ticket.state outcome.nextState r.ticket.blockedFrom r.ticket.pausedFrom then
      ∀ r', (transitionToOutcome env svc tid stage dispatched outcome σ).1.records.get k = some r' →
        r'.ticket.state = outcome.nextState
    else
      stateAt (transitionToOutcome env svc tid stage dispatched outcome σ).1 k =
        some r.ticket.state := by
  have hn := transitionNoop_of_ne hne
  split
  · rename_i hlegal
    rcases transitionRefusal_of_legal tid hlegal with hr | ⟨msg, hr, hstale⟩
    · unfold transitionToOutcome
      split
      · rename_i heq
        have herr := congrArg Prod.snd heq
        exact absurd herr (transition_ne_transitionError hf hn hr _)
      · exact state_of_transition hf hn hr
    · obtain ⟨σ', hclose, hf'⟩ := closeOpenAskUserThreads_of_fetch hf
      unfold transitionToOutcome transitionTo
      rw [transition_of_refused hf hn hr]
      dsimp only
      rw [if_pos hstale, hclose]
      exact state_of_transition hf' hn (transitionRefusal_of_closed tid hlegal)
  · rename_i hillegal
    rw [Bool.not_eq_true] at hillegal
    obtain ⟨msg, hr⟩ := transitionRefusal_of_illegal tid hillegal
    unfold transitionToOutcome transitionTo
    rw [transition_of_refused hf hn hr]
    dsimp only
    split
    · -- questions are closed, the edge stays illegal
      obtain ⟨σ', hclose, hf'⟩ := closeOpenAskUserThreads_of_fetch hf
      obtain ⟨msg', hr'⟩ := transitionRefusal_of_illegal tid
        (r := { r with comments := closeAskUserThreads (σ.now env 0) r.comments }) hillegal
      rw [hclose]
      dsimp only
      rw [transition_of_refused hf' hn hr']
      show stateAt σ' k = some r.ticket.state
      rw [stateAt_of_fetch hf']
    · obtain ⟨r', hf', hkept⟩ := addHistoryNote_kept (truncate 500
        (discardNote stage dispatched ((ticketOf env svc tid σ).map Ticket.state) outcome)) hf
      rw [stateAt_of_fetch hf', hkept.state]

/-- **When an outcome moves the ticket.** -/
theorem state_of_applyOutcome {stage : String} {dispatched : Ticket} {url : Option String}
    {outcome : StageOutcome} (hf : fetch env svc σ tid = .ok (k, r)) :
    stateAt (applyOutcome env svc tid stage dispatched url outcome σ).1 k ≠ some r.ticket.state ↔
      moves dispatched.state outcome r.ticket = true := by
  obtain ⟨σ₁, r₁, hcleared, hf₁, hk₁⟩ : ∃ σ₁ r₁,
      (if 0 < dispatched.retryAttempt then clearRetryState env svc tid σ else (σ, .ok ())) =
        (σ₁, .ok ()) ∧ fetch env svc σ₁ tid = .ok (k, r₁) ∧ Kept r r₁ := by
    split
    · exact clearRetryState_kept hf
    · exact ⟨σ, r, rfl, hf, .refl r⟩
  obtain ⟨r₂, hf₂, hk₂⟩ := postTrace_kept stage url hf₁
  have hkept := hk₁.trans hk₂
  unfold applyOutcome
  dsimp only
  rw [hcleared]
  dsimp only
  rw [← hkept.moves, ← hkept.state, ticketOf_of_fetch hf₂]
  unfold moves
  by_cases hsame : outcome.nextState = dispatched.state
  · rw [if_pos hsame]
    simp [hsame, stateAt_of_fetch hf₂]
  · rw [if_neg hsame]
    by_cases halready : outcome.nextState = r₂.ticket.state
    · rw [if_pos (by simp [halready])]
      simp [halready, stateAt_of_fetch hf₂]
    · rw [if_neg (by simpa using Ne.symm halready)]
      have hmove := @state_of_transitionToOutcome env svc tid _ k r₂ stage dispatched.state outcome hf₂
        halready
      split at hmove
      · rename_i hlegal
        simp only [hsame, halready, hlegal, decide_false, Bool.not_false, Bool.and_self, iff_true]
        intro hstay
        obtain ⟨r', hr', hst⟩ := Option.map_eq_some_iff.1 hstay
        exact halready ((hmove r' hr').symm.trans hst)
      · rename_i hillegal
        simp [hmove, hillegal]

end Effects

/-! ## A stage run among other sessions -/

/-- Who opened a session: the stage that runs, or anybody else (the operator's API and CLI, the
    auto-resume, the cascade of another ticket). -/
inductive Actor
  | stage | other
deriving DecidableEq, Repr

/-- One session on the mill. -/
structure Activity where
  actor : Actor
  session : Mill → Mill

/-- A call of the service. -/
def Activity.call (env : Env) (actor : Actor) (op : Op) : Activity where
  actor := actor
  session σ := (op.run env σ).1

section Lookups

variable (env : Env) (svc : BoardId) (tid : TicketId)

def stateOf (σ : Mill) : Option State := (ticketOf env svc tid σ).map Ticket.state

/-- Who changed the state of the ticket last. -/
def lastMover : Mill → List Activity → Option Actor
  | _, [] => none
  | σ, a :: as =>
    (lastMover (a.session σ) as).or
      (if stateOf env svc tid (a.session σ) = stateOf env svc tid σ then none else some a.actor)

/-- A stage run of `process_ticket`, from the row it was dispatched on to its outcome. -/
structure StageRun where
  start : Mill
  ticket : Ticket
  dispatched : ticketOf env svc tid start = some ticket
  stage : String
  staged : STAGE_FOR_STATE ticket.state = some stage
  /-- The sessions between the dispatch and the application of the outcome, in order. -/
  meanwhile : List Activity
  outcome : StageOutcome
  traceUrl : Option String

end Lookups

namespace StageRun

variable {env : Env} {svc : BoardId} {tid : TicketId} (R : StageRun env svc tid)

/-- The mill the outcome is applied to. -/
def found : Mill := R.meanwhile.foldl (fun σ a => a.session σ) R.start

/-- The mill after the outcome was applied. -/
def applied : Mill := (applyOutcome env svc tid R.stage R.ticket R.traceUrl R.outcome R.found).1

/-- Did the stage itself set the state the ticket is in? -/
def MovedByStage : Prop := lastMover env svc tid R.start R.meanwhile = some .stage

/-- The outcome changes the state only of a ticket that is still where the stage was started, or where
    the stage itself has put it. -/
def RespectsMoves : Prop :=
  ∀ k r, fetch env svc R.found tid = .ok (k, r) → stateAt R.applied k ≠ some r.ticket.state →
    r.ticket.state = R.ticket.state ∨ R.MovedByStage

/-- **When a stage outcome leaves the moves of others alone.** It does so exactly if the ticket is still
    where the stage was started, or where the stage has put it, or the outcome names the state the stage
    was started in or the state the ticket is in, or a state the ticket may not go to. -/
theorem respectsMoves_iff :
    R.RespectsMoves ↔ ∀ t, ticketOf env svc tid R.found = some t →
      t.state = R.ticket.state ∨ R.MovedByStage ∨ R.outcome.nextState = R.ticket.state ∨
      R.outcome.nextState = t.state ∨
      canTransition t.state R.outcome.nextState t.blockedFrom t.pausedFrom = false := by
  have hmoves : ∀ t, moves R.ticket.state R.outcome t = false ↔
      R.outcome.nextState = R.ticket.state ∨ R.outcome.nextState = t.state ∨
      canTransition t.state R.outcome.nextState t.blockedFrom t.pausedFrom = false := by
    intro t
    simp only [moves, Bool.and_eq_false_iff, Bool.not_eq_false', decide_eq_true_eq, or_assoc]
  constructor
  · intro h t ht
    obtain ⟨k, r, hf, rfl⟩ := fetch_of_ticketOf ht
    cases hm : moves R.ticket.state R.outcome r.ticket with
    | false => exact .inr (.inr ((hmoves _).1 hm))
    | true =>
        rcases h k r hf ((state_of_applyOutcome hf).2 hm) with hstill | hstage
        · exact .inl hstill
        · exact .inr (.inl hstage)
  · intro h k r hf hchanged
    have hm := (state_of_applyOutcome hf).1 hchanged
    rcases h _ (ticketOf_of_fetch hf) with hstill | hstage | hkeep
    · exact .inl hstill
    · exact .inr hstage
    · rw [(hmoves _).2 hkeep] at hm
      cases hm

end StageRun

/-- The operator parks a draft while the refine stage works on it. -/
def parkedDraft : StageRun .standalone "board" "t-1" where
  start := runOps .standalone .empty [.create "board" { id := "t-1", title := "ticket" }]
  ticket := (ticketOf .standalone "board" "t-1" (runOps .standalone .empty
    [.create "board" { id := "t-1", title := "ticket" }])).get (by decide +kernel)
  dispatched := (Option.some_get _).symm
  stage := "refine"
  staged := by decide +kernel
  meanwhile := [.call .standalone .other
    (.transition "board" "t-1" .blocked (some "parked by the operator") none)]
  outcome := { nextState := .ready, note := some "refined" }
  traceUrl := none

/-- The outcome takes the parked draft out of `blocked`. -/
theorem parked_draft_overridden :
    stateOf .standalone "board" "t-1" parkedDraft.found = some .blocked ∧
    lastMover .standalone "board" "t-1" parkedDraft.start parkedDraft.meanwhile = some .other ∧
    stateOf .standalone "board" "t-1" parkedDraft.applied = some .ready ∧
    ¬ parkedDraft.RespectsMoves := by
  refine ⟨by decide +kernel, by decide +kernel, by decide +kernel, ?_⟩
  intro h
  obtain ⟨k, r, hf⟩ : ∃ k r, fetch .standalone "board" parkedDraft.found "t-1" = .ok (k, r) :=
    ⟨_, _, rfl⟩
  cases hf
  rcases h _ _ rfl (by decide +kernel) with hstill | hstage
  · exact absurd hstill (by decide +kernel)
  · exact absurd hstage (by unfold StageRun.MovedByStage; decide +kernel)

end Runtime
end RobotsixMill
