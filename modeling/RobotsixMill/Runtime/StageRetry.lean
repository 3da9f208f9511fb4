import RobotsixMill.Core.Settings
import RobotsixMill.Service.Session
import RobotsixMill.Lib.Runs
import Mathlib.Data.List.Induction

/-!
# `Runtime.StageRetry` — what a failing stage run does to its ticket

`handleStageError` parks, retries, blocks or closes the ticket whose stage raised; `dispatch` is one
attempt of `_process_ticket_inner` to run the stage of a ticket, which the disk admission gate may park
before the stage starts. Both write the one field `retry_attempt`: a floor of 1 under the network and
disk parks, the number of consecutive parks under a model outage, the attempt number under a retry.

- `counted_step` — with no success in between, the field counts ordinary errors and model-outage errors
  together, plus one if the first failure was a park (`spent`, `spent_eq`).
- `retry_budgets` — exactly when the two budgets do not get in each other's way.
-/

namespace RobotsixMill
namespace Runtime
open RobotsixMill.Core Lib Service

/-! ## The handler -/

/-- How a dispatch fails. -/
inductive StageFailure
  /-- Network outage or full disk: the ticket is parked. -/
  | park
  | modelOutage
  /-- Any other transient error. -/
  | ordinary
  | fatal
deriving DecidableEq, Repr

/-- The exception a stage raised: its texts and how `transient_errors` reads it. -/
structure StageError where
  typeName : String
  text : String
  reprText : String
  /-- `classify_stage_error` says "transient". -/
  transient : Bool
  networkDown : Bool
  diskFull : Bool
  modelUnavailable : Bool
  usageExhausted : Bool
  /-- `claude_usage_reset_at`, with its `%H:%M` text. -/
  usageResetAt : Option (DateTime × String)
deriving DecidableEq, Repr

/-- The host while the error is handled. -/
structure Host where
  networkAvailable : Bool
  /-- `first_full_path`. -/
  fullPath : Option String
  /-- `compute_retry_delay` of an attempt, jitter included, in microseconds. -/
  retryDelay : Int → DateTime
  /-- The trace link, when the run was traced. -/
  traceUrl : Option String

/-- `text[:n]`. -/
def truncate (n : Nat) (text : String) : String := String.ofList (text.toList.take n)

/-- A number of seconds, in microseconds. -/
def seconds (n : Nat) : DateTime := n * 1000000

/-- `set_retry_state`. -/
def setRetryState (now : DateTime) (retryAttempt : Int) (lastTransientError : Option String)
    (nextRetryAt : Option DateTime) (r : TicketRecord) : TicketRecord :=
  { r with ticket := { r.ticket with
      retryAttempt := retryAttempt, lastTransientError := lastTransientError
      nextRetryAt := nextRetryAt, updatedAt := now } }

/-- `_post_trace_event`. -/
def postTraceEvent (tid : TicketId) (stage : String) (now : Nat → DateTime) (url : Option String)
    (r : TicketRecord) : TicketRecord :=
  match url with
  | none => r
  | some link => historyNoteRecord tid now s!"🔍 [Trace: {stage}]({link})" r

/-- `service.transition` of the ticket's own record; a refused one raises and changes nothing. -/
def transitionOwn (tid : TicketId) (now : Nat → DateTime) (dst : State) (note : String)
    (r : TicketRecord) : TicketRecord :=
  match transitionRefusal tid dst r with
  | some _ => r
  | none => transitionRecord tid now dst (some note) none r

/-- `_block_ticket_and_notify`. -/
def blockTicketAndNotify (tid : TicketId) (stage note : String) (now : Nat → DateTime)
    (url : Option String) (r : TicketRecord) : TicketRecord :=
  transitionOwn tid (fun i => now (i + 1)) .blocked (truncate 200 note)
    (postTraceEvent tid stage now url r)

/-- `_close_after_retrospect_failure`. -/
def closeAfterRetrospectFailure (tid : TicketId) (note : String) (now : Nat → DateTime)
    (url : Option String) (r : TicketRecord) : TicketRecord :=
  transitionOwn tid (fun i => now (i + 1)) .closed (truncate 200 s!"retrospect failed — {note}")
    (postTraceEvent tid "retrospect" now url r)

/-- Block the ticket, or close it when its stage is retrospect. -/
def giveUp (tid : TicketId) (stage note : String) (now : Nat → DateTime) (url : Option String)
    (r : TicketRecord) : TicketRecord :=
  if stage = "retrospect" then closeAfterRetrospectFailure tid note now url r
  else blockTicketAndNotify tid stage note now url r

/-- The delay of a model-outage park in seconds, and what the park is called. -/
def outageDelay (s : Settings) (now : DateTime) (err : StageError) : Nat × String :=
  if err.usageExhausted then
    match err.usageResetAt with
    | some (resetAt, clock) =>
      ((max 60 (Int.tdiv ((resetAt : Int) - now) 1000000 + 60)).toNat,
        s!"Claude usage exhausted — parked until {clock}Z")
    | none => (s.claudeUsageExhaustedRetrySeconds, "Claude usage exhausted")
  else (s.modelOutageRetrySeconds, "model outage")

/-- Park the ticket until `nextRetryAt`. -/
def park (tid : TicketId) (stage : String) (now : Nat → DateTime) (url : Option String)
    (retryAttempt : Int) (why : String) (nextRetryAt : DateTime) (r : TicketRecord) : TicketRecord :=
  postTraceEvent tid stage (fun i => now (i + 2)) url
    (setRetryState (now 1) retryAttempt (some (truncate 200 why)) (some nextRetryAt) r)

/-- `_handle_stage_error`, with the kind of failure it took the error for. -/
def handleStageError (s : Settings) (tid : TicketId) (stage : String) (err : StageError) (h : Host)
    (now : Nat → DateTime) (r : TicketRecord) : TicketRecord × StageFailure :=
  let attempts := r.ticket.retryAttempt
  let parkAs := park tid stage now h.traceUrl
  if err.transient then
    if err.networkDown && !h.networkAvailable then
      -- a floor of 1 shows the chip; parking never counts up
      (parkAs (max attempts 1)
        ("network outage (parked, retry budget untouched): " ++ err.reprText)
        (now 0 + seconds s.networkOutageRetrySeconds) r, .park)
    else if err.diskFull && h.fullPath.isSome then
      (parkAs (max attempts 1)
        ("data volume full (parked, retry budget untouched): " ++ err.reprText)
        (now 0 + seconds s.diskFullRetrySeconds) r, .park)
    else if err.modelUnavailable then
      let parkCount := attempts + 1
      if (s.modelOutageMaxParks : Int) < parkCount then
        (blockTicketAndNotify tid stage (truncate 200
          (s!"Infrastructure: LLM model outage (model_outage) persisted after {parkCount - 1} " ++
            s!"park(s) — may be a permanent condition (bad model id?): {err.typeName}: {err.text}"))
          now h.traceUrl r, .modelOutage)
      else
        let (delay, kind) := outageDelay s (now 0) err
        (parkAs parkCount
          (s!"{kind} (model_outage, park {parkCount}/{s.modelOutageMaxParks}, " ++
            "retry budget untouched): " ++ err.reprText)
          (now 0 + seconds delay) r, .modelOutage)
    else
      let attempt := attempts + 1
      if attempt ≤ s.stageRetryMaxAttempts then
        (parkAs attempt err.reprText (now 0 + h.retryDelay attempt) r, .ordinary)
      else
        (giveUp tid stage (truncate 200
          (s!"Transient: {err.typeName} persisted after {s.stageRetryMaxAttempts} attempts — " ++
            s!"last: {err.text}")) now h.traceUrl r, .ordinary)
  else
    (giveUp tid stage (truncate 200 s!"Fatal: {err.typeName}: {err.text}") now h.traceUrl r, .fatal)

/-! ## Dispatch -/

/-- One attempt to run the stage of a ticket whose run, if it starts, raises. -/
structure Dispatch where
  /-- The ticket when it is dispatched. -/
  before : TicketRecord
  /-- The ticket when the handler reads it again. -/
  seen : TicketRecord
  unmetDependencies : Bool
  /-- `first_full_path` at the admission gate. -/
  gatePath : Option String
  error : StageError
  host : Host
  now : Nat → DateTime

/-- States `_process_ticket_inner` does not touch. -/
def TERMINAL : List State := [.closed, .errored, .blocked]

/-- `_process_ticket_inner` up to a failure of the stage; `none` when nothing was started or parked. -/
def dispatch (s : Settings) (tid : TicketId) (d : Dispatch) : Option (TicketRecord × StageFailure) :=
  let t := d.before.ticket
  if t.state ∈ TERMINAL ∨ t.state = .awaitingUserReply then none
  else if t.nextRetryAt.any fun at_ => decide (d.now 0 < at_) then none
  else
    match STAGE_FOR_STATE t.state with
    | none => none
    | some stage =>
      if d.unmetDependencies then none
      else
        match d.gatePath with
        | some path =>
          some (setRetryState (d.now 2) (max t.retryAttempt 1)
            (some (truncate 200 (s!"{path} below {s.diskMinFreeMb} MB free " ++
              "(parked before dispatch, retry budget untouched)")))
            (some (d.now 1 + seconds s.diskFullRetrySeconds)) d.before, .park)
        | none => some (handleStageError s tid stage d.error d.host d.now d.seen)

/-- What kind of failure the dispatch ends in, by the gate, the error and the host alone. -/
def Dispatch.failure (d : Dispatch) : StageFailure :=
  if d.gatePath.isSome then .park
  else if d.error.transient = false then .fatal
  else if d.error.networkDown && !d.host.networkAvailable then .park
  else if d.error.diskFull && d.host.fullPath.isSome then .park
  else if d.error.modelUnavailable then .modelOutage
  else .ordinary

/-! ## What a failure does to the ticket -/

@[simp] theorem postTraceEvent_ticket (tid : TicketId) (stage : String) (now : Nat → DateTime)
    (url : Option String) (r : TicketRecord) :
    (postTraceEvent tid stage now url r).ticket = r.ticket := by
  cases url <;> rfl

@[simp] theorem postTraceEvent_comments (tid : TicketId) (stage : String) (now : Nat → DateTime)
    (url : Option String) (r : TicketRecord) :
    (postTraceEvent tid stage now url r).comments = r.comments := by
  cases url <;> rfl

@[simp] theorem park_ticket_state (tid : TicketId) (stage : String) (now : Nat → DateTime)
    (url : Option String) (a : Int) (why : String) (next : DateTime) (r : TicketRecord) :
    (park tid stage now url a why next r).ticket.state = r.ticket.state := by
  simp [park, setRetryState]

@[simp] theorem park_ticket_retryAttempt (tid : TicketId) (stage : String) (now : Nat → DateTime)
    (url : Option String) (a : Int) (why : String) (next : DateTime) (r : TicketRecord) :
    (park tid stage now url a why next r).ticket.retryAttempt = a := by
  simp [park, setRetryState]

section Effect

variable {s : Settings} {tid : TicketId} {stage : String}

/-- A ticket that has a stage can be blocked. -/
theorem transitionRefusal_blocked {r : TicketRecord} (h : STAGE_FOR_STATE r.ticket.state = some stage) :
    transitionRefusal tid .blocked r = none := by
  have hlegal : ∀ bf pf, canTransition r.ticket.state .blocked bf pf = true := by
    intro bf pf
    revert h
    unfold canTransition
    cases r.ticket.state <;> simp [STAGE_FOR_STATE, TRANSITIONS]
  unfold transitionRefusal
  simp [hlegal, TERMINAL_STATES]

theorem blockTicketAndNotify_state {r : TicketRecord} (note : String) (now : Nat → DateTime)
    (url : Option String) (h : STAGE_FOR_STATE r.ticket.state = some stage) (stage' : String) :
    (blockTicketAndNotify tid stage' note now url r).ticket.state = .blocked := by
  have h' : STAGE_FOR_STATE (postTraceEvent tid stage' now url r).ticket.state = some stage := by
    rw [postTraceEvent_ticket]
    exact h
  unfold blockTicketAndNotify transitionOwn
  rw [transitionRefusal_blocked h']
  rfl

/-- Only retrospect works on a ticket that is done. -/
theorem done_of_retrospect {st : State} (h : STAGE_FOR_STATE st = some "retrospect") : st = .done := by
  revert h
  cases st <;> simp [STAGE_FOR_STATE]

/-- A done ticket closes unless it has an open question. -/
theorem closeAfterRetrospectFailure_state {r : TicketRecord} (note : String) (now : Nat → DateTime)
    (url : Option String) (h : r.ticket.state = .done) :
    (openAskUserThreads r.comments = [] →
      (closeAfterRetrospectFailure tid note now url r).ticket.state = .closed) ∧
    (openAskUserThreads r.comments ≠ [] →
      (closeAfterRetrospectFailure tid note now url r).ticket = r.ticket) := by
  have hlegal : ∀ bf pf, canTransition .done .closed bf pf = true := by
    intro bf pf
    simp [canTransition, TRANSITIONS]
  unfold closeAfterRetrospectFailure transitionOwn transitionRefusal
  simp only [postTraceEvent_ticket, postTraceEvent_comments, h, hlegal, TERMINAL_STATES, forceClosesThreads]
  constructor
  · intro hopen
    simp [hopen, transitionRecord, transitionTicket]
  · intro hopen
    simp [hopen]

/-- The ticket was blocked or closed. -/
def GaveUp (r : TicketRecord) : Prop := r.ticket.state = .blocked ∨ r.ticket.state = .closed

/-- No open question keeps a done ticket from closing. -/
def Closable (r : TicketRecord) : Prop := r.ticket.state = .done → openAskUserThreads r.comments = []

/-- What a failure makes of a ticket in state `st` whose counter is `a`, by its kind. -/
inductive Effect (s : Settings) (st : State) (a : Int) (closable : Prop) :
    StageFailure → TicketRecord → Prop
  | parked {r : TicketRecord} : r.ticket.state = st → r.ticket.retryAttempt = max a 1 →
      Effect s st a closable .park r
  | outageParked {r : TicketRecord} : a + 1 ≤ s.modelOutageMaxParks → r.ticket.state = st →
      r.ticket.retryAttempt = a + 1 → Effect s st a closable .modelOutage r
  | outageBlocked {r : TicketRecord} : (s.modelOutageMaxParks : Int) < a + 1 → GaveUp r →
      Effect s st a closable .modelOutage r
  | retried {r : TicketRecord} : a + 1 ≤ s.stageRetryMaxAttempts → r.ticket.state = st →
      r.ticket.retryAttempt = a + 1 → Effect s st a closable .ordinary r
  | exhausted {r : TicketRecord} : s.stageRetryMaxAttempts < a + 1 → closable → GaveUp r →
      Effect s st a closable .ordinary r
  | refused {r : TicketRecord} : s.stageRetryMaxAttempts < a + 1 → ¬ closable → r.ticket.state = st →
      r.ticket.retryAttempt = a → Effect s st a closable .ordinary r
  | fatal {r : TicketRecord} :
      GaveUp r ∨ (r.ticket.state = st ∧ r.ticket.retryAttempt = a) → Effect s st a closable .fatal r

theorem giveUp_cases {r : TicketRecord} (note : String) (now : Nat → DateTime) (url : Option String)
    (h : STAGE_FOR_STATE r.ticket.state = some stage) :
    (Closable r ∧ GaveUp (giveUp tid stage note now url r)) ∨
      (¬ Closable r ∧ (giveUp tid stage note now url r).ticket = r.ticket) := by
  unfold giveUp
  by_cases hs : stage = "retrospect"
  · subst hs
    have hdone := done_of_retrospect h
    obtain ⟨hclose, hrefuse⟩ := @closeAfterRetrospectFailure_state tid r note now url hdone
    rw [if_pos rfl]
    by_cases hopen : openAskUserThreads r.comments = []
    · exact .inl ⟨fun _ => hopen, .inr (hclose hopen)⟩
    · exact .inr ⟨fun hc => hopen (hc hdone), hrefuse hopen⟩
  · rw [if_neg hs]
    refine .inl ⟨?_, .inl (blockTicketAndNotify_state note now url h stage)⟩
    intro hdone
    rw [hdone] at h
    exact absurd (Option.some.inj h).symm hs

/-- **The handler.** -/
theorem handleStageError_effect (err : StageError) (h : Host) (now : Nat → DateTime) {r : TicketRecord}
    (hstage : STAGE_FOR_STATE r.ticket.state = some stage) :
    Effect s r.ticket.state r.ticket.retryAttempt (Closable r)
      (handleStageError s tid stage err h now r).2 (handleStageError s tid stage err h now r).1 := by
  unfold handleStageError
  dsimp only
  by_cases ht : err.transient = true
  · rw [if_pos ht]
    by_cases hn : (err.networkDown && !h.networkAvailable) = true
    · rw [if_pos hn]
      exact .parked (park_ticket_state ..) (park_ticket_retryAttempt ..)
    · rw [if_neg hn]
      by_cases hd : (err.diskFull && h.fullPath.isSome) = true
      · rw [if_pos hd]
        exact .parked (park_ticket_state ..) (park_ticket_retryAttempt ..)
      · rw [if_neg hd]
        by_cases hm : err.modelUnavailable = true
        · rw [if_pos hm]
          by_cases hmax : (s.modelOutageMaxParks : Int) < r.ticket.retryAttempt + 1
          · rw [if_pos hmax]
            exact .outageBlocked hmax (.inl (blockTicketAndNotify_state _ now _ hstage stage))
          · rw [if_neg hmax]
            exact .outageParked (by omega) (park_ticket_state ..) (park_ticket_retryAttempt ..)
        · rw [if_neg hm]
          by_cases hmax : r.ticket.retryAttempt + 1 ≤ s.stageRetryMaxAttempts
          · rw [if_pos hmax]
            exact .retried hmax (park_ticket_state ..) (park_ticket_retryAttempt ..)
          · rw [if_neg hmax]
            rcases @giveUp_cases tid stage r _ now h.traceUrl hstage with ⟨hc, hg⟩ | ⟨hc, hsame⟩
            · exact .exhausted (by omega) hc hg
            · exact .refused (by omega) hc (by rw [hsame]) (by rw [hsame])
  · rw [if_neg ht]
    rcases @giveUp_cases tid stage r _ now h.traceUrl hstage with ⟨-, hg⟩ | ⟨-, hsame⟩
    · exact .fatal (.inl hg)
    · exact .fatal (.inr ⟨by rw [hsame], by rw [hsame]⟩)

theorem handleStageError_failure (err : StageError) (h : Host) (now : Nat → DateTime) (r : TicketRecord) :
    (handleStageError s tid stage err h now r).2 =
      if err.transient = false then .fatal
      else if err.networkDown && !h.networkAvailable then .park
      else if err.diskFull && h.fullPath.isSome then .park
      else if err.modelUnavailable then .modelOutage
      else .ordinary := by
  unfold handleStageError
  dsimp only
  cases err.transient with
  | false => rfl
  | true =>
      simp only [if_true, Bool.true_eq_false, if_false]
      split
      · rfl
      · split
        · rfl
        · split
          · split <;> rfl
          · split <;> rfl

/-- The handler and the gate see the ticket in the state and with the counter `r` has. -/
def SameBudget (r r' : TicketRecord) : Prop :=
  r'.ticket.state = r.ticket.state ∧ r'.ticket.retryAttempt = r.ticket.retryAttempt

/-- **A failed dispatch.** -/
theorem dispatch_effect {d : Dispatch} {r : TicketRecord} {k : StageFailure}
    (hd : dispatch s tid d = some (r, k)) (hsame : SameBudget d.before d.seen) :
    (STAGE_FOR_STATE d.before.ticket.state).isSome = true ∧ k = d.failure ∧
      Effect s d.before.ticket.state d.before.ticket.retryAttempt (Closable d.seen) k r := by
  unfold dispatch at hd
  dsimp only at hd
  split at hd
  · cases hd
  · split at hd
    · cases hd
    · split at hd
      · cases hd
      · rename_i stage hstage
        split at hd
        · cases hd
        · refine ⟨by rw [hstage]; rfl, ?_⟩
          split at hd
          · rename_i path hpath
            cases hd
            refine ⟨?_, .parked rfl rfl⟩
            unfold Dispatch.failure
            rw [hpath]
            rfl
          · rename_i hpath
            have hseen : STAGE_FOR_STATE d.seen.ticket.state = some stage := by
              rw [hsame.1]
              exact hstage
            have heff := @handleStageError_effect s tid stage d.error d.host d.now d.seen hseen
            have hkind := @handleStageError_failure s tid stage d.error d.host d.now d.seen
            rw [Option.some.inj hd] at heff hkind
            rw [hsame.1, hsame.2] at heff
            refine ⟨?_, heff⟩
            refine hkind.trans ?_
            unfold Dispatch.failure
            rw [hpath]
            rfl

end Effect

/-! ## Sequences of failures -/

section Budget

variable {s : Settings} {tid : TicketId}

/-- How a failure moves the counter of a ticket that stays in its state. -/
def spendOn (maxAttempts : Int) (spent : Int) : StageFailure → Int
  | .park => max spent 1
  | .modelOutage => spent + 1
  | .ordinary => if spent + 1 ≤ maxAttempts then spent + 1 else spent
  | .fatal => spent

/-- The counter after a sequence of failures of a ticket that started at 0. -/
def spent (maxAttempts : Int) (ks : List StageFailure) : Int := ks.foldl (spendOn maxAttempts) 0

def ordinaryErrors (ks : List StageFailure) : Nat := ks.count .ordinary

def modelOutages (ks : List StageFailure) : Nat := ks.count .modelOutage

/-- Did the sequence start with a park? -/
def parkedFirst (ks : List StageFailure) : Nat := if ks.head? = some .park then 1 else 0

theorem spent_append (n : Int) (ks : List StageFailure) (k : StageFailure) :
    spent n (ks ++ [k]) = spendOn n (spent n ks) k := by
  simp [spent]

/-- **What the counter counts**, as long as no error is fatal and every ordinary one is retried. -/
theorem spent_eq (n : Int) (ks : List StageFailure) (hfatal : .fatal ∉ ks)
    (hretried : ∀ pre, pre ++ [.ordinary] <+: ks → spent n pre + 1 ≤ n) :
    spent n ks = ordinaryErrors ks + modelOutages ks + parkedFirst ks := by
  induction ks using List.reverseRecOn with
  | nil => rfl
  | append_singleton ks k ih =>
      have hf : .fatal ∉ ks := fun h => hfatal (List.mem_append_left _ h)
      have hih := ih hf fun pre hpre => hretried pre (hpre.trans (List.prefix_append _ _))
      have hhead : ks ≠ [] → parkedFirst (ks ++ [k]) = parkedFirst ks := by
        intro hne
        unfold parkedFirst
        rw [List.head?_append_of_ne_nil _ hne]
      rw [spent_append]
      cases k with
      | fatal => exact absurd (List.mem_append_right _ (List.mem_singleton.2 rfl)) hfatal
      | ordinary =>
          have hle := hretried ks (List.prefix_refl _)
          have hfirst : parkedFirst (ks ++ [.ordinary]) = parkedFirst ks := by
            cases ks with
            | nil => rfl
            | cons x ks => exact hhead (List.cons_ne_nil _ _)
          simp only [spendOn, if_pos hle, hfirst, ordinaryErrors, modelOutages, List.count_append,
            List.count_singleton]
          simp only [ordinaryErrors, modelOutages] at hih
          rw [hih]
          simp
          omega
      | modelOutage =>
          have hfirst : parkedFirst (ks ++ [.modelOutage]) = parkedFirst ks := by
            cases ks with
            | nil => rfl
            | cons x ks => exact hhead (List.cons_ne_nil _ _)
          simp only [spendOn, hfirst, ordinaryErrors, modelOutages, List.count_append,
            List.count_singleton]
          simp only [ordinaryErrors, modelOutages] at hih
          rw [hih]
          simp
          omega
      | park =>
          have hcount : ordinaryErrors (ks ++ [.park]) = ordinaryErrors ks ∧
              modelOutages (ks ++ [.park]) = modelOutages ks := by
            simp [ordinaryErrors, modelOutages]
          rw [hcount.1, hcount.2]
          cases ks with
          | nil => rfl
          | cons x ks =>
              rw [hhead (List.cons_ne_nil _ _)]
              show max (spent n (x :: ks)) 1 = _
              rw [hih]
              -- whatever came first has been counted
              have hpos : 1 ≤ ordinaryErrors (x :: ks) + modelOutages (x :: ks) + parkedFirst (x :: ks) := by
                cases x with
                | fatal => exact absurd List.mem_cons_self hf
                | park => simp [parkedFirst]
                | ordinary => simp [ordinaryErrors]; omega
                | modelOutage => simp [modelOutages]; omega
              omega

/-- A ticket and the failures of its stage since the last success. -/
structure Tracked where
  record : TicketRecord
  failures : List StageFailure

/-- A failed dispatch. Between and during dispatches the rest of the ticket (comments, events, cost) may
    change in any way. -/
def FailureStep (s : Settings) (tid : TicketId) (t : Tracked) (d : Dispatch) (t' : Tracked) : Prop :=
  SameBudget t.record d.before ∧ SameBudget d.before d.seen ∧
    ∃ k, dispatch s tid d = some (t'.record, k) ∧ t'.failures = t.failures ++ [k]

/-- The counter of a ticket that still is in the state `st` it failed in. -/
def Counted (s : Settings) (st : State) (t : Tracked) : Prop :=
  (t.record.ticket.state = st ∧
    t.record.ticket.retryAttempt = spent s.stageRetryMaxAttempts t.failures) ∨
  STAGE_FOR_STATE t.record.ticket.state = none

/-- A ticket that was blocked or closed used up the budget of its last failure: it was given up on its
    `stage_retry_max_attempts + 1`-th ordinary error, or blocked on its `model_outage_max_parks + 1`-th
    model-outage error. -/
def OwnBudget (s : Settings) (t : Tracked) : Prop :=
  GaveUp t.record → ∀ pre k, t.failures = pre ++ [k] →
    (k = .ordinary → (ordinaryErrors pre : Int) = s.stageRetryMaxAttempts) ∧
    (k = .modelOutage → modelOutages pre = s.modelOutageMaxParks)

/-- No failure arrives while the counter is used up by failures of other kinds. -/
def BudgetLeft (s : Settings) (t : Tracked) (d : Dispatch) : Prop :=
  (d.failure = .ordinary → Closable d.seen →
    s.stageRetryMaxAttempts ≤ spent s.stageRetryMaxAttempts t.failures →
    (ordinaryErrors t.failures : Int) = s.stageRetryMaxAttempts) ∧
  (d.failure = .modelOutage →
    (s.modelOutageMaxParks : Int) ≤ spent s.stageRetryMaxAttempts t.failures →
    modelOutages t.failures = s.modelOutageMaxParks)

theorem gaveUp_stage {r : TicketRecord} (h : GaveUp r) : STAGE_FOR_STATE r.ticket.state = none := by
  rcases h with h | h
  · rw [h]
    rfl
  · rw [h]
    rfl

/-- What a failed dispatch finds: a ticket that is still in its state. -/
theorem active_of_step {st : State} {t t' : Tracked} {d : Dispatch} (hc : Counted s st t)
    (hstep : FailureStep s tid t d t') :
    t'.failures = t.failures ++ [d.failure] ∧ (STAGE_FOR_STATE st).isSome = true ∧
      Effect s st (spent s.stageRetryMaxAttempts t.failures) (Closable d.seen) d.failure t'.record := by
  obtain ⟨hbefore, hseen, k, hd, hks⟩ := hstep
  obtain ⟨hstage, hk, heff⟩ := dispatch_effect hd hseen
  rw [hbefore.1] at hstage heff
  rw [hbefore.2] at heff
  rcases hc with ⟨hst, hcount⟩ | hnone
  · rw [hst] at hstage heff
    rw [hcount] at heff
    subst hk
    exact ⟨hks, hstage, heff⟩
  · rw [hnone] at hstage
    cases hstage

/-- **One failure.** -/
theorem counted_step {st : State} {t t' : Tracked} {d : Dispatch} (hc : Counted s st t)
    (hstep : FailureStep s tid t d t') : Counted s st t' := by
  obtain ⟨hks, -, heff⟩ := active_of_step hc hstep
  unfold Counted
  rw [hks, spent_append]
  cases hk : d.failure with
  | park =>
      rw [hk] at heff
      cases heff with
      | parked hst ha => exact .inl ⟨hst, ha⟩
  | modelOutage =>
      rw [hk] at heff
      cases heff with
      | outageParked _ hst ha => exact .inl ⟨hst, ha⟩
      | outageBlocked _ hg => exact .inr (gaveUp_stage hg)
  | ordinary =>
      rw [hk] at heff
      cases heff with
      | retried hle hst ha => exact .inl ⟨hst, by rw [ha, spendOn, if_pos hle]⟩
      | exhausted _ _ hg => exact .inr (gaveUp_stage hg)
      | refused hlt _ hst ha => exact .inl ⟨hst, by rw [ha, spendOn, if_neg (by omega)]⟩
  | fatal =>
      rw [hk] at heff
      cases heff with
      | fatal h =>
          rcases h with hg | ⟨hst, ha⟩
          · exact .inr (gaveUp_stage hg)
          · exact .inl ⟨hst, ha⟩

/-- A ticket that is still in its state was not given up. -/
theorem not_gaveUp {st : State} {r : TicketRecord} (hstage : (STAGE_FOR_STATE st).isSome = true)
    (hst : r.ticket.state = st) : ¬ GaveUp r := by
  intro hg
  have hnone := gaveUp_stage hg
  rw [hst] at hnone
  rw [hnone] at hstage
  cases hstage

/-- **One failure** is charged to its own budget exactly when that budget is the one used up. -/
theorem ownBudget_iff {st : State} {t t' : Tracked} {d : Dispatch} (hc : Counted s st t)
    (hstep : FailureStep s tid t d t') : OwnBudget s t' ↔ BudgetLeft s t d := by
  obtain ⟨hks, hstage, heff⟩ := active_of_step hc hstep
  have hlast : ∀ pre k, t'.failures = pre ++ [k] → pre = t.failures ∧ k = d.failure := by
    intro pre k hpre
    rw [hks] at hpre
    obtain ⟨h₁, h₂⟩ := List.append_inj' hpre rfl
    exact ⟨h₁.symm, (List.cons.inj h₂).1.symm⟩
  have hkept : t'.record.ticket.state = st → OwnBudget s t' :=
    fun hst hg => absurd hg (not_gaveUp hstage hst)
  have hgave : GaveUp t'.record → (OwnBudget s t' ↔
      (d.failure = .ordinary → (ordinaryErrors t.failures : Int) = s.stageRetryMaxAttempts) ∧
      (d.failure = .modelOutage → modelOutages t.failures = s.modelOutageMaxParks)) := by
    intro hg
    constructor
    · intro hown
      exact hown hg t.failures d.failure hks
    · rintro hown - pre k hpre
      obtain ⟨rfl, rfl⟩ := hlast pre k hpre
      exact hown
  unfold BudgetLeft
  cases hk : d.failure with
  | park =>
      rw [hk] at heff
      cases heff with
      | parked hst _ => exact iff_of_true (hkept hst) ⟨nofun, nofun⟩
  | fatal =>
      rw [hk] at heff
      cases heff with
      | fatal h =>
          rcases h with hg | ⟨hst, -⟩
          · rw [hgave hg, hk]
            exact iff_of_true ⟨nofun, nofun⟩ ⟨nofun, nofun⟩
          · exact iff_of_true (hkept hst) ⟨nofun, nofun⟩
  | modelOutage =>
      rw [hk] at heff
      cases heff with
      | outageParked hle hst _ =>
          refine iff_of_true (hkept hst) ⟨nofun, fun _ hmax => ?_⟩
          omega
      | outageBlocked hlt hg =>
          rw [hgave hg, hk]
          constructor
          · exact fun h => ⟨nofun, fun _ _ => h.2 rfl⟩
          · exact fun h => ⟨nofun, fun _ => h.2 rfl (by omega)⟩
  | ordinary =>
      rw [hk] at heff
      cases heff with
      | retried hle hst _ =>
          refine iff_of_true (hkept hst) ⟨fun _ _ hmax => ?_, nofun⟩
          omega
      | exhausted hlt hclose hg =>
          rw [hgave hg, hk]
          constructor
          · exact fun h => ⟨fun _ _ _ => h.1 rfl, nofun⟩
          · exact fun h => ⟨fun _ => h.1 rfl hclose (by omega), nofun⟩
      | refused _ hopen hst _ => exact iff_of_true (hkept hst) ⟨fun _ hclose => absurd hclose hopen, nofun⟩

theorem failureStep_det {t t₁ t₂ : Tracked} {d : Dispatch} (h₁ : FailureStep s tid t d t₁)
    (h₂ : FailureStep s tid t d t₂) : t₁ = t₂ := by
  obtain ⟨-, -, k₁, hd₁, hk₁⟩ := h₁
  obtain ⟨-, -, k₂, hd₂, hk₂⟩ := h₂
  rw [hd₁] at hd₂
  obtain ⟨hr, hk⟩ := Prod.mk.inj (Option.some.inj hd₂)
  obtain ⟨r₁, ks₁⟩ := t₁
  obtain ⟨r₂, ks₂⟩ := t₂
  dsimp only at hr hk₁ hk₂
  rw [hr, hk₁, hk₂, hk]

/-- **The two budgets.** Along a sequence of failed dispatches of a ticket without a success in between,
    the ticket is given up only by the failure whose own budget is used up, exactly when no failure
    arrives while the common counter has reached the bound of its kind and the failures of its kind
    have not. -/
theorem retry_budgets {r : TicketRecord} {ds : List Dispatch} {t : Tracked}
    (hfresh : r.ticket.retryAttempt = 0) (hrun : Run (FailureStep s tid) ⟨r, []⟩ ds t) :
    Run.Always (FailureStep s tid) (OwnBudget s) ⟨r, []⟩ ds ↔
      Run (Guarded (BudgetLeft s) (FailureStep s tid)) ⟨r, []⟩ ds t := by
  have hstart : Counted s r.ticket.state ⟨r, []⟩ := .inl ⟨rfl, hfresh⟩
  apply Run.always_iff_guarded_of_invariant (J := Counted s r.ticket.state)
  · intro t d k k' hk hk'
    exact failureStep_det hk hk'
  · intro t d k ht hstep
    exact counted_step ht hstep
  · intro t d k ht _ hstep
    exact ownBudget_iff ht hstep
  · exact hrun
  · exact hstart
  · intro _ pre k hpre
    cases pre <;> cases hpre

end Budget

/-- A refused connection. -/
def connectError : StageError where
  typeName := "ConnectError"
  text := "refused"
  reprText := "ConnectError('refused')"
  transient := true
  networkDown := false
  diskFull := false
  modelUnavailable := false
  usageExhausted := false
  usageResetAt := none

/-- A dispatch of the ticket as it is, at the given time. -/
def Dispatch.of (r : TicketRecord) (gatePath : Option String) (err : StageError) (time : DateTime) :
    Dispatch where
  before := r
  seen := r
  unmetDependencies := false
  gatePath := gatePath
  error := err
  host := { networkAvailable := true, fullPath := none, retryDelay := fun _ => seconds 2, traceUrl := none }
  now := fun i => time + i

/-- A ticket waiting for refine. -/
def draftRecord : TicketRecord :=
  { ticket := { title := "ticket", state := .draft, createdAt := 0, updatedAt := 0 }
    events := [], comments := [] }

/-- No model can be had. -/
def outageError : StageError := { connectError with typeName := "ModelOutage", modelUnavailable := true }

/-- The ticket after it failed so. -/
def afterError (r : TicketRecord) (err : StageError) (time : DateTime) : TicketRecord :=
  (handleStageError {} "t-1" "refine" err (Dispatch.of r none err time).host (fun i => time + i) r).1

def firstRetry : TicketRecord := afterError draftRecord connectError 0

def parkedRetry : TicketRecord := afterError firstRetry outageError (seconds 1000)

/-- An error, a model outage and another error: each is counted on its own, and the ticket waits for its next try. -/
theorem retry_budgets_mixed_errors : ∃ t,
    Run (FailureStep {} "t-1") ⟨draftRecord, []⟩ [.of draftRecord none connectError 0,
      .of firstRetry none outageError (seconds 1000), .of parkedRetry none connectError (seconds 10000)] t ∧
    t.failures = [.ordinary, .modelOutage, .ordinary] ∧ t.record.ticket.state = .draft ∧
    Run.Always (FailureStep {} "t-1") (OwnBudget {}) ⟨draftRecord, []⟩ [.of draftRecord none connectError 0,
      .of firstRetry none outageError (seconds 1000), .of parkedRetry none connectError (seconds 10000)] := by
  have hfirst : FailureStep {} "t-1" ⟨draftRecord, []⟩ (.of draftRecord none connectError 0)
      ⟨firstRetry, [.ordinary]⟩ :=
    ⟨⟨rfl, rfl⟩, ⟨rfl, rfl⟩, .ordinary, rfl, rfl⟩
  have hsecond : FailureStep {} "t-1" ⟨firstRetry, [.ordinary]⟩ (.of firstRetry none outageError (seconds 1000))
      ⟨parkedRetry, [.ordinary, .modelOutage]⟩ :=
    ⟨⟨rfl, rfl⟩, ⟨rfl, rfl⟩, .modelOutage, rfl, rfl⟩
  have hthird : FailureStep {} "t-1" ⟨parkedRetry, [.ordinary, .modelOutage]⟩
      (.of parkedRetry none connectError (seconds 10000))
      ⟨afterError parkedRetry connectError (seconds 10000), [.ordinary, .modelOutage, .ordinary]⟩ :=
    ⟨⟨rfl, rfl⟩, ⟨rfl, rfl⟩, .ordinary, rfl, rfl⟩
  have hrun := Run.cons hfirst (.cons hsecond (.single hthird))
  refine ⟨_, hrun, rfl, by decide +kernel, (retry_budgets rfl hrun).2 ?_⟩
  -- the counter is below both bounds all the time
  refine .cons ⟨⟨fun _ _ hle => ?_, nofun⟩, hfirst⟩
    (.cons ⟨⟨nofun, fun _ hle => ?_⟩, hsecond⟩ (.single ⟨⟨fun _ _ hle => ?_, nofun⟩, hthird⟩))
  · exact absurd hle (by decide +kernel)
  · exact absurd hle (by decide +kernel)
  · exact absurd hle (by decide +kernel)

/-- Dispatch the ticket as it is, time after time. -/
def dispatchAll (s : Settings) (tid : TicketId) :
    TicketRecord → List (Option String × StageError × DateTime) → Option TicketRecord
  | r, [] => some r
  | r, (gatePath, err, time) :: rest =>
    (dispatch s tid (.of r gatePath err time)).bind fun res => dispatchAll s tid res.1 rest

/-- A ticket the disk gate parked once is blocked on its fifth ordinary error, not on its sixth. -/
theorem parked_ticket_loses_a_retry :
    let ordinary := fun i : Nat => ((none : Option String), connectError, seconds (1000 * i))
    (dispatchAll {} "t-1" draftRecord
      [(some "/data", connectError, 0), ordinary 1, ordinary 2, ordinary 3, ordinary 4, ordinary 5]).map
        (fun r => r.ticket.state) = some .blocked ∧
    (dispatchAll {} "t-1" draftRecord
      [ordinary 1, ordinary 2, ordinary 3, ordinary 4, ordinary 5]).map
        (fun r => r.ticket.state) = some .draft := by
  decide +kernel

end Runtime
end RobotsixMill
