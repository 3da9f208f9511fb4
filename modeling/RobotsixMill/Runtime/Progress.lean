import RobotsixMill.Runtime.StageRetry
import RobotsixMill.Service.Dependencies
import Mathlib.Data.Rat.Floor
import Mathlib.Algebra.Order.Field.Rat

/-!
# `Runtime.Progress` — the no-progress safety net and the spend breakers

After every stage run the worker calls `_check_progress`, which blocks a ticket that costs too much or
does not advance. It holds four breakers, each with a baseline of its own:

- `dollarCap` — the session cost, less what was spent before the last redraft;
- `traceCount` — the traces of the session, less those counted at the first check after a resume;
- `openRouter` — the cost of the session's OpenRouter traces;
- `stuck` — the checks in a row that found the ticket in the state it was in before.

`resume_rebaselines_breakers` says which of them start afresh when the ticket is resumed.
-/

namespace RobotsixMill
namespace Runtime
open RobotsixMill.Core Lib Service

/-! ## What Langfuse answers -/

/-- One row of `session_traces`. -/
structure Trace where
  cost : ℚ
  model : String
deriving DecidableEq, Repr

/-- The answers for one ticket: `session_cost`, and `session_traces` (`none` when unreachable). Amounts are floats; their
    difference and their sum are what the interpreter rounds these to. -/
structure Spend where
  cost : ℚ
  traces : Option (List Trace)
  floatSub : ℚ → ℚ → ℚ
  floatSum : List ℚ → ℚ

/-- `effective_cost`. -/
def effectiveCost (sp : Spend) (baseline : ℚ) : ℚ := max 0 (sp.floatSub sp.cost baseline)

/-- The costs of the traces whose model names OpenRouter. -/
def openrouterCosts (traces : List Trace) : List ℚ :=
  (traces.filter fun t => contains (lower t.model) "openrouter").map Trace.cost

/-- Their sum. -/
def openrouterCost (sp : Spend) (traces : List Trace) : ℚ := sp.floatSum (openrouterCosts traces)

/-- The format `:.2f`, ties to even. -/
def fixed2 (q : ℚ) : String :=
  let scaled := |q| * 100
  let whole := scaled.floor.toNat
  let frac := scaled - whole
  let cents := if 1 / 2 < frac ∨ (frac = 1 / 2 ∧ whole % 2 = 1) then whole + 1 else whole
  let digits := if cents % 100 < 10 then s!"0{cents % 100}" else s!"{cents % 100}"
  (if q < 0 then "-" else "") ++ s!"{cents / 100}.{digits}"

/-! ## The breakers -/

inductive Breaker
  | dollarCap | traceCount | openRouter | stuck
deriving DecidableEq, Repr

/-- Stages that wait instead of calling a model (`traced = False`). -/
def UNTRACED_STAGES : List String := ["ci_fix", "merge", "deliver"]

/-- Tickets in explicit backoff are exempt. -/
def retrying (ticket : Option Ticket) : Bool := ticket.any fun t => decide (0 < t.retryAttempt)

/-- The spend the dollar cap is compared with. -/
def spentSinceRedraft (sp : Spend) (ticket : Option Ticket) : ℚ :=
  effectiveCost sp ((ticket.map Ticket.preRedraftCostUsd).getD 0)

def overDollarCap (s : Settings) (sp : Spend) (ticket : Option Ticket) : Bool :=
  decide (0 < s.maxSpendUsdPerTicket) && decide (s.maxSpendUsdPerTicket < spentSinceRedraft sp ticket)

/-- The traces, when the circuit breaker is on and Langfuse answers. -/
def watchedTraces (s : Settings) (sp : Spend) : Option (List Trace) :=
  if 0 < s.maxTracesPerTicket ∨ 0 < s.maxOpenrouterMarginalUsdPerTicket then sp.traces else none

/-- `trace_baseline`; `-1` asks for the baseline to be set. -/
def traceBaseline (ticket : Option Ticket) : Int := (ticket.map Ticket.preRedraftTraceCount).getD 0

/-- `effective_n`. -/
def effectiveTraces (baseline : Int) (n : Nat) : Int := if 0 < baseline then max 0 (n - baseline) else n

def overTraceCap (s : Settings) (baseline : Int) (traces : List Trace) : Bool :=
  decide (0 < s.maxTracesPerTicket) &&
    decide ((s.maxTracesPerTicket : Int) < effectiveTraces baseline traces.length)

def overOpenRouterCap (s : Settings) (sp : Spend) (traces : List Trace) : Bool :=
  decide (0 < s.maxOpenrouterMarginalUsdPerTicket) &&
    decide (s.maxOpenrouterMarginalUsdPerTicket < openrouterCost sp traces)

/-- The halves of the circuit breaker that trip. -/
def trippedCircuits (s : Settings) (sp : Spend) (baseline : Int) (traces : List Trace) : List Breaker :=
  (if overTraceCap s baseline traces then [.traceCount] else []) ++
    if overOpenRouterCap s sp traces then [.openRouter] else []

/-! ## The notes -/

def dollarCapNote (s : Settings) (effective : ℚ) : String :=
  s!"Cost cap exceeded: ${fixed2 effective} spent " ++
    s!"(limit ${fixed2 s.maxSpendUsdPerTicket}; " ++
    "pre-redraft cost excluded). " ++
    "Escalated to BLOCKED to stop further LLM billing. " ++
    "Use resume-blocked to override and continue."

def circuitNote (s : Settings) (sp : Spend) (baseline : Int) (traces : List Trace) : String :=
  s!"Circuit breaker tripped: {effectiveTraces baseline traces.length} effective traces " ++
    s!"({traces.length} total, " ++
    s!"baseline {baseline}; " ++
    s!"limit {s.maxTracesPerTicket}), " ++
    s!"OpenRouter spend ${fixed2 (openrouterCost sp traces)} " ++
    s!"(limit ${fixed2 s.maxOpenrouterMarginalUsdPerTicket}). " ++
    "Escalated to BLOCKED to stop further LLM billing. " ++
    "Use resume-blocked to override and continue."

def stuckNote (n : Nat) (stage : String) (after : State) : String :=
  s!"no progress after {n} {stage} cycles in {after.value} — " ++
    "likely interrupted mid-run or non-terminating; escalated " ++
    "to BLOCKED to stop wasted LLM runs. Use resume-blocked " ++
    "to re-run this stage, or move to READY/DRAFT to retry " ++
    "the full chain."

/-! ## `_check_progress` -/

/-- What the safety net reads and writes: the mill, and `_stuck` of the worker. -/
structure SafetyNet where
  mill : Mill
  stuck : TicketId → Option Nat

/-- `_stuck.pop(tid, None)`. -/
def SafetyNet.pop (w : SafetyNet) (tid : TicketId) : SafetyNet :=
  { w with stuck := Function.update w.stuck tid none }

def SafetyNet.setStuck (w : SafetyNet) (tid : TicketId) (n : Nat) : SafetyNet :=
  { w with stuck := Function.update w.stuck tid (some n) }

/-- The net after a check, and the breakers the ticket was blocked on, or what was raised. -/
abbrev Checked := SafetyNet × Except ServiceError (List Breaker)

section Check

variable (env : Env) (svc : BoardId) (tid : TicketId)

/-- `set_pre_redraft_trace_count`. -/
def setPreRedraftTraceCount (value : Int) (σ : Mill) : Result Unit :=
  match fetch env svc σ tid with
  | .error e => (σ, .error e)
  | .ok (k, r) =>
    let r' := { r with ticket := { r.ticket with
      preRedraftTraceCount := value, updatedAt := σ.now env 0 } }
    ((σ.putRecord k r').tick, .ok ())

/-- Block the ticket on `breakers`. A refused transition raises before the count is dropped. -/
def escalate (breakers : List Breaker) (note : String) (w : SafetyNet) : Checked :=
  match transition env svc tid .blocked (some (truncate 200 note)) none w.mill with
  | (σ, .error e) => ({ w with mill := σ }, .error e)
  | (σ, .ok ()) => (({ w with mill := σ } : SafetyNet).pop tid, .ok breakers)

/-- The tail of `_check_progress`: count the checks that found the ticket where it was. -/
def checkStuck (before : State) (after : Option State) (w : SafetyNet) : Checked :=
  match after with
  | none => (w.pop tid, .ok [])
  | some st =>
    if st ≠ before then (w.pop tid, .ok [])
    else
      match STAGE_FOR_STATE st with
      | none => (w, .ok [])
      | some stage =>
        if stage ∈ UNTRACED_STAGES then (w, .ok [])
        else if (ticketOf env svc tid w.mill).any fun t =>
            !(unmetDependencies env svc w.mill tid t).isEmpty then
          (w.pop tid, .ok [])
        else
          let n := (w.stuck tid).getD 0 + 1
          let w' := w.setStuck tid n
          if n < env.settings.maxStuckCycles then (w', .ok [])
          else escalate env svc tid [.stuck] (stuckNote n stage st) w'

/-- `_check_progress`: `before` and `after` are the states around the stage run. -/
def checkProgress (sp : Spend) (before : State) (after : Option State) (w : SafetyNet) : Checked :=
  let s := env.settings
  let ticket := ticketOf env svc tid w.mill
  if retrying ticket then (w.pop tid, .ok [])
  else if overDollarCap s sp ticket then
    escalate env svc tid [.dollarCap] (dollarCapNote s (spentSinceRedraft sp ticket)) w
  else
    match watchedTraces s sp with
    | none => checkStuck env svc tid before after w
    | some traces =>
      let baseline := traceBaseline ticket
      if baseline = -1 then
        -- the first check after a resume only sets the baseline
        match setPreRedraftTraceCount env svc tid traces.length w.mill with
        | (σ, .error e) => ({ w with mill := σ }, .error e)
        | (σ, .ok ()) => checkStuck env svc tid before after { w with mill := σ }
      else
        match trippedCircuits s sp baseline traces with
        | [] => checkStuck env svc tid before after w
        | b :: bs => escalate env svc tid (b :: bs) (circuitNote s sp baseline traces) w

end Check

/-- The checks of `tid` counted so far. -/
def SafetyNet.count (w : SafetyNet) (tid : TicketId) : Nat := (w.stuck tid).getD 0

@[simp] theorem SafetyNet.mill_pop (w : SafetyNet) (tid : TicketId) : (w.pop tid).mill = w.mill := rfl
@[simp] theorem SafetyNet.count_pop (w : SafetyNet) (tid : TicketId) : (w.pop tid).count tid = 0 := by
  simp [count, pop]
@[simp] theorem SafetyNet.mill_setStuck (w : SafetyNet) (tid : TicketId) (n : Nat) :
    (w.setStuck tid n).mill = w.mill := rfl
@[simp] theorem SafetyNet.count_setStuck (w : SafetyNet) (tid : TicketId) (n : Nat) :
    (w.setStuck tid n).count tid = n := by
  simp [count, setStuck]

/-- The breakers a check blocked the ticket on. -/
def blockedOn (res : Checked) : List Breaker :=
  match res.2 with
  | .ok bs => bs
  | .error _ => []

/-! ## What one check does -/

section Spec

variable {env : Env} {svc : BoardId} {tid : TicketId}

/-- The way into `blocked` depends on the state alone. -/
theorem transitionRefusal_blocked_congr {r r' : TicketRecord} (h : r'.ticket.state = r.ticket.state)
    (hne : r.ticket.state ≠ .blocked) :
    transitionRefusal tid .blocked r' = none ↔ transitionRefusal tid .blocked r = none := by
  have hedge : ∀ s : State, s ≠ .blocked → ∀ bf pf, canTransition s .blocked bf pf =
      decide (State.blocked ∈ TRANSITIONS s) := by
    intro s hs bf pf
    cases s <;> simp_all [canTransition, TRANSITIONS]
  unfold transitionRefusal
  simp [h, hedge _ hne, TERMINAL_STATES]

/-- Blocking a ticket either raises and changes nothing, or commits one record. -/
theorem transition_blocked_cases (note reason : Option String) (σ : Mill) :
    (∃ e, transition env svc tid .blocked note reason σ = (σ, .error e)) ∨
    ∃ k r, fetch env svc σ tid = .ok (k, r) ∧ transitionRefusal tid .blocked r = none ∧
      transition env svc tid .blocked note reason σ =
        (commitTransition env k r .blocked note reason σ, .ok ()) := by
  have hnoop : ∀ t : Ticket, transitionNoop t .blocked = false := by
    intro t
    simp [transitionNoop, TERMINAL_EPIC_STATES]
  cases hf : fetch env svc σ tid with
  | error e => exact .inl ⟨e, by simp [transition, transitionSession, hf]⟩
  | ok kr =>
      obtain ⟨k, r⟩ := kr
      cases hr : transitionRefusal tid .blocked r with
      | some e => exact .inl ⟨e, by simp [transition, transitionSession, hf, hnoop, hr]⟩
      | none =>
          exact .inr ⟨k, r, rfl, hr, transition_eq_commit hf (hnoop _) hr (by decide) (by decide)⟩

/-- The ticket row `t` was blocked, its count dropped. -/
structure BlockedRow (env : Env) (svc : BoardId) (tid : TicketId) (t : Ticket) (w : SafetyNet) : Prop where
  row : ∃ t', ticketOf env svc tid w.mill = some t' ∧ t'.blockedFrom = some t.state ∧
    t'.preRedraftCostUsd = t.preRedraftCostUsd
  uncounted : w.stuck tid = none

/-- Escalating either raises and changes nothing, or blocks the row found. -/
theorem escalate_cases (bs : List Breaker) (note : String) (w : SafetyNet) :
    (∃ e, escalate env svc tid bs note w = (w, .error e)) ∨
    ∃ k r, fetch env svc w.mill tid = .ok (k, r) ∧ transitionRefusal tid .blocked r = none ∧
      ∃ w', escalate env svc tid bs note w = (w', .ok bs) ∧ BlockedRow env svc tid r.ticket w' := by
  unfold escalate
  rcases @transition_blocked_cases env svc tid (some (truncate 200 note)) none w.mill with
    ⟨e, he⟩ | ⟨k, r, hf, hr, hok⟩
  · exact .inl ⟨e, by rw [he]⟩
  · refine .inr ⟨k, r, hf, hr, _, by rw [hok], ?_⟩
    have hrow := ticketOf_of_fetch
      (@fetch_commitTransition env svc tid .blocked (some (truncate 200 note)) none w.mill k r hf)
    refine { row := ⟨_, hrow, ?_, rfl⟩, uncounted := by simp [SafetyNet.pop] }
    simp [transitionRecord, transitionTicket]

/-- Did the stage run leave the ticket where it was? -/
def sameState (before : State) (after : Option State) : Bool := decide (after = some before)

/-- The condition a breaker trips on, for the row `t` and the checks counted so far. -/
def Trips (s : Settings) (sp : Spend) (before : State) (after : Option State) (t : Ticket)
    (count : Nat) : Breaker → Prop
  | .dollarCap => overDollarCap s sp (some t) = true
  | .traceCount => t.preRedraftTraceCount ≠ -1 ∧ ∃ traces, sp.traces = some traces ∧
      overTraceCap s t.preRedraftTraceCount traces = true
  | .openRouter => t.preRedraftTraceCount ≠ -1 ∧ ∃ traces, sp.traces = some traces ∧
      overOpenRouterCap s sp traces = true
  | .stuck => sameState before after = true ∧ s.maxStuckCycles ≤ count + 1

/-- A check may set the trace baseline of its ticket, on traces Langfuse answered. -/
def Rebased (env : Env) (svc : BoardId) (tid : TicketId) (sp : Spend) (σ σ' : Mill) : Prop :=
  σ' = σ ∨ ∃ traces, sp.traces = some traces ∧
    setPreRedraftTraceCount env svc tid traces.length σ = (σ', .ok ())

/-- What a check can do. -/
inductive CheckSpec (env : Env) (svc : BoardId) (tid : TicketId) (sp : Spend) (before : State)
    (after : Option State) (w : SafetyNet) : Checked → Prop
  /-- The ticket stays where it is. -/
  | quiet {res : Checked} : blockedOn res = [] → Rebased env svc tid sp w.mill res.1.mill →
      res.1.count tid ≤ w.count tid + (sameState before after).toNat →
      CheckSpec env svc tid sp before after w res
  /-- The ticket is blocked. -/
  | trip {w' : SafetyNet} {bs : List Breaker} {k : Key} {r : TicketRecord} : bs ≠ [] →
      fetch env svc w.mill tid = .ok (k, r) → transitionRefusal tid .blocked r = none →
      (∀ b ∈ bs, Trips env.settings sp before after r.ticket (w.count tid) b) →
      BlockedRow env svc tid r.ticket w' → CheckSpec env svc tid sp before after w (w', .ok bs)

/-- Setting the baseline changes one column of the row, and its time stamp. -/
theorem setPreRedraftTraceCount_cases (value : Int) (σ : Mill) :
    (∃ e, fetch env svc σ tid = .error e ∧ setPreRedraftTraceCount env svc tid value σ = (σ, .error e)) ∨
    ∃ k r, fetch env svc σ tid = .ok (k, r) ∧ ∃ σ',
      setPreRedraftTraceCount env svc tid value σ = (σ', .ok ()) ∧
      fetch env svc σ' tid = .ok (k, { r with ticket := { r.ticket with
        preRedraftTraceCount := value, updatedAt := σ.now env 0 } }) := by
  unfold setPreRedraftTraceCount
  cases hf : fetch env svc σ tid with
  | error e => exact .inl ⟨e, rfl, rfl⟩
  | ok kr =>
      obtain ⟨k, r⟩ := kr
      refine .inr ⟨k, r, rfl, _, rfl, ?_⟩
      rw [fetch_congr (records_tick _)]
      exact fetch_putRecord hf

/-- Setting the baseline keeps what blocking and the other breakers read. -/
theorem Rebased.of_fetch {σ σ' : Mill} {k : Key} {r' : TicketRecord} (h : Rebased env svc tid sp σ σ')
    (hf : fetch env svc σ' tid = .ok (k, r')) :
    ∃ r, fetch env svc σ tid = .ok (k, r) ∧ r'.ticket.state = r.ticket.state ∧
      r'.ticket.preRedraftCostUsd = r.ticket.preRedraftCostUsd ∧
      transitionRefusal tid .blocked r = transitionRefusal tid .blocked r' := by
  obtain rfl | ⟨traces, -, hset⟩ := h
  · exact ⟨r', hf, rfl, rfl, rfl⟩
  · rcases @setPreRedraftTraceCount_cases env svc tid traces.length σ with
      ⟨e, -, he⟩ | ⟨k₀, r, hr, σ₁, hok, hf₁⟩
    · rw [he] at hset
      cases hset
    · rw [hok] at hset
      cases hset
      rw [hf₁] at hf
      cases hf
      exact ⟨r, hr, rfl, rfl, rfl⟩

variable {sp : Spend} {before : State} {after : Option State} {w w₀ : SafetyNet}

/-- An escalation on breakers that trip blocks the ticket or changes nothing. -/
theorem checkSpec_escalate {bs : List Breaker} {note : String} (hbs : bs ≠ [])
    (h : ∀ t, ticketOf env svc tid w.mill = some t →
      ∀ b ∈ bs, Trips env.settings sp before after t (w.count tid) b) :
    CheckSpec env svc tid sp before after w (escalate env svc tid bs note w) := by
  rcases @escalate_cases env svc tid bs note w with ⟨e, he⟩ | ⟨k, r, hf, hr, w', hok, hrow⟩
  · rw [he]
    exact .quiet rfl (.inl rfl) (Nat.le_add_right ..)
  · rw [hok]
    exact .trip hbs hf hr (h _ (ticketOf_of_fetch hf)) hrow

/-- The tail of a check, run after the baseline may have been set. -/
theorem checkSpec_checkStuck (hmill : Rebased env svc tid sp w₀.mill w.mill)
    (hstuck : w.stuck = w₀.stuck) :
    CheckSpec env svc tid sp before after w₀ (checkStuck env svc tid before after w) := by
  have hcount : w.count tid = w₀.count tid := by simp [SafetyNet.count, hstuck]
  have hpop : CheckSpec env svc tid sp before after w₀ (w.pop tid, .ok []) :=
    .quiet rfl hmill (by simp)
  have hidle : CheckSpec env svc tid sp before after w₀ (w, .ok []) :=
    .quiet rfl hmill (by simp [hcount])
  unfold checkStuck
  cases after with
  | none => exact hpop
  | some st =>
      dsimp only
      by_cases hst : st = before
      · subst hst
        have hsame : sameState st (some st) = true := by simp [sameState]
        rw [if_neg (by simp)]
        cases STAGE_FOR_STATE st with
        | none => exact hidle
        | some stage =>
            dsimp only
            split
            · exact hidle
            · split
              · exact hpop
              · have hcounted : ∀ res : Except ServiceError (List Breaker),
                    blockedOn (w.setStuck tid (w.count tid + 1), res) = [] →
                    CheckSpec env svc tid sp st (some st) w₀
                      (w.setStuck tid (w.count tid + 1), res) :=
                  fun res hres => .quiet hres hmill (by simp [hsame, hcount])
                split
                · exact hcounted _ rfl
                · rename_i hmax
                  -- a refused transition raises with the count already stored
                  rcases @escalate_cases env svc tid [.stuck] (stuckNote (w.count tid + 1) stage st)
                    (w.setStuck tid (w.count tid + 1)) with
                    ⟨e, he⟩ | ⟨k, r', hf, hr, w', hok, ⟨t', hrow, hfrom, hcost⟩, hun⟩
                  · exact he ▸ hcounted _ rfl
                  · obtain ⟨r, hf₀, hst', hcost₀, href⟩ := hmill.of_fetch hf
                    refine hok ▸ .trip (by simp) hf₀ (href.trans hr) ?_
                      ⟨⟨t', hrow, hst' ▸ hfrom, hcost.trans hcost₀⟩, hun⟩
                    intro b hb
                    rw [List.mem_singleton.1 hb, ← hcount]
                    exact ⟨hsame, Nat.le_of_not_lt hmax⟩
      · rw [if_pos hst]
        exact hpop

theorem watchedTraces_eq_some {s : Settings} {traces : List Trace}
    (h : watchedTraces s sp = some traces) : sp.traces = some traces := by
  unfold watchedTraces at h
  split at h
  · exact h
  · cases h

/-- The halves listed are those over their cap. -/
theorem mem_trippedCircuits {s : Settings} {sp : Spend} {baseline : Int} {traces : List Trace} {b : Breaker} :
    b ∈ trippedCircuits s sp baseline traces ↔
      (b = .traceCount ∧ overTraceCap s baseline traces = true) ∨
      (b = .openRouter ∧ overOpenRouterCap s sp traces = true) := by
  unfold trippedCircuits
  cases overTraceCap s baseline traces <;> cases overOpenRouterCap s sp traces <;> simp

/-- **Every check meets the specification.** -/
theorem checkSpec_checkProgress :
    CheckSpec env svc tid sp before after w (checkProgress env svc tid sp before after w) := by
  have htail : CheckSpec env svc tid sp before after w (checkStuck env svc tid before after w) :=
    checkSpec_checkStuck (.inl rfl) rfl
  unfold checkProgress
  dsimp only
  split
  · exact .quiet rfl (.inl rfl) (by simp)
  · split
    · rename_i hover
      refine checkSpec_escalate (by simp) ?_
      intro t ht b hb
      rw [List.mem_singleton.1 hb]
      rw [ht] at hover
      exact hover
    · cases hw : watchedTraces env.settings sp with
      | none => exact htail
      | some traces =>
          have htr := watchedTraces_eq_some hw
          dsimp only
          split
          · rcases @setPreRedraftTraceCount_cases env svc tid traces.length w.mill with
              ⟨e, -, he⟩ | ⟨k, r, -, σ', hok, -⟩
            · rw [he]
              exact .quiet rfl (.inl rfl) (Nat.le_add_right ..)
            · rw [hok]
              exact checkSpec_checkStuck (.inr ⟨traces, htr, hok⟩) rfl
          · rename_i hbase
            cases hc : trippedCircuits env.settings sp (traceBaseline (ticketOf env svc tid w.mill)) traces with
            | nil => exact htail
            | cons b bs =>
                refine checkSpec_escalate (by simp) ?_
                intro t ht b' hb'
                rw [← hc, ht] at hb'
                rw [ht] at hbase
                rcases mem_trippedCircuits.1 hb' with ⟨rfl, hov⟩ | ⟨rfl, hov⟩
                · exact ⟨hbase, traces, htr, hov⟩
                · exact ⟨hbase, traces, htr, hov⟩

/-! ## Which breaker speaks first -/

theorem retrying_eq_false (h : blockedOn (checkProgress env svc tid sp before after w) ≠ []) :
    retrying (ticketOf env svc tid w.mill) = false := by
  by_contra hr
  rw [Bool.not_eq_false] at hr
  apply h
  rw [checkProgress]
  dsimp only
  rw [if_pos hr]
  rfl

/-- The dollar cap is asked first. -/
theorem checkProgress_of_overDollarCap (hr : retrying (ticketOf env svc tid w.mill) = false)
    (h : overDollarCap env.settings sp (ticketOf env svc tid w.mill) = true) :
    ∃ note, checkProgress env svc tid sp before after w =
      escalate env svc tid [.dollarCap] note w :=
  ⟨_, by rw [checkProgress]; dsimp only; rw [hr, h]; rfl⟩

/-- The OpenRouter cap is asked next, once the trace baseline is set. -/
theorem checkProgress_of_overOpenRouterCap {traces : List Trace}
    (hr : retrying (ticketOf env svc tid w.mill) = false)
    (hd : overDollarCap env.settings sp (ticketOf env svc tid w.mill) = false)
    (hbase : traceBaseline (ticketOf env svc tid w.mill) ≠ -1) (htr : sp.traces = some traces)
    (h : overOpenRouterCap env.settings sp traces = true) :
    ∃ bs note, Breaker.openRouter ∈ bs ∧
      checkProgress env svc tid sp before after w = escalate env svc tid bs note w := by
  have hmem : Breaker.openRouter ∈
      trippedCircuits env.settings sp (traceBaseline (ticketOf env svc tid w.mill)) traces :=
    mem_trippedCircuits.2 (.inr ⟨rfl, h⟩)
  have hwatch : watchedTraces env.settings sp = some traces := by
    simp only [overOpenRouterCap, Bool.and_eq_true, decide_eq_true_eq] at h
    rw [watchedTraces, if_pos (.inr h.1), htr]
  unfold checkProgress
  dsimp only
  rw [hr, hd, if_neg (by simp), if_neg (by simp), hwatch]
  dsimp only
  rw [if_neg hbase]
  cases hc : trippedCircuits env.settings sp (traceBaseline (ticketOf env svc tid w.mill)) traces with
  | nil => rw [hc] at hmem; cases hmem
  | cons b bs => exact ⟨b :: bs, _, hc ▸ hmem, rfl⟩

end Spec

/-! ## Checks after a resume -/

/-- Between two checks the ticket keeps its state and the baselines; anything else may change. -/
def Undisturbed (env : Env) (svc : BoardId) (tid : TicketId) (σ σ' : Mill) : Prop :=
  ∀ t, ticketOf env svc tid σ = some t → ∃ t', ticketOf env svc tid σ' = some t' ∧
    t'.state = t.state ∧ t'.blockedFrom = t.blockedFrom ∧
    t'.preRedraftCostUsd = t.preRedraftCostUsd ∧ t'.preRedraftTraceCount = t.preRedraftTraceCount

/-- The spend only grows, in the same arithmetic. -/
structure Spend.Grows (sp sp' : Spend) : Prop where
  cost : sp.cost ≤ sp'.cost
  traces : ∀ l ∈ sp.traces, ∀ l' ∈ sp'.traces, l.length ≤ l'.length
  floatSub : sp'.floatSub = sp.floatSub
  floatSum : sp'.floatSum = sp.floatSum

/-- One call of `_check_progress`, with the mill as it finds it. -/
structure Poll where
  found : Mill
  spend : Spend
  before : State
  after : Option State

section Resume

variable (env : Env) (svc : BoardId) (tid : TicketId)

def Poll.run (p : Poll) (w : SafetyNet) : Checked :=
  checkProgress env svc tid p.spend p.before p.after { w with mill := p.found }

/-- The checks that found the ticket where it was. -/
def cycles (ps : List Poll) : Nat := ps.countP fun p => sameState p.before p.after

/-- The poll comes after `w`, on an undisturbed ticket and a spend that includes `sp`. -/
def Poll.Follows (sp : Spend) (w : SafetyNet) (p : Poll) : Prop :=
  Undisturbed env svc tid w.mill p.found ∧ sp.Grows p.spend

/-- A poll that does not block the ticket. -/
def QuietPoll (sp : Spend) (w : SafetyNet) (p : Poll) (w' : SafetyNet) : Prop :=
  p.Follows env svc tid sp w ∧ blockedOn (p.run env svc tid w) = [] ∧ (p.run env svc tid w).1 = w'

/-- What must have accrued since the spend was `sp` for a breaker to trip again. -/
def Accrued (s : Settings) (sp sp' : Spend) (sameStateCycles : Nat) : Breaker → Prop
  | .dollarCap => s.maxSpendUsdPerTicket < sp'.cost - sp.cost
  | .traceCount => ∀ l ∈ sp.traces, ∀ l' ∈ sp'.traces, s.maxTracesPerTicket < l'.length - l.length
  | .openRouter => ∀ l ∈ sp.traces, ∀ l' ∈ sp'.traces,
      s.maxOpenrouterMarginalUsdPerTicket < (openrouterCosts l').sum - (openrouterCosts l).sum
  | .stuck => s.maxStuckCycles ≤ sameStateCycles ∧ 0 < sameStateCycles

/-- Whatever the next polls are, the first that blocks the ticket on `b` has seen `b` accrue anew. -/
def Rebaselined (sp : Spend) (w : SafetyNet) (b : Breaker) : Prop :=
  ∀ ps w₁ p, Run (QuietPoll env svc tid sp) w ps w₁ → p.Follows env svc tid sp w₁ →
    b ∈ blockedOn (p.run env svc tid w₁) →
    Accrued env.settings sp p.spend (cycles (ps ++ [p])) b

end Resume

section Rebaseline

variable {env : Env} {svc : BoardId} {tid : TicketId} {sp : Spend} {w w' : SafetyNet}

/-- A quiet poll counts at most itself. -/
theorem count_of_quietPoll {p : Poll} (h : QuietPoll env svc tid sp w p w') :
    w'.count tid ≤ w.count tid + (sameState p.before p.after).toNat := by
  obtain ⟨-, hquiet, rfl⟩ := h
  have hspec := @checkSpec_checkProgress env svc tid p.spend p.before p.after { w with mill := p.found }
  change CheckSpec _ _ _ _ _ _ _ (p.run env svc tid w) at hspec
  generalize p.run env svc tid w = res at hspec hquiet ⊢
  cases hspec with
  | quiet _ _ hcount => exact hcount
  | trip _ _ _ _ hrow => simp [SafetyNet.count, hrow.uncounted]

/-- The count never exceeds the same-state polls since it was dropped. -/
theorem count_of_run {ps : List Poll} (h : Run (QuietPoll env svc tid sp) w ps w') :
    w'.count tid ≤ w.count tid + cycles ps := by
  induction h with
  | nil w => exact Nat.le_add_right ..
  | @cons w w₁ w₂ p ps hstep _ ih =>
      have h1 := count_of_quietPoll hstep
      have hcons : cycles (p :: ps) = cycles ps + (sameState p.before p.after).toNat := by
        unfold cycles
        rw [List.countP_cons]
        cases sameState p.before p.after <;> rfl
      omega

/-- The trace baseline is still to be set, or counts at least `n` traces. -/
def Armed (env : Env) (svc : BoardId) (tid : TicketId) (n : Nat) (σ : Mill) : Prop :=
  ∃ t, ticketOf env svc tid σ = some t ∧
    (t.preRedraftTraceCount = -1 ∨ (n : Int) ≤ t.preRedraftTraceCount)

theorem Armed.undisturbed {n : Nat} {σ σ' : Mill} (h : Armed env svc tid n σ)
    (hu : Undisturbed env svc tid σ σ') : Armed env svc tid n σ' := by
  obtain ⟨t, ht, hbase⟩ := h
  obtain ⟨t', ht', -, -, -, hcount⟩ := hu t ht
  exact ⟨t', ht', hcount ▸ hbase⟩

theorem Armed.rebased {n : Nat} {sp' : Spend} {σ σ' : Mill} (h : Armed env svc tid n σ)
    (hn : ∀ l ∈ sp'.traces, n ≤ l.length) (hr : Rebased env svc tid sp' σ σ') :
    Armed env svc tid n σ' := by
  obtain rfl | ⟨traces, htr, hset⟩ := hr
  · exact h
  · rcases @setPreRedraftTraceCount_cases env svc tid traces.length σ with
      ⟨e, -, he⟩ | ⟨k, r, -, σ₁, hok, hf⟩
    · rw [he] at hset
      cases hset
    · rw [hok] at hset
      cases hset
      exact ⟨_, ticketOf_of_fetch hf, .inr (Int.ofNat_le.2 (hn traces htr))⟩

/-- A quiet poll leaves the baseline armed. -/
theorem armed_of_quietPoll {l : List Trace} (hl : sp.traces = some l) {p : Poll}
    (h : Armed env svc tid l.length w.mill) (hp : QuietPoll env svc tid sp w p w') :
    Armed env svc tid l.length w'.mill := by
  obtain ⟨⟨hu, hgrow⟩, hquiet, rfl⟩ := hp
  have hfound := h.undisturbed hu
  have hspec := @checkSpec_checkProgress env svc tid p.spend p.before p.after { w with mill := p.found }
  change CheckSpec _ _ _ _ _ _ _ (p.run env svc tid w) at hspec
  generalize p.run env svc tid w = res at hspec hquiet ⊢
  cases hspec with
  | quiet _ hreb _ => exact hfound.rebased (hgrow.traces l hl) hreb
  | trip hbs _ _ _ _ => exact absurd hquiet hbs

/-- A breaker the ticket is blocked on trips on the row found. -/
theorem trips_of_blockedOn {before : State} {after : Option State} {b : Breaker}
    (h : b ∈ blockedOn (checkProgress env svc tid sp before after w)) :
    ∃ t, ticketOf env svc tid w.mill = some t ∧
      Trips env.settings sp before after t (w.count tid) b := by
  have hspec := @checkSpec_checkProgress env svc tid sp before after w
  generalize checkProgress env svc tid sp before after w = res at hspec h
  cases hspec with
  | quiet hquiet _ _ => rw [hquiet] at h; cases h
  | trip _ hf _ htrips _ => exact ⟨_, ticketOf_of_fetch hf, htrips b h⟩

theorem count_with_mill (w : SafetyNet) (σ : Mill) :
    SafetyNet.count { w with mill := σ } tid = w.count tid := rfl

/-- **The stuck breaker starts afresh** once its count was dropped. -/
theorem rebaselined_stuck (h : w.stuck tid = none) : Rebaselined env svc tid sp w .stuck := by
  intro ps w₁ p hrun hp hb
  obtain ⟨t, -, hsame, hmax⟩ := trips_of_blockedOn hb
  have hcount := count_of_run hrun
  have hzero : w.count tid = 0 := by simp [SafetyNet.count, h]
  have hcycles : cycles (ps ++ [p]) = cycles ps + 1 := by simp [cycles, hsame]
  rw [count_with_mill] at hmax
  refine ⟨?_, ?_⟩
  · omega
  · omega

/-- A trace cap exceeded over an armed baseline is exceeded by new traces alone. -/
theorem lt_of_overTraceCap {s : Settings} {n : Nat} {baseline : Int} {traces : List Trace}
    (hn : (n : Int) ≤ baseline) (h : overTraceCap s baseline traces = true) :
    s.maxTracesPerTicket < traces.length - n := by
  simp only [overTraceCap, Bool.and_eq_true, decide_eq_true_eq] at h
  have hlt := h.2
  unfold effectiveTraces at hlt
  split at hlt
  · omega
  · omega

/-- **The trace-count breaker starts afresh** once the baseline is armed. -/
theorem rebaselined_traceCount {l : List Trace} (hl : sp.traces = some l)
    (h : Armed env svc tid l.length w.mill) : Rebaselined env svc tid sp w .traceCount := by
  intro ps w₁ p hrun hp hb
  obtain ⟨t, ht, hne, traces, htr, hover⟩ := trips_of_blockedOn hb
  have hw₁ : Armed env svc tid l.length w₁.mill :=
    hrun.invariant (fun _ _ _ hs hq => armed_of_quietPoll hl hs hq) h
  obtain ⟨t', ht', hbase⟩ := hw₁.undisturbed hp.1
  rw [ht] at ht'
  cases ht'
  have hlt := lt_of_overTraceCap (hbase.resolve_left hne) hover
  intro l₁ hl₁ l' hl'
  rw [hl] at hl₁
  rw [htr] at hl'
  cases hl₁
  cases hl'
  exact hlt

/-- A successful resume: the ticket leaves `blocked` for where it was, its trace baseline is to be set
    and its cost baseline is the old one. -/
theorem resumeBlocked_row {σ σ' : Mill} {note : String}
    (h : resumeBlocked env svc tid note σ = (σ', .ok ())) :
    ∃ t, ticketOf env svc tid σ = some t ∧ ∃ k r, fetch env svc σ' tid = .ok (k, r) ∧
      t.blockedFrom = some r.ticket.state ∧ r.ticket.retryAttempt = 0 ∧
      r.ticket.preRedraftTraceCount = -1 ∧ r.ticket.preRedraftCostUsd = t.preRedraftCostUsd := by
  unfold resumeBlocked at h
  cases hf : fetch env svc σ tid with
  | error e => rw [hf] at h; cases h
  | ok kr =>
      obtain ⟨k, r⟩ := kr
      rw [hf] at h
      dsimp only at h
      cases hr : resumeRefusal tid r.ticket with
      | some e => rw [hr] at h; cases h
      | none =>
          rw [hr] at h
          dsimp only at h
          cases h
          obtain ⟨-, dst, hdst⟩ := resume_allowed hr
          refine ⟨r.ticket, ticketOf_of_fetch hf, k, ?_⟩
          refine ⟨_, (fetch_congr (records_tick _) tid).trans (fetch_putRecord
            ((fetch_congr (records_editArtifacts ..) tid).trans hf)), ?_, rfl, rfl, rfl⟩
          simp [resumeRecord, hdst]

/-- A check that blocked the ticket: the row it found, and the row and the count it left. -/
theorem blockedRow_of_blockedOn {before : State} {after : Option State} {w₁ : SafetyNet}
    {bs : List Breaker} (h : checkProgress env svc tid sp before after w = (w₁, .ok bs))
    (hbs : bs ≠ []) :
    ∃ k r, fetch env svc w.mill tid = .ok (k, r) ∧ transitionRefusal tid .blocked r = none ∧
      BlockedRow env svc tid r.ticket w₁ := by
  have hspec := @checkSpec_checkProgress env svc tid sp before after w
  rw [h] at hspec
  cases hspec with
  | quiet hquiet _ _ => exact absurd hquiet hbs
  | trip _ hf hr _ hrow => exact ⟨_, _, hf, hr, hrow⟩

/-- An escalation that is not refused blocks the ticket on the breakers it names. -/
theorem blockedOn_escalate {bs : List Breaker} {note : String} {k : Key} {r : TicketRecord}
    (hf : fetch env svc w.mill tid = .ok (k, r)) (hr : transitionRefusal tid .blocked r = none) :
    blockedOn (escalate env svc tid bs note w) = bs := by
  have hnoop : transitionNoop r.ticket .blocked = false := by
    simp [transitionNoop, TERMINAL_EPIC_STATES]
  unfold escalate
  rw [transition_eq_commit hf hnoop hr (by decide) (by decide)]
  rfl

theorem Undisturbed.refl (σ : Mill) : Undisturbed env svc tid σ σ :=
  fun t ht => ⟨t, ht, rfl, rfl, rfl, rfl⟩

theorem Spend.Grows.refl (sp : Spend) : sp.Grows sp := by
  refine ⟨le_refl _, ?_, rfl, rfl⟩
  intro l hl l' hl'
  rw [Option.mem_def.1 hl] at hl'
  cases hl'
  exact le_refl _

/-- The row `r` a resume leaves, beside the row `t` the check found before. -/
structure ResumedRow (env : Env) (svc : BoardId) (tid : TicketId) (t : Ticket) (σ : Mill) (k : Key)
    (r : TicketRecord) : Prop where
  found : fetch env svc σ tid = .ok (k, r)
  blockable : transitionRefusal tid .blocked r = none
  idle : r.ticket.retryAttempt = 0
  sentinel : r.ticket.preRedraftTraceCount = -1
  state : r.ticket.state = t.state
  cost : r.ticket.preRedraftCostUsd = t.preRedraftCostUsd

/-- A ticket that a check blocked, that no one but the resume touched since. -/
theorem resumedRow_of_resume {w₁ : SafetyNet} {r : TicketRecord} {σ σ' : Mill} {note : String}
    (hactive : r.ticket.state ≠ .blocked) (hr : transitionRefusal tid .blocked r = none)
    (hrow : BlockedRow env svc tid r.ticket w₁) (hkeep : Undisturbed env svc tid w₁.mill σ)
    (hresume : resumeBlocked env svc tid note σ = (σ', .ok ())) :
    ∃ k' r', ResumedRow env svc tid r.ticket σ' k' r' := by
  obtain ⟨⟨t₁, ht₁, hfrom₁, hcost₁⟩, -⟩ := hrow
  obtain ⟨t₂, ht₂, k', r', hf', hfrom₂, hretry, hbase, hcost₂⟩ := resumeBlocked_row hresume
  obtain ⟨t₂', ht₂', -, hfrom₃, hcost₃, -⟩ := hkeep t₁ ht₁
  rw [ht₂] at ht₂'
  cases ht₂'
  have hstate : r'.ticket.state = r.ticket.state :=
    Option.some.inj (hfrom₂.symm.trans (hfrom₃.trans hfrom₁))
  exact ⟨k', r', hf', (transitionRefusal_blocked_congr hstate hactive).2 hr, hretry, hbase, hstate,
    hcost₂.trans (hcost₃.trans hcost₁)⟩

/-- The cap compares the cost since the last redraft. -/
theorem overDollarCap_congr {s : Settings} {t t' : Ticket}
    (h : t'.preRedraftCostUsd = t.preRedraftCostUsd) :
    overDollarCap s sp (some t') = overDollarCap s sp (some t) := by
  show (_ && decide (_ < effectiveCost sp t'.preRedraftCostUsd)) = _
  rw [h]
  rfl

/-- **The dollar cap does not start afresh**: the cost baseline is the one of the last redraft. -/
theorem not_rebaselined_dollarCap {t : Ticket} {k : Key} {r : TicketRecord}
    (hrow : ResumedRow env svc tid t w.mill k r) (hover : overDollarCap env.settings sp (some t) = true) :
    ¬ Rebaselined env svc tid sp w .dollarCap := by
  intro h
  obtain ⟨hf, hr, hretry, -, -, hcost⟩ := hrow
  rw [← overDollarCap_congr hcost] at hover
  let p : Poll := ⟨w.mill, sp, r.ticket.state, some r.ticket.state⟩
  have ht := ticketOf_of_fetch hf
  have hidle : retrying (ticketOf env svc tid w.mill) = false := by simp [ht, retrying, hretry]
  obtain ⟨note, hrun⟩ := @checkProgress_of_overDollarCap env svc tid sp p.before p.after w hidle
    (by rw [ht]; exact hover)
  have hb : Breaker.dollarCap ∈ blockedOn (p.run env svc tid w) := by
    show _ ∈ blockedOn (checkProgress env svc tid sp p.before p.after w)
    rw [hrun, blockedOn_escalate hf hr]
    exact List.mem_singleton_self _
  have hacc := h [] w p (.nil w) ⟨.refl _, .refl _⟩ hb
  simp only [overDollarCap, Bool.and_eq_true, decide_eq_true_eq] at hover
  have hzero : env.settings.maxSpendUsdPerTicket < sp.cost - sp.cost := hacc
  rw [sub_self] at hzero
  exact absurd hover.1 (not_lt.2 hzero.le)

/-- **The OpenRouter cap does not start afresh**: the first check after the resume skips the circuit
    breaker, the second compares all of the session's OpenRouter cost with the cap. -/
theorem not_rebaselined_openRouter {t : Ticket} {k : Key} {r : TicketRecord} {traces : List Trace}
    (hrow : ResumedRow env svc tid t w.mill k r) (hactive : t.state ≠ .blocked)
    (hdollar : overDollarCap env.settings sp (some t) = false) (htr : sp.traces = some traces)
    (hover : overOpenRouterCap env.settings sp traces = true) :
    ¬ Rebaselined env svc tid sp w .openRouter := by
  intro h
  obtain ⟨hf, hr, hretry, hbase, hstate, hcost⟩ := hrow
  rw [← overDollarCap_congr hcost] at hdollar
  rw [← hstate] at hactive
  have ht := ticketOf_of_fetch hf
  have hcap : 0 < env.settings.maxOpenrouterMarginalUsdPerTicket := by
    simp only [overOpenRouterCap, Bool.and_eq_true, decide_eq_true_eq] at hover
    exact hover.1
  rcases @setPreRedraftTraceCount_cases env svc tid traces.length w.mill with
    ⟨e, he, -⟩ | ⟨k', r', hf', σ₁, hset, hf₁⟩
  · rw [hf] at he
    cases he
  · rw [hf] at hf'
    cases hf'
    -- the first check uses the sentinel up
    let p₁ : Poll := ⟨w.mill, sp, .blocked, some r.ticket.state⟩
    have hp₁ : p₁.run env svc tid w = (({ w with mill := σ₁ } : SafetyNet).pop tid, .ok []) := by
      show checkProgress env svc tid sp .blocked (some r.ticket.state) w = _
      unfold checkProgress
      dsimp only
      rw [ht, hdollar, watchedTraces, if_pos (Or.inr hcap), htr]
      simp [retrying, hretry, traceBaseline, hbase, hset, checkStuck, hactive]
    let w₁ := ({ w with mill := σ₁ } : SafetyNet).pop tid
    have hq : QuietPoll env svc tid sp w p₁ w₁ :=
      ⟨⟨.refl _, .refl _⟩, by rw [hp₁]; rfl, by rw [hp₁]⟩
    -- the second finds the baseline set and the OpenRouter cost as it was
    let p₂ : Poll := ⟨σ₁, sp, r.ticket.state, some r.ticket.state⟩
    have ht₁ := ticketOf_of_fetch hf₁
    have hidle : retrying (ticketOf env svc tid σ₁) = false := by simp [ht₁, retrying, hretry]
    have hset₁ : traceBaseline (ticketOf env svc tid σ₁) ≠ -1 := by
      rw [ht₁]
      show ((traces.length : Nat) : Int) ≠ -1
      omega
    obtain ⟨bs, note, hmem, hrun⟩ := @checkProgress_of_overOpenRouterCap env svc tid sp p₂.before
      p₂.after { w₁ with mill := σ₁ } traces hidle (by rw [ht₁]; exact hdollar) hset₁ htr hover
    have hescalated : blockedOn (escalate env svc tid bs note { w₁ with mill := σ₁ }) = bs := by
      refine blockedOn_escalate hf₁ ?_
      exact hr
    have hb : Breaker.openRouter ∈ blockedOn (p₂.run env svc tid w₁) := by
      show _ ∈ blockedOn (checkProgress env svc tid sp p₂.before p₂.after { w₁ with mill := σ₁ })
      rw [hrun, hescalated]
      exact hmem
    have hacc := h [p₁] w₁ p₂ (.single hq) ⟨.refl _, .refl _⟩ hb traces htr traces htr
    rw [sub_self] at hacc
    exact absurd hcap (not_lt.2 hacc.le)

end Rebaseline

/-- **What a resume rebaselines.** A ticket blocked by a check and resumed is blocked again on a breaker
    only after that breaker accrued anew, exactly if at the blocking check the cost of the session was
    within the dollar cap, and so was its OpenRouter cost unless the trace baseline was still to be set. -/
theorem resume_rebaselines_breakers {env : Env} {svc : BoardId} {tid : TicketId} {sp : Spend}
    {before : State} {after : Option State} {w w₁ : SafetyNet} {bs : List Breaker} {t : Ticket}
    {σ σ' : Mill} {note : String} (ht : ticketOf env svc tid w.mill = some t)
    (hactive : t.state ≠ .blocked)
    (hblock : checkProgress env svc tid sp before after w = (w₁, .ok bs)) (hbs : bs ≠ [])
    (hkeep : Undisturbed env svc tid w₁.mill σ)
    (hresume : resumeBlocked env svc tid note σ = (σ', .ok ())) :
    (∀ b ∈ bs, Rebaselined env svc tid sp { w₁ with mill := σ' } b) ↔
      overDollarCap env.settings sp (some t) = false ∧
      (t.preRedraftTraceCount = -1 ∨
        ∀ traces ∈ sp.traces, overOpenRouterCap env.settings sp traces = false) := by
  have hblocked : blockedOn (checkProgress env svc tid sp before after w) = bs := by rw [hblock]; rfl
  have hidle := retrying_eq_false (hblocked ▸ hbs)
  obtain ⟨k, r, hf, hr, hrow⟩ := blockedRow_of_blockedOn hblock hbs
  obtain rfl : r.ticket = t := Option.some.inj ((ticketOf_of_fetch hf).symm.trans ht)
  obtain ⟨k', r', hres⟩ := resumedRow_of_resume hactive hr hrow hkeep hresume
  constructor
  · intro h
    by_contra hc
    rw [not_and_or, not_or, Bool.not_eq_false] at hc
    cases hd : overDollarCap env.settings sp (some r.ticket) with
    | true =>
        obtain ⟨n, hrun⟩ := @checkProgress_of_overDollarCap env svc tid sp before after w hidle
          (by rw [ht]; exact hd)
        rw [hrun, blockedOn_escalate hf hr] at hblocked
        exact not_rebaselined_dollarCap hres hd (h _ (hblocked ▸ List.mem_singleton_self _))
    | false =>
        rw [hd] at hc
        obtain ⟨hne, hover⟩ := hc.resolve_left (by simp)
        push Not at hover
        obtain ⟨traces, htr, hover⟩ := hover
        rw [ne_eq, Bool.not_eq_false] at hover
        obtain ⟨bs', n, hmem, hrun⟩ := @checkProgress_of_overOpenRouterCap env svc tid sp before after w
          traces hidle (by rw [ht]; exact hd) (by rw [ht]; exact hne) htr hover
        rw [hrun, blockedOn_escalate hf hr] at hblocked
        subst hblocked
        exact not_rebaselined_openRouter hres hactive hd htr hover (h _ hmem)
  · rintro ⟨hd, hor⟩ b hb
    obtain ⟨t', ht', htrips⟩ := trips_of_blockedOn (hblocked ▸ hb)
    obtain rfl : r.ticket = t' := Option.some.inj (ht.symm.trans ht')
    cases b with
    | dollarCap => rw [show overDollarCap env.settings sp (some r.ticket) = true from htrips] at hd; cases hd
    | traceCount =>
        obtain ⟨-, traces, htr, -⟩ := htrips
        exact rebaselined_traceCount htr ⟨_, ticketOf_of_fetch hres.found, .inl hres.sentinel⟩
    | openRouter =>
        obtain ⟨hne, traces, htr, hover⟩ := htrips
        rw [hor.resolve_left hne traces htr] at hover
        cases hover
    | stuck => exact rebaselined_stuck hrow.uncounted

/-! ## A cap that no resume lifts -/

/-- A mill with one breaker switched on. -/
def cappedBy (settings : Settings) : Env := { Env.standalone with settings := settings }

/-- A ticket in `ready`, with a session of two traces. -/
def readyTicket (env : Env) : SafetyNet :=
  { mill := runOps env .empty
      [.create "board" { id := "t-1", title := "ticket", initialState := some .ready }]
    stuck := fun _ => none }

def twoDollars : Spend where
  cost := 2
  traces := some [⟨1, "openrouter/gpt-4o"⟩, ⟨1, "claude-sonnet"⟩]
  floatSub := (· - ·)
  floatSum := List.sum

/-- A check after a stage run that left the ticket in `ready`. -/
def checkReady (env : Env) (w : SafetyNet) : Checked :=
  checkProgress env "board" "t-1" twoDollars .ready (some .ready) w

/-- The operator resumes the ticket. -/
def resumed (env : Env) (w : SafetyNet) : SafetyNet :=
  { w with mill := (resumeBlocked env "board" "t-1" "continue" w.mill).1 }

/-- With a cap of one dollar the first check after the resume blocks the ticket again; with a cap of half
    a dollar on OpenRouter the second does. Nothing was spent in between. -/
theorem dollarCap_outlives_resume :
    (let env := cappedBy { maxSpendUsdPerTicket := 1 }
     let w := (checkReady env (readyTicket env)).1
     blockedOn (checkReady env (readyTicket env)) = [.dollarCap] ∧
     (ticketOf env "board" "t-1" (resumed env w).mill).map Ticket.state = some .ready ∧
     blockedOn (checkReady env (resumed env w)) = [.dollarCap]) ∧
    (let env := cappedBy { maxOpenrouterMarginalUsdPerTicket := 1 / 2 }
     let w := (checkReady env (readyTicket env)).1
     blockedOn (checkReady env (readyTicket env)) = [.openRouter] ∧
     blockedOn (checkReady env (resumed env w)) = [] ∧
     blockedOn (checkReady env (checkReady env (resumed env w)).1) = [.openRouter]) := by
  decide +kernel

/-- Under a cap of one trace the resumed ticket is left alone until two more traces are there. -/
theorem resume_rebaselines_traceCount :
    ∃ w σ, (w, Except.ok [Breaker.traceCount]) =
        checkReady (cappedBy { maxTracesPerTicket := 1 })
          (readyTicket (cappedBy { maxTracesPerTicket := 1 })) ∧
      ∀ b ∈ [Breaker.traceCount], Rebaselined (cappedBy { maxTracesPerTicket := 1 }) "board" "t-1"
        twoDollars { w with mill := σ } b := by
  let env := cappedBy { maxTracesPerTicket := 1 }
  obtain ⟨t, ht⟩ : ∃ t, ticketOf env "board" "t-1" (readyTicket env).mill = some t := ⟨_, rfl⟩
  have hblock : checkReady env (readyTicket env) =
      ((checkReady env (readyTicket env)).1, .ok [.traceCount]) := Prod.ext rfl (by decide +kernel)
  have hresume : resumeBlocked env "board" "t-1" "continue" (checkReady env (readyTicket env)).1.mill =
      ((resumed env (checkReady env (readyTicket env)).1).mill, .ok ()) :=
    Prod.ext rfl (by decide +kernel)
  refine ⟨_, _, hblock.symm,
    (resume_rebaselines_breakers ht ?_ hblock (by simp) (.refl _) hresume).2 ⟨?_, .inr ?_⟩⟩
  · cases ht; decide +kernel
  · cases ht; decide +kernel
  · decide +kernel

end Runtime
end RobotsixMill
