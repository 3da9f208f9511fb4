import RobotsixMill.Runtime.OutcomeApplication
import RobotsixMill.Runtime.Progress

/-!
# `Runtime.PassLoop` — one call of `process_ticket`

The worker takes a ticket through stage after stage until something ends the pass. A counter for each traced
stage blocks the ticket once the stage was started more often than the ceiling allows; stages that are not
traced are started without being counted.

- `takeTurn` — one turn of the loop, from the row it reads to the outcome it applies;
- `count_visits_le` — a traced stage is started at most as often as the ceiling allows;
- `OpensAtMost` — how often the turns may find the ticket in `fixing_ci`, told by the outcomes, the preflights and the
  moves of others: `ci_fix` runs an agent and is not traced, so nothing else bounds it;
- `stageRuns_bounded` — where they do so at most as often as the ceiling allows, no agent stage outruns it.
-/

namespace RobotsixMill
namespace Runtime
open RobotsixMill.Core Lib RobotsixMill.Service Stages

/-- `ticket_state_cycle_limit_effective`. -/
def ticketStateCycleLimitEffective (s : Settings) : Nat :=
  if s.ticketStateCycleLimit = 0 then 0 else max s.ticketStateCycleLimit (s.reviewMaxRounds + 1)

/-- `getattr(stage, "traced", True)`. -/
def traced (stage : String) : Bool := !decide (stage ∈ UNTRACED_STAGES)

/-- How a run of a stage ends. -/
inductive StageEnd
  | returned (traceUrl : Option String) (outcome : StageOutcome)
  /-- The run raised, or its deadline passed; the handlers do this to the mill. -/
  | raised (handler : Mill → Mill)

/-- One turn of the loop, as far as it is decided outside. -/
structure Turn where
  /-- What other sessions do before the ticket is read. -/
  meanwhile : Mill → Mill
  /-- `first_full_path` at the admission gate. -/
  fullPath : Option String
  /-- What `stage.preflight` writes, and what it returns; `none` when it raises. -/
  preflightEffect : Mill → Mill
  preflight : Option (Option StageOutcome)
  /-- What the run of the stage does to the mill, and other sessions while it is under way. -/
  run : Mill → Mill
  ended : StageEnd

/-- `dispatch_counts`. -/
abbrev DispatchCounts := String → Nat

def DispatchCounts.bump (counts : DispatchCounts) (stage : String) : DispatchCounts :=
  Function.update counts stage (counts stage + 1)

/-- What one turn comes to. -/
structure TurnResult where
  mill : Mill
  counts : DispatchCounts
  /-- The stage that was run in it. -/
  ran : Option String
  /-- Is there another turn? -/
  goesOn : Bool

/-- The call returns, or raises. -/
def TurnResult.leave (σ : Mill) (counts : DispatchCounts) (ran : Option String) : TurnResult := ⟨σ, counts, ran, false⟩

section Loop

variable (env : Env) (svc : BoardId) (tid : TicketId) (allowed : Option (List State))

/-- The row a stage may be started on, and the stage, by the gates that only read. -/
def stageToStart (σ : Mill) : Option (Ticket × String) :=
  match ticketOf env svc tid σ with
  | none => none
  | some ticket =>
    if ticket.state ∈ TERMINAL then none
    else if allowed.any fun states => !decide (ticket.state ∈ states) then none
    else if ticket.state = .awaitingUserReply then none
    else if ticket.nextRetryAt.any fun at_ => decide (σ.now env 0 < at_) then none
    else
      match STAGE_FOR_STATE ticket.state with
      | none => none
      | some stage => if unmetDependencies env svc σ tid ticket ≠ [] then none else some (ticket, stage)

/-- The disk admission gate parks the ticket. The infrastructure ticket it files is left out. -/
def parkForDisk (path : String) (ticket : Ticket) (σ : Mill) : Result Unit :=
  match fetch env svc σ tid with
  | .error e => (σ, .error e)
  | .ok (k, r) =>
    let error := truncate 200 (s!"{path} below {env.settings.diskMinFreeMb} MB free " ++
      "(parked before dispatch, retry budget untouched)")
    let nextRetryAt := σ.now env 1 + seconds env.settings.diskFullRetrySeconds
    ((σ.putRecord k (setRetryState (σ.now env 2) (max ticket.retryAttempt 1) (some error) (some nextRetryAt) r)).tick,
      .ok ())

/-- Clear the breadcrumbs of past failures, if there are any. -/
def clearStaleRetry (ticket : Ticket) (σ : Mill) : Result Unit :=
  if 0 < ticket.retryAttempt then clearRetryState env svc tid σ else (σ, .ok ())

/-- The preflight of the stage reported; a refused transition is logged and dropped. -/
def applyPreflight (ticket : Ticket) (outcome : StageOutcome) (σ : Mill) : Mill :=
  if outcome.nextState = ticket.state then σ
  else
    match clearStaleRetry env svc tid ticket σ with
    | (σ', .error _) => σ'
    | (σ', .ok ()) => (transitionTo env svc tid outcome σ').1

def ceilingNote (stage : String) (count limit : Nat) : String :=
  truncate 200 (s!"Cycle ceiling: '{stage}' re-ran " ++
    s!"{count} times this pass " ++
    s!"(limit {limit}) — pausing for human review to " ++
    "avoid an unbounded implement/review/ci_fix re-run " ++
    "loop.")

/-- `_block_ticket_and_notify` without a trace. -/
def blockAtCeiling (stage : String) (count limit : Nat) (σ : Mill) : Mill :=
  (transition env svc tid .blocked (some (ceilingNote stage count limit)) none σ).1

/-- `transitionToOutcome`, with whether the loop goes on: a discarded outcome ends the pass. -/
def advance (stage : String) (dispatched : State) (outcome : StageOutcome) (σ : Mill) : Result Bool :=
  match transitionTo env svc tid outcome σ with
  | (σ', .ok ()) => (σ', .ok true)
  | (σ', .error (.transitionError msg)) =>
    if isStaleAskUserBlock outcome.nextState msg then
      match closeOpenAskUserThreads env svc tid σ' with
      | (σ'', .error e) => (σ'', .error e)
      | (σ'', .ok ()) =>
        match transitionTo env svc tid outcome σ'' with
        | (σ₃, .error e) => (σ₃, .error e)
        | (σ₃, .ok ()) => (σ₃, .ok true)
    else
      let note := discardNote stage dispatched ((ticketOf env svc tid σ').map Ticket.state) outcome
      ((addHistoryNote env svc tid (truncate 500 note) σ').1, .ok false)
  | (σ', .error e) => (σ', .error e)

/-- `applyOutcome`, with whether the loop goes on: a no-op ends the pass. -/
def finish (stage : String) (dispatched : Ticket) (url : Option String) (outcome : StageOutcome) (σ : Mill) :
    Result Bool :=
  match clearStaleRetry env svc tid dispatched σ with
  | (σ₁, .error e) => (σ₁, .error e)
  | (σ₁, .ok ()) =>
    let σ₂ := postTrace env svc tid stage url σ₁
    if outcome.nextState = dispatched.state then (σ₂, .ok false)
    else if (ticketOf env svc tid σ₂).map Ticket.state = some outcome.nextState then (σ₂, .ok true)
    else advance env svc tid stage dispatched.state outcome σ₂

/-- The run of the stage, and what is made of its end. -/
def runStage (stage : String) (ticket : Ticket) (t : Turn) (counts : DispatchCounts) (σ : Mill) : TurnResult :=
  match t.ended with
  | .raised handler => .leave (handler (t.run σ)) counts (some stage)
  | .returned url outcome =>
    match finish env svc tid stage ticket url outcome (t.run σ) with
    | (σ', .error _) => .leave σ' counts (some stage)
    | (σ', .ok goesOn) => ⟨σ', counts, some stage, goesOn⟩

/-- The ceiling, and the run of the stage behind it. -/
def startStage (stage : String) (ticket : Ticket) (t : Turn) (counts : DispatchCounts) (σ : Mill) : TurnResult :=
  let limit := ticketStateCycleLimitEffective env.settings
  if traced stage = true ∧ 0 < limit then
    if limit < counts.bump stage stage then
      .leave (blockAtCeiling env svc tid stage (counts.bump stage stage) limit σ) (counts.bump stage) none
    else runStage env svc tid stage ticket t (counts.bump stage) σ
  else runStage env svc tid stage ticket t counts σ

/-- One turn of the loop of `_process_ticket_inner`. -/
def takeTurn (t : Turn) (counts : DispatchCounts) (σ : Mill) : TurnResult :=
  match stageToStart env svc tid allowed (t.meanwhile σ) with
  | none => .leave (t.meanwhile σ) counts none
  | some (ticket, stage) =>
    match t.fullPath with
    | some path => .leave (parkForDisk env svc tid path ticket (t.meanwhile σ)).1 counts none
    | none =>
      match t.preflight with
      | none => .leave (t.preflightEffect (t.meanwhile σ)) counts none
      | some (some outcome) =>
        .leave (applyPreflight env svc tid ticket outcome (t.preflightEffect (t.meanwhile σ))) counts none
      | some none => startStage env svc tid stage ticket t counts (t.preflightEffect (t.meanwhile σ))

/-- A turn of a pass, with the counters and the mill it starts from. -/
structure Visit where
  turn : Turn
  counts : DispatchCounts
  mill : Mill

/-- The turns of a pass: those up to the first that ends it. -/
def visits : List Turn → DispatchCounts → Mill → List Visit
  | [], _, _ => []
  | t :: ts, counts, σ =>
    let res := takeTurn env svc tid allowed t counts σ
    ⟨t, counts, σ⟩ :: if res.goesOn then visits ts res.counts res.mill else []

/-- The stage that is run in a turn of the pass. -/
def Visit.ran (v : Visit) : Option String := (takeTurn env svc tid allowed v.turn v.counts v.mill).ran

/-- The stages a pass runs, in order. -/
def stageRuns (ts : List Turn) (σ : Mill) : List String :=
  (visits env svc tid allowed ts (fun _ => 0) σ).filterMap (Visit.ran env svc tid allowed)

/-- `get` finds the ticket in `fixing_ci`. -/
def FixingCi (σ : Mill) : Prop := (ticketOf env svc tid σ).map Ticket.state = some .fixingCi

/-- The disk is not full, and the preflight lets the stage start. -/
def Turn.Admits (t : Turn) : Prop := t.fullPath = none ∧ t.preflight = some none

/-- No other session moves the ticket into `fixing_ci` before the turn reads it. -/
def Turn.KeepsOut (t : Turn) : Prop := ∀ σ, FixingCi env svc tid (t.meanwhile σ) → FixingCi env svc tid σ

/-- The next turn may find the ticket in `fixing_ci`: the outcome moves it there; or it finishes the ticket, which may
    be purged then, and the id found on another board. -/
def LeadsToCi (outcome : StageOutcome) : Prop :=
  outcome.nextState = .fixingCi ∨ outcome.nextState ∈ UNBLOCK_TRIGGER_STATES ++ ARCHIVABLE_STATES

/-- At most `n` of the turns may find the ticket in `fixing_ci` and start a stage; `fixing` says whether the first
    may. A turn that starts nothing, or whose run raises, is the last of the pass. -/
inductive OpensAtMost : Prop → List Turn → Nat → Prop
  | nil {fixing : Prop} {n : Nat} : OpensAtMost fixing [] n
  | ends {fixing : Prop} {t : Turn} {ts : List Turn} {n : Nat} : ¬ t.Admits → OpensAtMost fixing (t :: ts) n
  | passes {fixing : Prop} {t : Turn} {ts : List Turn} {n : Nat} : ¬ fixing → t.KeepsOut env svc tid →
      (∀ url outcome, t.ended = .returned url outcome → OpensAtMost (LeadsToCi outcome) ts n) →
      OpensAtMost fixing (t :: ts) n
  | opens {fixing : Prop} {t : Turn} {ts : List Turn} {n : Nat} :
      (∀ url outcome, t.ended = .returned url outcome → OpensAtMost (LeadsToCi outcome) ts n) →
      OpensAtMost fixing (t :: ts) (n + 1)

end Loop

section Facts

variable {env : Env} {svc : BoardId} {tid : TicketId} {allowed : Option (List State)}

/-! ## The outcome is applied as `applyOutcome` has it -/

theorem fst_advance (stage : String) (dispatched : State) (outcome : StageOutcome) (σ : Mill) :
    (advance env svc tid stage dispatched outcome σ).1 =
      (transitionToOutcome env svc tid stage dispatched outcome σ).1 := by
  unfold advance transitionToOutcome
  cases htr : transitionTo env svc tid outcome σ with
  | mk σ' res =>
    cases res with
    | ok u => rfl
    | error e =>
      cases e with
      | transitionError msg =>
        dsimp only
        split
        · cases hclose : closeOpenAskUserThreads env svc tid σ' with
          | mk σ'' res =>
            cases res with
            | error e => rfl
            | ok u =>
              dsimp only
              cases transitionTo env svc tid outcome σ'' with
              | mk σ₃ res => cases res <;> rfl
        · rfl
      | valueError _ | keyError _ | dbError _ | externalError _ => rfl

/-- The flag apart, the loop applies an outcome as `applyOutcome` does. -/
theorem fst_finish (stage : String) (dispatched : Ticket) (url : Option String) (outcome : StageOutcome) (σ : Mill) :
    (finish env svc tid stage dispatched url outcome σ).1 =
      (applyOutcome env svc tid stage dispatched url outcome σ).1 := by
  unfold finish applyOutcome clearStaleRetry
  dsimp only
  cases (if 0 < dispatched.retryAttempt then clearRetryState env svc tid σ else (σ, .ok ())) with
  | mk σ₁ res =>
    cases res with
    | error e => rfl
    | ok u =>
      dsimp only
      split
      · rfl
      · split
        · rfl
        · exact fst_advance ..

/-! ## What a turn runs -/

@[simp] theorem ran_leave (σ : Mill) (counts : DispatchCounts) (ran : Option String) :
    (TurnResult.leave σ counts ran).ran = ran := rfl

@[simp] theorem goesOn_leave (σ : Mill) (counts : DispatchCounts) (ran : Option String) :
    (TurnResult.leave σ counts ran).goesOn = false := rfl

theorem runStage_ran (stage : String) (ticket : Ticket) (t : Turn) (counts : DispatchCounts) (σ : Mill) :
    (runStage env svc tid stage ticket t counts σ).ran = some stage ∧
    (runStage env svc tid stage ticket t counts σ).counts = counts := by
  unfold runStage
  cases t.ended with
  | raised handler => exact ⟨rfl, rfl⟩
  | returned url outcome =>
    dsimp only
    cases finish env svc tid stage ticket url outcome (t.run σ) with
    | mk σ' res => cases res <;> exact ⟨rfl, rfl⟩

/-- **A turn.** It runs nothing and ends the pass; or it runs a stage that is not counted; or a counted one, below
    the ceiling, and counts it. -/
inductive TurnCase (limit : Nat) (counts : DispatchCounts) (res : TurnResult) : Prop
  | idle : res.ran = none → res.goesOn = false → TurnCase limit counts res
  | uncounted (stage : String) : res.ran = some stage → (traced stage = true → limit = 0) → res.counts = counts →
      TurnCase limit counts res
  | counted (stage : String) : res.ran = some stage → traced stage = true → counts stage + 1 ≤ limit →
      res.counts = counts.bump stage → TurnCase limit counts res

theorem startStage_case (stage : String) (ticket : Ticket) (t : Turn) (counts : DispatchCounts) (σ : Mill) :
    TurnCase (ticketStateCycleLimitEffective env.settings) counts
      (startStage env svc tid stage ticket t counts σ) := by
  unfold startStage
  dsimp only
  split
  · rename_i htraced
    have hbump : counts.bump stage stage = counts stage + 1 := Function.update_self ..
    split
    · exact .idle rfl rfl
    · rename_i hle
      obtain ⟨hran, hcounts⟩ := @runStage_ran env svc tid stage ticket t (counts.bump stage) σ
      exact .counted stage hran htraced.1 (by omega) hcounts
  · rename_i htraced
    obtain ⟨hran, hcounts⟩ := @runStage_ran env svc tid stage ticket t counts σ
    refine .uncounted stage hran ?_ hcounts
    intro h
    by_contra hpos
    exact htraced ⟨h, Nat.pos_of_ne_zero hpos⟩

theorem takeTurn_case (t : Turn) (counts : DispatchCounts) (σ : Mill) :
    TurnCase (ticketStateCycleLimitEffective env.settings) counts (takeTurn env svc tid allowed t counts σ) := by
  unfold takeTurn
  cases stageToStart env svc tid allowed (t.meanwhile σ) with
  | none => exact .idle rfl rfl
  | some p =>
    dsimp only
    cases t.fullPath with
    | some path => exact .idle rfl rfl
    | none =>
      cases t.preflight with
      | none => exact .idle rfl rfl
      | some reported =>
        cases reported with
        | some outcome => exact .idle rfl rfl
        | none => exact startStage_case ..

/-! ## Counted stages -/

section Counted

variable {stage : String} {counts : DispatchCounts} {limit : Nat} {res : TurnResult}

/-- How often a turn runs the stage: once or not at all. -/
abbrev TurnResult.times (res : TurnResult) (stage : String) : Nat := res.ran.toList.count stage

/-- A turn that the pass goes on after counts what it runs. -/
theorem TurnCase.counts_eq (h : TurnCase limit counts res) (htraced : traced stage = true) (hpos : 0 < limit)
    (hgo : res.goesOn = true) : res.counts stage = counts stage + res.times stage := by
  cases h with
  | idle hran hstop => rw [hgo] at hstop; cases hstop
  | uncounted other hran hun hcounts =>
    have hne : other ≠ stage := by
      rintro rfl
      have := hun htraced
      omega
    simp [TurnResult.times, hran, hcounts, hne]
  | counted other hran _ hle hcounts =>
    rw [hcounts]
    unfold DispatchCounts.bump
    by_cases hother : other = stage
    · subst hother
      simp [TurnResult.times, hran]
    · simp [TurnResult.times, hran, hother, Function.update_of_ne (Ne.symm hother)]

/-- A turn keeps within the ceiling. -/
theorem TurnCase.times_le (h : TurnCase limit counts res) (htraced : traced stage = true) (hpos : 0 < limit)
    (hle : counts stage ≤ limit) : counts stage + res.times stage ≤ limit := by
  cases h with
  | idle hran => simpa [TurnResult.times, hran] using hle
  | uncounted other hran hun =>
    have hne : other ≠ stage := by
      rintro rfl
      have := hun htraced
      omega
    simpa [TurnResult.times, hran, hne] using hle
  | counted other hran _ hroom =>
    by_cases hother : other = stage
    · subst hother
      simpa [TurnResult.times, hran] using hroom
    · simpa [TurnResult.times, hran, hother] using hle

end Counted

/-- The runs of the rest of a pass, counters and all. -/
theorem filterMap_visits_cons (t : Turn) (ts : List Turn) (counts : DispatchCounts) (σ : Mill) :
    (visits env svc tid allowed (t :: ts) counts σ).filterMap (Visit.ran env svc tid allowed) =
      (takeTurn env svc tid allowed t counts σ).ran.toList ++
        if (takeTurn env svc tid allowed t counts σ).goesOn then
          (visits env svc tid allowed ts (takeTurn env svc tid allowed t counts σ).counts
            (takeTurn env svc tid allowed t counts σ).mill).filterMap (Visit.ran env svc tid allowed)
        else [] := by
  show List.filterMap _ (_ :: _) = _
  have hran : Visit.ran env svc tid allowed ⟨t, counts, σ⟩ = (takeTurn env svc tid allowed t counts σ).ran := rfl
  rw [List.filterMap_cons, hran]
  cases (takeTurn env svc tid allowed t counts σ).ran <;>
    cases (takeTurn env svc tid allowed t counts σ).goesOn <;> simp

/-- **A counted stage stays within the ceiling**, what was counted before included. -/
theorem count_visits_le {stage : String} (htraced : traced stage = true)
    (hpos : 0 < ticketStateCycleLimitEffective env.settings) (ts : List Turn) (counts : DispatchCounts) (σ : Mill)
    (hle : counts stage ≤ ticketStateCycleLimitEffective env.settings) :
    counts stage + ((visits env svc tid allowed ts counts σ).filterMap (Visit.ran env svc tid allowed)).count stage ≤
      ticketStateCycleLimitEffective env.settings := by
  induction ts generalizing counts σ with
  | nil => simpa [visits] using hle
  | cons t ts ih =>
    have hcase := @takeTurn_case env svc tid allowed t counts σ
    have hturn := hcase.times_le htraced hpos hle
    rw [filterMap_visits_cons, List.count_append]
    show _ + ((takeTurn env svc tid allowed t counts σ).times stage + _) ≤ _
    split
    · rename_i hgo
      have hcounts := hcase.counts_eq htraced hpos hgo
      have hrest := ih (takeTurn env svc tid allowed t counts σ).counts (takeTurn env svc tid allowed t counts σ).mill
        (by omega)
      omega
    · simpa using hturn

/-! ## `ci_fix` is not counted -/

/-- `fixing_ci` is the state of `ci_fix` alone. -/
theorem ciFix_iff {st : State} : STAGE_FOR_STATE st = some "ci_fix" ↔ st = .fixingCi := by
  cases st <;> simp [STAGE_FOR_STATE]

theorem stage_of_stageToStart {σ : Mill} {ticket : Ticket} {stage : String}
    (h : stageToStart env svc tid allowed σ = some (ticket, stage)) : STAGE_FOR_STATE ticket.state = some stage := by
  unfold stageToStart at h
  cases ht : ticketOf env svc tid σ with
  | none => rw [ht] at h; cases h
  | some t =>
    rw [ht] at h
    dsimp only at h
    cases hs : STAGE_FOR_STATE t.state with
    | none =>
      rw [hs] at h
      split_ifs at h
    | some s =>
      rw [hs] at h
      split_ifs at h
      cases h
      exact hs

/-- `stageToStart` goes by the row that `get` finds. -/
theorem ticket_of_stageToStart {σ : Mill} {ticket : Ticket} {stage : String}
    (h : stageToStart env svc tid allowed σ = some (ticket, stage)) : ticketOf env svc tid σ = some ticket := by
  unfold stageToStart at h
  cases ht : ticketOf env svc tid σ with
  | none => rw [ht] at h; cases h
  | some t =>
    rw [ht] at h
    dsimp only at h
    cases hs : STAGE_FOR_STATE t.state with
    | none =>
      rw [hs] at h
      split_ifs at h
    | some s =>
      rw [hs] at h
      split_ifs at h
      cases h
      rfl

/-- A turn that runs a stage or goes on has started the one of the row it read. -/
theorem takeTurn_started {t : Turn} {counts : DispatchCounts} {σ : Mill}
    (h : (takeTurn env svc tid allowed t counts σ).ran ≠ none ∨ (takeTurn env svc tid allowed t counts σ).goesOn = true) :
    t.Admits ∧ ∃ ticket stage, stageToStart env svc tid allowed (t.meanwhile σ) = some (ticket, stage) ∧
      takeTurn env svc tid allowed t counts σ =
        startStage env svc tid stage ticket t counts (t.preflightEffect (t.meanwhile σ)) := by
  unfold takeTurn at h ⊢
  cases hgate : stageToStart env svc tid allowed (t.meanwhile σ) with
  | none => simp [hgate] at h
  | some p =>
    obtain ⟨ticket, stage⟩ := p
    unfold Turn.Admits
    rw [hgate] at h
    dsimp only at h
    cases hpath : t.fullPath with
    | some path => simp [hpath] at h
    | none =>
      rw [hpath] at h
      cases hpre : t.preflight with
      | none => simp [hpre] at h
      | some reported =>
        cases reported with
        | some outcome => simp [hpre] at h
        | none => exact ⟨⟨rfl, rfl⟩, ticket, stage, rfl, rfl⟩

/-- `startStage` runs the stage it is given, or nothing. -/
theorem startStage_ran {stage : String} {ticket : Ticket} {t : Turn} {counts : DispatchCounts} {σ : Mill} {ran : String}
    (h : (startStage env svc tid stage ticket t counts σ).ran = some ran) : ran = stage := by
  unfold startStage at h
  dsimp only at h
  split at h
  · split at h
    · cases h
    · rw [(runStage_ran ..).1] at h
      exact (Option.some.inj h).symm
  · rw [(runStage_ran ..).1] at h
    exact (Option.some.inj h).symm

/-- **A turn that runs `ci_fix`** was let through, and found the ticket in `fixing_ci`. -/
theorem fixingCi_of_ran {t : Turn} {counts : DispatchCounts} {σ : Mill}
    (h : (takeTurn env svc tid allowed t counts σ).ran = some "ci_fix") :
    t.Admits ∧ FixingCi env svc tid (t.meanwhile σ) := by
  obtain ⟨hadmits, ticket, stage, hgate, hturn⟩ := takeTurn_started (.inl (by rw [h]; exact Option.some_ne_none _))
  rw [hturn] at h
  obtain rfl := startStage_ran h
  refine ⟨hadmits, ?_⟩
  rw [FixingCi, ticket_of_stageToStart hgate, Option.map_some, ciFix_iff.1 (stage_of_stageToStart hgate)]

/-! ## Where an outcome leads -/

/-- A transition that goes through leaves the ticket in the state it names, unless that finishes it. -/
theorem leadsToCi_of_transitionTo {outcome : StageOutcome} {σ σ' : Mill}
    (h : transitionTo env svc tid outcome σ = (σ', .ok ())) (hci : FixingCi env svc tid σ') : LeadsToCi outcome := by
  by_cases hfinal : outcome.nextState ∈ UNBLOCK_TRIGGER_STATES ++ ARCHIVABLE_STATES
  · exact .inr hfinal
  · left
    have hopen : outcome.nextState ∉ UNBLOCK_TRIGGER_STATES ∧ outcome.nextState ∉ ARCHIVABLE_STATES := by
      simpa using hfinal
    unfold transitionTo at h
    cases hf : fetch env svc σ tid with
    | error e => simp [transition, transitionSession, hf] at h
    | ok kr =>
      obtain ⟨k, r⟩ := kr
      have hn : transitionNoop r.ticket outcome.nextState = false := by
        have hepic : outcome.nextState ∉ TERMINAL_EPIC_STATES := by
          intro hmem
          rw [List.mem_singleton.1 hmem] at hfinal
          exact hfinal (by decide)
        simp [transitionNoop, hepic]
      cases hr : transitionRefusal tid outcome.nextState r with
      | some e =>
        rw [transition_of_refused hf hn hr] at h
        cases h
      | none =>
        rw [transition_eq_commit hf hn hr hopen.2 hopen.1] at h
        cases h
        rw [FixingCi, ticketOf_of_fetch (fetch_commitTransition hf)] at hci
        exact Option.some.inj hci

theorem leadsToCi_of_finish {stage : String} {dispatched : Ticket} {url : Option String} {outcome : StageOutcome}
    {σ σ' : Mill} (h : finish env svc tid stage dispatched url outcome σ = (σ', .ok true))
    (hci : FixingCi env svc tid σ') : LeadsToCi outcome := by
  unfold finish at h
  split at h
  · cases h
  · dsimp only at h
    split at h
    · cases h
    · split at h
      · rename_i hstate
        cases h
        exact .inl (Option.some.inj (hstate.symm.trans hci))
      · unfold advance at h
        split at h
        · rename_i hmoved
          cases h
          exact leadsToCi_of_transitionTo hmoved hci
        · split at h
          · split at h
            · cases h
            · split at h
              · cases h
              · rename_i hmoved
                cases h
                exact leadsToCi_of_transitionTo hmoved hci
          · cases h
        · cases h

/-- **A turn the pass goes on after** returned an outcome, and leaves the ticket where that says. -/
theorem leadsToCi_of_goesOn {t : Turn} {counts : DispatchCounts} {σ : Mill}
    (h : (takeTurn env svc tid allowed t counts σ).goesOn = true) :
    t.Admits ∧ ∃ url outcome, t.ended = .returned url outcome ∧
      (FixingCi env svc tid (takeTurn env svc tid allowed t counts σ).mill → LeadsToCi outcome) := by
  obtain ⟨hadmits, ticket, stage, -, hturn⟩ := takeTurn_started (.inr h)
  refine ⟨hadmits, ?_⟩
  have hrun : ∀ counts' : DispatchCounts, ∀ σ' : Mill, (runStage env svc tid stage ticket t counts' σ').goesOn = true →
      ∃ url outcome, t.ended = .returned url outcome ∧
        (FixingCi env svc tid (runStage env svc tid stage ticket t counts' σ').mill → LeadsToCi outcome) := by
    intro counts' σ' hgo
    unfold runStage at hgo ⊢
    cases hend : t.ended with
    | raised handler => rw [hend] at hgo; cases hgo
    | returned url outcome =>
      refine ⟨url, outcome, rfl, ?_⟩
      rw [hend] at hgo
      dsimp only at hgo ⊢
      cases hfinish : finish env svc tid stage ticket url outcome (t.run σ') with
      | mk σ'' res =>
        rw [hfinish] at hgo
        cases res with
        | error e => cases hgo
        | ok goesOn =>
          obtain rfl : goesOn = true := hgo
          exact leadsToCi_of_finish hfinish
  rw [hturn] at h ⊢
  unfold startStage at h ⊢
  dsimp only at h ⊢
  split at h
  · split at h
    · cases h
    · rename_i hcounted hle
      rw [if_pos hcounted, if_neg hle]
      exact hrun _ _ h
  · rename_i hcounted
    rw [if_neg hcounted]
    exact hrun _ _ h

theorem count_toList_of_ne {ran : Option String} {stage : String} (h : ran ≠ some stage) : ran.toList.count stage = 0 := by
  simp [List.count_eq_zero, Option.mem_toList, h]

/-- **`ci_fix` runs at most as often as the turns open it.** -/
theorem count_ciFix_le {fixing : Prop} {ts : List Turn} {n : Nat} (h : OpensAtMost env svc tid fixing ts n)
    (counts : DispatchCounts) (σ : Mill) (hfixing : FixingCi env svc tid σ → fixing) :
    ((visits env svc tid allowed ts counts σ).filterMap (Visit.ran env svc tid allowed)).count "ci_fix" ≤ n := by
  induction h generalizing counts σ with
  | nil => exact Nat.zero_le _
  | @ends fixing t ts n hshut =>
    have hran : (takeTurn env svc tid allowed t counts σ).ran ≠ some "ci_fix" := fun h => hshut (fixingCi_of_ran h).1
    have hstop : (takeTurn env svc tid allowed t counts σ).goesOn = false :=
      Bool.eq_false_iff.2 fun h => hshut (leadsToCi_of_goesOn h).1
    have hnone : (takeTurn env svc tid allowed t counts σ).ran.toList.count "ci_fix" = 0 := count_toList_of_ne hran
    rw [filterMap_visits_cons, hstop, List.count_append, hnone]
    exact Nat.zero_le _
  | @passes fixing t ts n hnot hkeeps _ ih =>
    have hran : (takeTurn env svc tid allowed t counts σ).ran ≠ some "ci_fix" := fun h =>
      hnot (hfixing (hkeeps _ (fixingCi_of_ran h).2))
    have hnone : (takeTurn env svc tid allowed t counts σ).ran.toList.count "ci_fix" = 0 := count_toList_of_ne hran
    rw [filterMap_visits_cons, List.count_append, hnone, Nat.zero_add]
    split
    · rename_i hgo
      obtain ⟨-, url, outcome, hend, hleads⟩ := leadsToCi_of_goesOn hgo
      exact ih url outcome hend _ _ hleads
    · exact Nat.zero_le _
  | @opens fixing t ts n _ ih =>
    have hone : (takeTurn env svc tid allowed t counts σ).ran.toList.count "ci_fix" ≤ 1 :=
      List.count_le_length.trans (by cases (takeTurn env svc tid allowed t counts σ).ran <;> simp)
    rw [filterMap_visits_cons, List.count_append, Nat.add_comm]
    refine Nat.add_le_add ?_ hone
    split
    · rename_i hgo
      obtain ⟨-, url, outcome, hend, hleads⟩ := leadsToCi_of_goesOn hgo
      exact ih url outcome hend _ _ hleads
    · exact Nat.zero_le _

end Facts

/-- The stages that run an agent in the cycle of implementation, review and CI. -/
def AGENT_STAGES : List String := ["refine", "implement", "review", "ci_fix"]

/-- **Agent runs in one pass.** Under a ceiling every agent stage runs at most that often, if at most that many turns
    may find the ticket in `fixing_ci` and start a stage. -/
theorem stageRuns_bounded (env : Env) (svc : BoardId) (tid : TicketId) (allowed : Option (List State)) (ts : List Turn)
    (σ : Mill) (hlimit : 0 < ticketStateCycleLimitEffective env.settings)
    (hopens : OpensAtMost env svc tid (FixingCi env svc tid σ) ts (ticketStateCycleLimitEffective env.settings)) :
    ∀ stage ∈ AGENT_STAGES,
      (stageRuns env svc tid allowed ts σ).count stage ≤ ticketStateCycleLimitEffective env.settings := by
  intro stage hstage
  have hbound : traced stage = true →
      (stageRuns env svc tid allowed ts σ).count stage ≤ ticketStateCycleLimitEffective env.settings := by
    intro htraced
    have h := @count_visits_le env svc tid allowed stage htraced hlimit ts (fun _ => 0) σ (Nat.zero_le _)
    rwa [Nat.zero_add] at h
  simp only [AGENT_STAGES, List.mem_cons, List.not_mem_nil, or_false] at hstage
  rcases hstage with rfl | rfl | rfl | rfl
  · exact hbound (by decide)
  · exact hbound (by decide)
  · exact hbound (by decide)
  · exact count_ciFix_le hopens (fun _ => 0) σ id

/-- The mill is left alone, and the stage returns. -/
def quietTurn (next : State) : Turn where
  meanwhile := id
  fullPath := none
  preflightEffect := id
  preflight := some none
  run := id
  ended := .returned none { nextState := next }

theorem keepsOut_quietTurn (env : Env) (svc : BoardId) (tid : TicketId) (next : State) :
    (quietTurn next).KeepsOut env svc tid := fun _ h => h

/-- CI is red twice, and fixed twice. -/
def twoFixes : List Turn := (List.replicate 2 [quietTurn .implementComplete, quietTurn .fixingCi]).flatten ++
  [quietTurn .implementComplete, quietTurn .implementComplete]

theorem stageRuns_bounded_two_fixes :
    let σ := runOps .standalone .empty [.create "board" { id := "t-1", title := "ticket", initialState := some .fixingCi }]
    stageRuns .standalone "board" "t-1" none twoFixes σ = ["ci_fix", "merge", "ci_fix", "merge", "ci_fix", "merge"] ∧
    ∀ stage ∈ AGENT_STAGES, (stageRuns .standalone "board" "t-1" none twoFixes σ).count stage ≤
      ticketStateCycleLimitEffective Env.standalone.settings := by
  refine ⟨by decide +kernel, stageRuns_bounded _ _ _ _ _ _ (by decide) ?_⟩
  have hout : ¬ LeadsToCi { nextState := .implementComplete } := by
    rintro (h | h)
    · cases h
    · exact absurd h (by decide)
  have hkeeps := keepsOut_quietTurn .standalone "board" "t-1"
  refine .opens ?_
  rintro _ _ ⟨⟩
  refine .passes hout (hkeeps _) ?_
  rintro _ _ ⟨⟩
  refine .opens ?_
  rintro _ _ ⟨⟩
  refine .passes hout (hkeeps _) ?_
  rintro _ _ ⟨⟩
  refine .opens ?_
  rintro _ _ ⟨⟩
  refine .passes hout (hkeeps _) ?_
  rintro _ _ ⟨⟩
  exact .nil

/-- The agent pushes a fix, the poll finds CI red again: under the default ceiling of four `ci_fix` runs five
    times in one pass. -/
theorem ciFix_outruns_ceiling :
    ticketStateCycleLimitEffective Env.standalone.settings = 4 ∧
    stageRuns .standalone "board" "t-1" none
        ((List.replicate 4 [quietTurn .implementComplete, quietTurn .fixingCi]).flatten ++
          [quietTurn .implementComplete])
        (runOps .standalone .empty
          [.create "board" { id := "t-1", title := "ticket", initialState := some .fixingCi }]) =
      ["ci_fix", "merge", "ci_fix", "merge", "ci_fix", "merge", "ci_fix", "merge", "ci_fix"] := by
  decide +kernel

end Runtime
end RobotsixMill
