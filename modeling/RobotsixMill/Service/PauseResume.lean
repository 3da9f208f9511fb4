import RobotsixMill.Service.History
import RobotsixMill.Service.Refinement

/-!
# `Service.PauseResume` — a pause remembers the state it interrupted

`paused_from` is written when a ticket enters `awaiting_user_reply`, kept through an escalation to
`blocked`, and should be forgotten when the pause is abandoned. `redraft`, `mark_done` and the
overrides that move a ticket blocked while paused elsewhere do not forget it. In a run without such a
call (`leavesStalePause`) the column is exactly the state the current pause interrupted (`PauseInv`),
which the history shows as well.
-/

namespace RobotsixMill
namespace Service
open RobotsixMill.Core Lib

/-! ## The invariant -/

/-- A state a ticket works in: neither paused nor blocked. -/
def active (s : State) : Bool := !decide (s = .awaitingUserReply) && !decide (s = .blocked)

/-- The ticket is paused, or blocked while it was. -/
def InPause (t : Ticket) : Prop :=
  t.state = .awaitingUserReply ∨ (t.state = .blocked ∧ t.blockedFrom = some .awaitingUserReply)

/-- What `paused_from` says about a ticket and its history. -/
structure PauseInv (r : TicketRecord) : Prop where
  /-- Only a pause leaves a mark. -/
  inPause : r.ticket.pausedFrom ≠ none → InPause r.ticket
  notSelf : r.ticket.pausedFrom ≠ some .awaitingUserReply
  /-- In a pause, the mark is the state worked in last. -/
  origin : InPause r.ticket → ∀ s, latestWhere active r.events = some s → r.ticket.pausedFrom = some s
  /-- A ticket at work is in the state worked in last. -/
  current : active r.ticket.state = true → latestWhere active r.events = some r.ticket.state

/-- The commits that keep the invariant: those that do not leave a pause with its mark in place, and
    none that shortens the history. -/
def pauseKept : Commit → Prop
  | .change _ r (.transition _ dst _ _) =>
    r.ticket.state = .blocked → r.ticket.pausedFrom ≠ none → dst = .awaitingUserReply
  | .change _ r (.redraft _ _ _) | .change _ r (.markDone _ _ _ _) => r.ticket.pausedFrom = none
  | .change _ _ (.purgeEvents _) => False
  | _ => True

theorem routine_pauseKept : Routine pauseKept where
  delete _ := trivial
  unblock _ _ _ _ := trivial
  answerUnblock _ _ _ _ := trivial
  comments _ _ _ _ := trivial

/-! ## One commit -/

variable {tid : TicketId} {r : TicketRecord}

/-- At work, nothing is marked. -/
theorem PauseInv.pausedFrom_eq_none (h : PauseInv r) (ha : active r.ticket.state = true) :
    r.ticket.pausedFrom = none := by
  by_contra hp
  rcases h.inPause hp with hs | ⟨hs, -⟩ <;> simp [hs, active] at ha

/-- A move to a working state that forgets the mark starts afresh. -/
theorem PauseInv.of_active {r' : TicketRecord} (hs : active r'.ticket.state = true)
    (hp : r'.ticket.pausedFrom = none)
    (he : latestWhere active r'.events = some r'.ticket.state) : PauseInv r' where
  inPause h := absurd hp h
  notSelf h := by rw [hp] at h; cases h
  origin h := by rcases h with h | ⟨h, -⟩ <;> simp [h, active] at hs
  current _ := he

/-- Entering or re-entering a pause. -/
theorem pauseInv_transition_awaiting (h : PauseInv r) (now : Nat → DateTime)
    (note reason : Option String)
    (hc : canTransition r.ticket.state .awaitingUserReply r.ticket.blockedFrom r.ticket.pausedFrom
      = true) :
    PauseInv (transitionRecord tid now .awaitingUserReply note reason r) := by
  have hself : r.ticket.state ≠ .awaitingUserReply := by
    intro hs
    rw [hs] at hc
    exact h.notSelf (canTransition_awaiting_self hc)
  have hlast : latestWhere active
      (transitionRecord tid now .awaitingUserReply note reason r).events
        = latestWhere active r.events := by
    simp [transitionRecord, latestWhere_appendEvent, active]
  refine ⟨fun _ => .inl rfl, ?_, ?_, ?_⟩
  · show (if r.ticket.pausedFrom = none then some r.ticket.state else r.ticket.pausedFrom) ≠ _
    split
    · intro hs; exact hself (Option.some.inj hs)
    · exact h.notSelf
  · intro _ s hs
    rw [hlast] at hs
    show (if r.ticket.pausedFrom = none then some r.ticket.state else r.ticket.pausedFrom) = some s
    by_cases ha : active r.ticket.state = true
    · -- a new pause: the state left is the one worked in last
      rw [if_pos (h.pausedFrom_eq_none ha), ← h.current ha, hs]
    · -- back from `blocked`: only a ticket blocked while paused gets here
      have hb : r.ticket.state = .blocked := by
        simpa [active, hself] using ha
      have hbf : r.ticket.blockedFrom = some .awaitingUserReply := by
        simpa [hb, canTransition, TRANSITIONS] using hc
      have hp := h.origin (.inr ⟨hb, hbf⟩) s hs
      rw [hp]; rfl
  · intro ha; simp [transitionRecord, transitionTicket, active] at ha

/-- Escalating to `blocked` keeps the mark. -/
theorem pauseInv_transition_blocked (h : PauseInv r) (now : Nat → DateTime)
    (note reason : Option String)
    (hc : canTransition r.ticket.state .blocked r.ticket.blockedFrom r.ticket.pausedFrom = true) :
    PauseInv (transitionRecord tid now .blocked note reason r) := by
  have hp : (transitionRecord tid now .blocked note reason r).ticket.pausedFrom
      = r.ticket.pausedFrom := by
    simp [transitionRecord, transitionTicket]
  have hlast : latestWhere active (transitionRecord tid now .blocked note reason r).events
      = latestWhere active r.events := by
    simp [transitionRecord, latestWhere_appendEvent, active]
  refine ⟨?_, ?_, ?_, ?_⟩
  · intro hne
    rw [hp] at hne
    refine .inr ⟨rfl, ?_⟩
    show (some r.ticket.state : Option State) = _
    rcases h.inPause hne with hs | ⟨hs, hbf⟩
    · rw [hs]
    · simp [hs, hbf, canTransition, TRANSITIONS] at hc
  · rw [hp]; exact h.notSelf
  · intro hin s hs
    rw [hlast] at hs
    rw [hp]
    rcases hin with hin | ⟨-, hin⟩
    · cases hin
    · exact h.origin (.inl (Option.some.inj hin)) s hs
  · intro ha; simp [transitionRecord, transitionTicket, active] at ha

/-- **`transition` keeps the invariant** unless it moves a ticket blocked while paused elsewhere. -/
theorem pauseInv_transition (h : PauseInv r) (now : Nat → DateTime) {dst : State}
    (note reason : Option String)
    (hc : canTransition r.ticket.state dst r.ticket.blockedFrom r.ticket.pausedFrom = true)
    (hkeep : r.ticket.state = .blocked → r.ticket.pausedFrom ≠ none → dst = .awaitingUserReply) :
    PauseInv (transitionRecord tid now dst note reason r) := by
  by_cases hda : dst = .awaitingUserReply
  · subst hda; exact pauseInv_transition_awaiting h now note reason hc
  by_cases hdb : dst = .blocked
  · subst hdb; exact pauseInv_transition_blocked h now note reason hc
  refine .of_active (by simp [transitionRecord, transitionTicket, active, hda, hdb]) ?_ ?_
  · show (if dst = .awaitingUserReply then _ else if r.ticket.state = .awaitingUserReply ∧
      dst ≠ .blocked then none else r.ticket.pausedFrom) = none
    rw [if_neg hda]
    by_cases hs : r.ticket.state = .awaitingUserReply
    · rw [if_pos ⟨hs, hdb⟩]
    · rw [if_neg (fun hh => hs hh.1)]
      by_contra hp
      rcases h.inPause hp with hs' | ⟨hs', -⟩
      · exact hs hs'
      · exact hda (hkeep hs' hp)
  · simp [transitionRecord, transitionTicket, latestWhere_appendEvent, active, hda, hdb]

/-- An unblocked ticket goes back into its pause if it was blocked while paused. -/
theorem unblockDst_of_inPause (hbf : r.ticket.blockedFrom = some .awaitingUserReply) :
    unblockDst r.ticket = .awaitingUserReply := by
  simp [unblockDst, hbf, canTransition]

theorem pauseInv_unblock (h : PauseInv r) (now : Nat → DateTime) (note : Option String)
    (hr : transitionRefusal tid (unblockDst r.ticket) r = none) :
    PauseInv (transitionRecord tid now (unblockDst r.ticket) note none r) := by
  refine pauseInv_transition h now note none (canTransition_of_refusal_none hr) ?_
  intro hb hp
  rcases h.inPause hp with hs | ⟨-, hbf⟩
  · rw [hb] at hs; cases hs
  · exact unblockDst_of_inPause hbf

/-- Resuming a blocked ticket: back into the pause, or a fresh start. -/
theorem pauseInv_resume (h : PauseInv r) (s : Settings) (now : Nat → DateTime) (cid : CommentId)
    (note eventNote : String) (hb : r.ticket.state = .blocked) {dst : State}
    (hbf : r.ticket.blockedFrom = some dst) :
    PauseInv (resumeRecord s tid now cid note eventNote r) := by
  have hst : (resumeRecord s tid now cid note eventNote r).ticket.state = dst := by
    simp [resumeRecord, hbf]
  have hp : (resumeRecord s tid now cid note eventNote r).ticket.pausedFrom = r.ticket.pausedFrom :=
    rfl
  have hlast : latestWhere active (resumeRecord s tid now cid note eventNote r).events
      = if active dst then some dst else latestWhere active r.events := by
    simp [resumeRecord, hbf, latestWhere_appendEvent]
  have hin : r.ticket.pausedFrom ≠ none → dst = .awaitingUserReply := by
    intro hne
    rcases h.inPause hne with hs | ⟨-, hbf'⟩
    · rw [hb] at hs; cases hs
    · rw [hbf] at hbf'; exact Option.some.inj hbf'
  by_cases hda : dst = .awaitingUserReply
  · subst hda
    refine ⟨fun _ => .inl hst, by rw [hp]; exact h.notSelf, ?_, ?_⟩
    · intro _ s' hs'
      rw [hlast] at hs'
      rw [hp]
      exact h.origin (.inr ⟨hb, hbf⟩) s' (by simpa [active] using hs')
    · intro ha; rw [hst] at ha; simp [active] at ha
  · have hnone : r.ticket.pausedFrom = none := by
      by_contra hne; exact hda (hin hne)
    refine ⟨fun hne => absurd (hp.trans hnone) hne, by rw [hp]; exact h.notSelf, ?_, ?_⟩
    · intro hin'
      rcases hin' with hs | ⟨-, hbf'⟩
      · rw [hst] at hs; exact absurd hs hda
      · cases hbf'
    · intro ha
      rw [hst] at ha ⊢
      rw [hlast, if_pos ha]

/-- The auto-resume ends the pause. -/
theorem pauseInv_autoResume (h : PauseInv r) (now : Nat → DateTime) {dst : State}
    (hd : autoResumeDst r = some dst) : PauseInv (autoResumeRecord tid now dst r) := by
  obtain ⟨hs, -, ht⟩ := autoResumeDst_eq_some.1 hd
  have hne := resumeTarget_ne_awaiting h.notSelf ht
  refine ⟨?_, ?_, ?_, ?_⟩
  · intro hp; exact absurd rfl hp
  · intro hp; cases hp
  · intro hin
    rcases hin with hin | ⟨-, hin⟩
    · exact absurd hin hne
    · cases hin
  · intro ha
    have ha' : active dst = true := ha
    simp [autoResumeRecord, latestWhere_appendEvent, ha']

/-- A move of a ticket at work to another working state by a session that keeps `paused_from`. -/
theorem PauseInv.move (h : PauseInv r) {r' : TicketRecord} (ha : active r.ticket.state = true)
    (hs : active r'.ticket.state = true) (hp : r'.ticket.pausedFrom = r.ticket.pausedFrom)
    (he : latestWhere active r'.events = some r'.ticket.state) : PauseInv r' :=
  .of_active hs (hp.trans (h.pausedFrom_eq_none ha)) he

/-- An event that repeats the current state changes no reading. -/
theorem PauseInv.sameState (h : PauseInv r) {r' : TicketRecord} {note : Option String} {now : DateTime}
    (hs : r'.ticket.state = r.ticket.state) (hb : r'.ticket.blockedFrom = r.ticket.blockedFrom)
    (hp : r'.ticket.pausedFrom = r.ticket.pausedFrom)
    (he : r'.events = appendEvent tid r.events r.ticket.state note now) : PauseInv r' := by
  have hlast : latestWhere active r'.events = latestWhere active r.events := by
    rw [he, latestWhere_appendEvent]
    by_cases ha : active r.ticket.state = true
    · rw [if_pos ha, h.current ha]
    · rw [if_neg ha]
  have hin : InPause r'.ticket ↔ InPause r.ticket := by simp [InPause, hs, hb]
  refine ⟨fun hne => hin.2 (h.inPause (hp ▸ hne)), hp ▸ h.notSelf, ?_, ?_⟩
  · intro hi s hl
    rw [hp]
    exact h.origin (hin.1 hi) s (hlast ▸ hl)
  · intro ha
    rw [hlast, hs]
    exact h.current (hs ▸ ha)

/-- **Every permitted commit keeps the invariant.** -/
theorem stable_pauseInv : Stable pauseKept fun _ r => PauseInv r where
  create k r _ hf := by
    obtain ⟨now, he⟩ := hf.events
    refine ⟨fun hp => absurd hf.pausedFrom hp, by simp [hf.pausedFrom], ?_, ?_⟩
    · intro hin s hs
      rw [he, latestWhere_appendEvent] at hs
      rcases hin with hin | ⟨hin, -⟩ <;> simp [hin, active] at hs
    · intro ha
      rw [he, latestWhere_appendEvent, if_pos ha]
  copy src dst r now note cs _ _ h := by
    refine .of_active (by simp [migrateRecord, migrateTicket, active]) rfl ?_
    simp [migrateRecord, migrateTicket, latestWhere_appendEvent, active]
  change k r c hcond hal h := by
    cases c with
    | transition now dst note reason =>
        exact pauseInv_transition h now note reason (canTransition_of_refusal_none hal.2) hcond
    | unblock now note => exact pauseInv_unblock h now _ hal.2
    | answerUnblock now note =>
        refine pauseInv_transition h now _ _ ?_ (fun _ _ => rfl)
        simp [hal.1, hal.2, canTransition]
    | resumeBlocked s now cid note eventNote =>
        obtain ⟨hb, dst, hbf⟩ := resume_allowed hal
        exact pauseInv_resume h s now cid note eventNote hb hbf
    | requestChanges now cid body author =>
        have hs : r.ticket.state = .humanIssueApproval := by
          by_contra hs; simp [Change.Allowed, requestChangesRefusal, hs] at hal
        refine h.move (by simp [hs, active]) (by rfl) rfl ?_
        simp [Change.apply, requestChangesRecord, sendBackRecord, latestWhere_appendEvent, active]
    | requestImplementationChanges now cid body author =>
        have hs : r.ticket.state = .humanMrApproval := by
          by_contra hs
          by_cases hbl : isBlank body = true <;>
            simp [Change.Allowed, requestImplementationChangesRefusal, hs, hbl] at hal
        refine h.move (by simp [hs, active]) (by rfl) rfl ?_
        simp [Change.apply, requestImplementationChangesRecord, sendBackRecord,
          latestWhere_appendEvent, active]
    | redraft now body cost =>
        exact .of_active rfl hcond (by
          simp [Change.apply, redraftRecord, latestWhere_appendEvent, active])
    | markDone now cid note author =>
        exact .of_active rfl hcond (by
          simp [Change.apply, markDoneRecord, latestWhere_appendEvent, active])
    | closeTracker now note =>
        exact .of_active rfl rfl (by
          simp [Change.apply, closeTrackerRecord, latestWhere_appendEvent, active])
    | autoResume now dst => exact pauseInv_autoResume h now hal
    | historyNote now note => exact h.sameState rfl rfl rfl rfl
    | stepEvent now note => exact h.sameState rfl rfl rfl rfl
    | purgeEvents cap => exact hcond.elim
    | comments cs => exact ⟨h.inPause, h.notSelf, h.origin, h.current⟩
    | migrate now note cs =>
        refine .of_active (by simp [Change.apply, migrateRecord, migrateTicket, active]) rfl ?_
        simp [Change.apply, migrateRecord, migrateTicket, latestWhere_appendEvent, active]

/-! ## Runs of operations -/

/-- The calls that leave a pause with its mark in place: a redraft or a mark-done of a marked ticket,
    and an override that moves a ticket blocked while paused anywhere but back into the pause. -/
def leavesStalePause (env : Env) (σ : Mill) : Op → Bool
  | .redraft svc tid _ => fetched env svc σ tid fun _ r =>
      r.ticket.pausedFrom.isSome && (redraftRefusal tid r.ticket).isNone && env.repos.isSome &&
        (env.sessionCost σ.ticks tid).isSome
  | .markDone svc tid _ _ => fetched env svc σ tid fun k r =>
      r.ticket.pausedFrom.isSome && (markDoneRefusal tid r.ticket).isNone &&
        (unmergedRefusal env k r.ticket σ).isNone
  | .transition svc tid dst _ _ => fetched env svc σ tid fun _ r =>
      r.ticket.pausedFrom.isSome && decide (r.ticket.state = .blocked) &&
        !decide (dst = .awaitingUserReply) && (transitionRefusal tid dst r).isNone
  | _ => false

/-- The calls a run may make for pauses to stay intact. -/
def keepsPauses (env : Env) (σ : Mill) (op : Op) : Bool :=
  !op.purges && !leavesStalePause env σ op

theorem admits_of_keepsPauses {env : Env} {σ : Mill} {op : Op} (h : keepsPauses env σ op = true) :
    Admits pauseKept env σ op := by
  obtain ⟨hpurge, hstale⟩ : op.purges = false ∧ leavesStalePause env σ op = false := by
    simpa [keepsPauses] using h
  cases op with
  | transition svc tid dst note reason =>
      intro k r now hf _ hr hb hp
      have hf' := of_fetched_eq_false hstale hf
      by_contra hdst
      simp [hb, hdst, hr, Option.isSome_iff_ne_none.2 hp] at hf'
  | redraft svc tid body =>
      intro k r now cost hf hr hrepos hcost
      have hf' := of_fetched_eq_false hstale hf
      show r.ticket.pausedFrom = none
      by_contra hp
      simp [hr, hrepos, hcost, Option.isSome_iff_ne_none.2 hp] at hf'
  | markDone svc tid note author =>
      intro k r now cid note hf hr hm
      have hf' := of_fetched_eq_false hstale hf
      show r.ticket.pausedFrom = none
      by_contra hp
      simp [hr, hm, Option.isSome_iff_ne_none.2 hp] at hf'
  | purgeTicketEvents svc tid => cases hpurge
  | create svc args => exact fun _ _ _ => trivial
  | resumeBlocked svc tid note => exact fun _ _ _ _ _ _ _ _ => trivial
  | requestChanges svc tid body author => exact fun _ _ _ _ _ => trivial
  | requestImplementationChanges svc tid body author => exact fun _ _ _ _ _ => trivial
  | closeTracker svc tid note => exact fun _ _ _ _ => trivial
  | migrate svc tid target note => exact fun _ _ _ _ _ _ _ _ _ _ _ _ => trivial
  | addComment svc tid body author pid => exact fun _ _ _ _ _ _ => trivial
  | closeThread svc cid tid => exact fun _ _ _ _ _ _ => trivial
  | answerPendingQuestion svc tid body author change =>
      refine ⟨fun _ k r _ r' now hs hb => ?_, fun _ _ _ _ _ _ => trivial⟩
      rw [hs] at hb
      cases hb
  | addHistoryNote svc tid note => exact fun _ _ _ _ => trivial
  | addStepEvent svc tid note => exact fun _ _ _ _ => trivial

/-- Every stored record meets the invariant. -/
theorem pauseInv_of_run {env : Env} {ops : List Op} {σ : Mill}
    (hrun : OpRun env (fun σ op => keepsPauses env σ op = true) Mill.empty ops σ) {k : Key}
    {r : TicketRecord} (hget : σ.records.get k = some r) : PauseInv r :=
  records_invariant (P := fun _ r => PauseInv r) routine_pauseKept stable_pauseInv
    (fun _ _ h => admits_of_keepsPauses h) hrun k r hget

/-! ## The round trip -/

/-- A transition that returns has passed its guards. -/
theorem of_transition_ok {env : Env} {svc : BoardId} {tid : TicketId} {dst : State}
    {note reason : Option String} {σ σ' : Mill} {k : Key} {r : TicketRecord}
    (hf : fetch env svc σ tid = .ok (k, r)) (hn : transitionNoop r.ticket dst = false)
    (ht : transition env svc tid dst note reason σ = (σ', .ok ())) :
    transitionRefusal tid dst r = none := by
  cases hr : transitionRefusal tid dst r with
  | none => rfl
  | some e => simp [transition, transitionSession, hf, hn, hr] at ht

/-- Pausing a ticket at work marks the state it leaves. -/
theorem transition_awaiting_of_active {env : Env} {svc : BoardId} {tid : TicketId}
    {note reason : Option String} {σ σ' : Mill} {k : Key} {r : TicketRecord}
    (hf : fetch env svc σ tid = .ok (k, r))
    (ht : transition env svc tid .awaitingUserReply note reason σ = (σ', .ok ())) :
    σ' = commitTransition env k r .awaitingUserReply note reason σ := by
  have hn : transitionNoop r.ticket .awaitingUserReply = false := by
    simp [transitionNoop, TERMINAL_EPIC_STATES]
  rw [transition_eq_commit hf hn (of_transition_ok hf hn ht) (by decide) (by decide)] at ht
  exact (Prod.mk.inj ht).1.symm

/-- The auto-resume of an answered pause goes to the state worked in last. -/
theorem maybeResume_of_answered {env : Env} {σ : Mill} {k : Key} {r : TicketRecord} {s : State}
    (h : PauseInv r) (hget : σ.records.get k = some r) (hs : r.ticket.state = .awaitingUserReply)
    (hq : questionsAnswered r = true) (hlast : latestWhere active r.events = some s) :
    ∃ r', (maybeResumeAwaitingUserReply env k σ).records.get k = some r' ∧ r'.ticket.state = s := by
  have hp : r.ticket.pausedFrom = some s := h.origin (.inl hs) s hlast
  have hd : autoResumeDst r = some s := autoResumeDst_eq_some.2 ⟨hs, hq, by simp [resumeTarget, hp]⟩
  refine ⟨autoResumeRecord k.2 (σ.now env) s r, ?_, rfl⟩
  simp [maybeResumeAwaitingUserReply, hget, hd]

/-- The calls that answer questions and ask for no change. -/
def answersOnly : Op → Bool
  | .addComment _ _ _ _ _ | .closeThread _ _ _ => true
  | .answerPendingQuestion _ _ _ _ requiresChange => !requiresChange
  | _ => false

/-- The commits of such a call. -/
def answering : Commit → Prop
  | .change _ _ (.autoResume _ _) | .change _ _ (.comments _) | .change _ _ (.unblock _ _)
  | .change _ _ (.answerUnblock _ _) | .delete _ => True
  | _ => False

theorem admits_of_answersOnly {env : Env} {σ : Mill} {op : Op} (h : answersOnly op = true) :
    Admits answering env σ op := by
  cases op with
  | addComment svc tid body author pid => exact fun _ _ _ _ _ _ => trivial
  | closeThread svc cid tid => exact fun _ _ _ _ _ _ => trivial
  | answerPendingQuestion svc tid body author change =>
      refine ⟨fun hc => ?_, fun _ _ _ _ _ _ => trivial⟩
      subst hc
      cases h
  | _ => cases h

/-- The record of `k₀` is in the pause that began at `s`, or back in `s`. -/
def PausedAt (k₀ : Key) (s : State) (k : Key) (r : TicketRecord) : Prop :=
  k = k₀ → PauseInv r ∧ latestWhere active r.events = some s ∧
    (InPause r.ticket ∨ r.ticket.state = s)

/-- The commits of an answer keep a ticket in its pause or end it where it began. -/
theorem stable_pausedAt (k₀ : Key) (s : State) : Stable answering (PausedAt k₀ s) where
  create _ _ h := h.elim
  copy _ _ _ _ _ _ h := h.elim
  change k r c hcond hal h := by
    intro hk
    obtain ⟨hinv, hlast, hin⟩ := h hk
    have hact : active s = true := by
      obtain ⟨-, -, -, -, -, hs, -⟩ := exists_split_of_latestWhere hlast
      exact hs
    -- a blocked ticket is blocked in its pause, for `s` is a working state
    have hbl : r.ticket.state = .blocked → r.ticket.blockedFrom = some .awaitingUserReply := by
      intro hb
      rcases hin with (hs | ⟨-, hbf⟩) | hs
      · rw [hb] at hs; cases hs
      · exact hbf
      · rw [← hs, hb] at hact; cases hact
    cases c with
    | unblock now note =>
        have hdst := unblockDst_of_inPause (hbl hal.1)
        refine ⟨pauseInv_unblock hinv now _ hal.2, ?_, .inl (.inl hdst)⟩
        show latestWhere active (appendEvent _ _ _ _ _) = _
        rw [latestWhere_appendEvent, hdst, if_neg (by decide)]
        exact hlast
    | answerUnblock now note =>
        refine ⟨?_, ?_, .inl (.inl rfl)⟩
        · refine pauseInv_transition hinv now _ _ ?_ (fun _ _ => rfl)
          simp [hal.1, hal.2, canTransition]
        · show latestWhere active (appendEvent _ _ _ _ _) = _
          rw [latestWhere_appendEvent, if_neg (by decide)]
          exact hlast
    | autoResume now dst =>
        obtain ⟨hs, -, ht⟩ := autoResumeDst_eq_some.1 hal
        have hdst : dst = s := by
          have hp := hinv.origin (.inl hs) s hlast
          simp only [resumeTarget, hp] at ht
          exact (Option.some.inj ht).symm
        refine ⟨pauseInv_autoResume hinv now hal, ?_, .inr hdst⟩
        show latestWhere active (appendEvent _ _ _ _ _) = _
        rw [latestWhere_appendEvent, hdst, if_pos hact]
    | comments cs => exact ⟨⟨hinv.inPause, hinv.notSelf, hinv.origin, hinv.current⟩, hlast, hin⟩
    | _ => exact hcond.elim

theorem routine_answering : Routine answering where
  delete _ := trivial
  unblock _ _ _ _ := trivial
  answerUnblock _ _ _ _ := trivial
  comments _ _ _ _ := trivial

/-- An answer leaves a paused ticket in its pause or brings it back to the state it began in. -/
theorem state_of_answer {env : Env} {σ σ' : Mill} {k : Key} {r r' : TicketRecord} {s : State}
    {op : Op} (h : PauseInv r) (hget : σ.records.get k = some r) (hin : InPause r.ticket)
    (hlast : latestWhere active r.events = some s) (hop : answersOnly op = true)
    (hstep : OpStep env σ op σ') (hget' : σ'.records.get k = some r') :
    InPause r'.ticket ∨ r'.ticket.state = s := by
  have hall : σ.records.AllRows (PausedAt k s) := by
    intro k' r₁ hget₁ hk
    subst hk
    rw [hget] at hget₁
    cases hget₁
    exact ⟨h, hlast, .inl hin⟩
  have hall' := records_invariant_op routine_answering (stable_pausedAt k s)
    (admits_of_answersOnly hop) hall hstep
  exact (hall' k r' hget' rfl).2.2

/-- **The pause/resume round trip.** In a run without a call that leaves a stale mark, a ticket paused
    in state `s` is marked with `s`. As long as the pause lasts, whatever answers it leaves the ticket
    paused or brings it back to `s`, and the auto-resume of an answered pause brings it back to `s`. -/
theorem pause_resume_round_trip {env : Env} {ops₁ : List Op} {σ₁ σ₂ : Mill} {svc : BoardId}
    {tid : TicketId} {note reason : Option String} {k : Key} {r : TicketRecord}
    (hrun₁ : OpRun env (fun σ op => keepsPauses env σ op = true) Mill.empty ops₁ σ₁)
    (hf : fetch env svc σ₁ tid = .ok (k, r)) (ha : active r.ticket.state = true)
    (ht : transition env svc tid .awaitingUserReply note reason σ₁ = (σ₂, .ok ())) :
    ∃ r₂, σ₂.records.get k = some r₂ ∧ r₂.ticket.state = .awaitingUserReply ∧
      r₂.ticket.pausedFrom = some r.ticket.state ∧
      ∀ (ops₂ : List Op) (σ₃ : Mill) (r₃ : TicketRecord) (post : List TicketEvent),
        OpRun env (fun σ op => keepsPauses env σ op = true) σ₂ ops₂ σ₃ →
        σ₃.records.get k = some r₃ → InPause r₃.ticket → r₃.events = r₂.events ++ post →
        (∀ e ∈ post, active e.state = false) →
        (∀ op σ₄ r₄, answersOnly op = true → OpStep env σ₃ op σ₄ → σ₄.records.get k = some r₄ →
          InPause r₄.ticket ∨ r₄.ticket.state = r.ticket.state) ∧
        (∀ cs, r₃.ticket.state = .awaitingUserReply →
          questionsAnswered { r₃ with comments := cs } = true →
          ∃ r₄, (maybeResumeAwaitingUserReply env k (σ₃.putComments k r₃ cs)).records.get k = some r₄ ∧
            r₄.ticket.state = r.ticket.state) := by
  obtain ⟨-, hget⟩ := get_of_fetch hf
  have hinv := pauseInv_of_run hrun₁ hget
  have hσ₂ := transition_awaiting_of_active hf ht
  have hget₂ : σ₂.records.get k =
      some (transitionRecord k.2 (σ₁.now env) .awaitingUserReply note reason r) := by
    rw [hσ₂, records_commitTransition, Table.get_put_self]
  have hmark : (transitionRecord k.2 (σ₁.now env) .awaitingUserReply note reason r).ticket.pausedFrom
      = some r.ticket.state := by
    simp [transitionRecord, transitionTicket, hinv.pausedFrom_eq_none ha]
  refine ⟨_, hget₂, rfl, hmark, ?_⟩
  intro ops₂ σ₃ r₃ post hrun₂ hget₃ hin₃ hevents hpost
  -- the pause itself is a permitted call, so the two runs join
  have hkeep : keepsPauses env σ₁ (.transition svc tid .awaitingUserReply note reason) = true := by
    simp [keepsPauses, leavesStalePause, Op.purges, fetched, hf]
  have hstep : OpStep env σ₁ (.transition svc tid .awaitingUserReply note reason) σ₂ := by
    show (transition env svc tid .awaitingUserReply note reason σ₁).1 = σ₂
    rw [ht]
  have hinv₃ := pauseInv_of_run (hrun₁.append (.cons ⟨hkeep, hstep⟩ hrun₂)) hget₃
  have hlast : latestWhere active r₃.events = some r.ticket.state := by
    rw [hevents, latestWhere_append_of_forall_not hpost]
    show latestWhere active (appendEvent _ _ _ _ _) = _
    rw [latestWhere_appendEvent, if_neg (by decide)]
    exact hinv.current ha
  constructor
  · intro op σ₄ r₄ hop hstep₄ hget₄
    exact state_of_answer hinv₃ hget₃ hin₃ hlast hop hstep₄ hget₄
  · intro cs hs₃ hq
    have hinv' : PauseInv { r₃ with comments := cs } :=
      ⟨hinv₃.inPause, hinv₃.notSelf, hinv₃.origin, hinv₃.current⟩
    exact maybeResume_of_answered hinv' (Table.get_put_self _ _ _) hs₃ hq hlast

/-- A ticket paused as a draft. -/
theorem pause_resume_round_trip_draft :
    ∃ σ₂ r₂, transition .standalone "board" "t-1" .awaitingUserReply none none
        (runOps .standalone .empty [.create "board" { id := "t-1", title := "ticket" }]) =
          (σ₂, .ok ()) ∧
      σ₂.records.get ("board", "t-1") = some r₂ ∧ r₂.ticket.pausedFrom = some .draft := by
  have hrun := @opRun_runOps .standalone (keepsPauses .standalone) .empty
    [.create "board" { id := "t-1", title := "ticket" }] (by decide +kernel)
  obtain ⟨r₂, hget, -, hp, -⟩ :=
    @pause_resume_round_trip _ _ _ _ "board" "t-1" none none _ _ hrun rfl (by decide +kernel) rfl
  exact ⟨_, r₂, rfl, hget, hp⟩

/-- A pause that a redraft abandons: the ticket is a draft again, but still marked with `ready`. -/
def redraftedPauseRun : List Op :=
  [.create "board" { id := "t-1", title := "ticket" }, .transition "board" "t-1" .ready none none,
    .transition "board" "t-1" .awaitingUserReply none none, .redraft "board" "t-1" ""]

/-- The next pause, from `draft`, keeps the old mark, and the answer to it resumes to `ready`. -/
theorem redraft_leaves_stale_pause :
    let σ₁ := runOps .standalone .empty redraftedPauseRun
    let paused := transition .standalone "board" "t-1" .awaitingUserReply none none σ₁
    let σ₃ := runOps .standalone paused.1
      [.addComment "board" "t-1" "[ASK_USER] which file?" "agent" none,
        .answerPendingQuestion "board" "t-1" "this one" "operator" false]
    (σ₁.records.get ("board", "t-1")).map (fun r => r.ticket.state) = some .draft ∧
    paused.2.isOk = true ∧
    (paused.1.records.get ("board", "t-1")).map
      (fun r => (r.ticket.state, r.ticket.pausedFrom)) = some (.awaitingUserReply, some .ready) ∧
    (σ₃.records.get ("board", "t-1")).map (fun r => r.ticket.state) = some .ready := by
  decide +kernel

end Service
end RobotsixMill
