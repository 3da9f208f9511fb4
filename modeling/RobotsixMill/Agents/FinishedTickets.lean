import RobotsixMill.Agents.DataDirGc
import RobotsixMill.Service.BlockBookkeeping
import RobotsixMill.Service.MigrationSteps

/-!
# `Agents.FinishedTickets` — what calls of the service leave of a finished ticket

The prunes rely on two things: a finished ticket stays finished, and its history goes on telling when it finished
(`EndTold`). No call of the service but a migration touches the first (`lasting_call`); for the second an event purge
has to keep an event that is late enough (`losesEnd`). Rows come into being with a creation or a migration only
(`get_of_createRow`, `get_of_insertSnapshots`).
-/

namespace RobotsixMill
namespace Agents
open RobotsixMill.Core Lib Service

/-! ## Finished for good -/

/-- The history tells of an end, at `t` or later. -/
def EndTold (t : DateTime) (events : List TicketEvent) : Prop :=
  ∃ e ∈ events, e.state ∈ GC_TERMINAL_STATES ∧ t ≤ e.at_

/-- The state of the newest event. -/
def newestState (r : TicketRecord) : Option State := r.events.getLast?.map TicketEvent.state

/-- Is an event of the end lost in an event purge, and none kept that is as late? -/
def losesEnd (limit : Nat) (r : TicketRecord) : Bool :=
  isFinished r && r.events.any fun e => decide (e.state ∈ GC_TERMINAL_STATES) &&
    !(purgeEventsRecord limit r).events.any fun e' => decide (e'.state ∈ GC_TERMINAL_STATES) && decide (e.at_ ≤ e'.at_)

/-- The commits of calls other than creations and migrations, where event purges lose no end. -/
def PlainCommit : Commit → Prop
  | .change _ r (.purgeEvents limit) => losesEnd limit r = false
  | .change _ _ (.migrate _ _ _) | .create _ _ | .copy _ _ _ _ => False
  | _ => True

theorem routine_plainCommit : Routine PlainCommit where
  delete _ := trivial
  unblock _ _ _ _ := trivial
  answerUnblock _ _ _ _ := trivial
  comments _ _ _ _ := trivial

section Finished

variable {tid : TicketId} {r : TicketRecord} {t : DateTime}

theorem isFinished_iff : isFinished r = true ↔ r.ticket.state ∈ GC_TERMINAL_STATES := decide_eq_true_iff

theorem EndTold.append {events : List TicketEvent} (h : EndTold t events) (e : TicketEvent) : EndTold t (events ++ [e]) := by
  obtain ⟨e', he', hs, hle⟩ := h
  exact ⟨e', List.mem_append_left _ he', hs, hle⟩

theorem newestState_append {tk : Ticket} {events : List TicketEvent} {s : State} {note : Option String} {now : DateTime}
    {cs : List Comment} : newestState ⟨tk, appendEvent tid events s note now, cs⟩ = some s := newest_appendEvent

/-- There is no way out of a finished state. -/
theorem not_canTransition_of_finished (h : isFinished r = true) (dst : State) (bf pf : Option State) :
    canTransition r.ticket.state dst bf pf = false := by
  rw [isFinished_iff] at h
  revert h
  cases r.ticket.state <;> simp [GC_TERMINAL_STATES, canTransition, TRANSITIONS]

theorem ne_of_finished (h : isFinished r = true) : ∀ s ∉ GC_TERMINAL_STATES, r.ticket.state ≠ s := by
  intro s hs heq
  rw [isFinished_iff, heq] at h
  exact hs h

theorem newestState_purge (limit : Nat) (r : TicketRecord) : newestState (purgeEventsRecord limit r) = newestState r := by
  unfold newestState purgeEventsRecord
  split
  · rfl
  · rename_i hlimit
    have hlast : (r.events.drop (r.events.length - limit)).getLast? = r.events.getLast? := by
      rw [List.getLast?_drop, if_neg (by omega)]
    split
    · rename_i hnil
      rw [hnil] at hlast
      rw [← hlast]
    · rename_i e rest hcons
      rw [hcons] at hlast
      rw [← hlast]
      cases rest with
      | nil => rfl
      | cons e' rest => rfl

theorem endTold_purge {limit : Nat} (hkeep : losesEnd limit r = false) (hr : isFinished r = true)
    (h : EndTold t r.events) : EndTold t (purgeEventsRecord limit r).events := by
  obtain ⟨e, he, hs, hle⟩ := h
  unfold losesEnd at hkeep
  rw [hr, Bool.true_and, List.any_eq_false] at hkeep
  have hany := hkeep e he
  simp only [hs, decide_true, Bool.true_and, Bool.not_eq_true', Bool.not_eq_false, List.any_eq_true, Bool.and_eq_true,
    decide_eq_true_eq] at hany
  obtain ⟨e', he', hs', hle'⟩ := hany
  exact ⟨e', he', hs', Nat.le_trans hle hle'⟩

/-- Transitions out of a finished state are refused. -/
theorem refused_of_finished (h : isFinished r = true) (dst : State) : transitionRefusal tid dst r ≠ none := by
  intro hnone
  have hcan := canTransition_of_refusal_none hnone
  rw [not_canTransition_of_finished h] at hcan
  cases hcan

/-- A finished ticket stays finished, and its history goes on. -/
theorem finished_change {k : Key} {c : Change} (hcond : PlainCommit (.change k r c)) (hal : c.Allowed k.2 r)
    (h : isFinished r = true) :
    isFinished (c.apply k.2 r) = true ∧ (∀ t, EndTold t r.events → EndTold t (c.apply k.2 r).events) ∧
      (newestState r = some r.ticket.state → newestState (c.apply k.2 r) = some (c.apply k.2 r).ticket.state) := by
  have hne := ne_of_finished h
  cases c with
  | historyNote now note => exact ⟨h, fun t ht => ht.append _, fun _ => newestState_append⟩
  | stepEvent now note => exact ⟨h, fun t ht => ht.append _, fun _ => newestState_append⟩
  | comments cs => exact ⟨h, fun t ht => ht, fun hn => hn⟩
  | purgeEvents limit =>
      have hticket := (purgeEventsRecord_keeps limit r).1
      refine ⟨?_, fun t ht => endTold_purge hcond h ht, ?_⟩
      · show isFinished (purgeEventsRecord limit r) = true
        rw [isFinished_iff, hticket, ← isFinished_iff]
        exact h
      · intro hn
        show newestState (purgeEventsRecord limit r) = some (purgeEventsRecord limit r).ticket.state
        rw [newestState_purge, hticket]
        exact hn
  | transition now dst note reason => exact absurd hal.2 (refused_of_finished h dst)
  | unblock now note => exact absurd hal.1 (hne .blocked (by decide))
  | answerUnblock now note => exact absurd hal.1 (hne .blocked (by decide))
  | resumeBlocked s now cid note eventNote => exact absurd (resume_allowed hal).1 (hne .blocked (by decide))
  | requestChanges now cid body author =>
      exfalso
      have hal' : requestChangesRefusal k.2 r.ticket = none := hal
      unfold requestChangesRefusal at hal'
      rw [if_neg (hne .humanIssueApproval (by decide))] at hal'
      cases hal'
  | requestImplementationChanges now cid body author =>
      exfalso
      have hal' : requestImplementationChangesRefusal k.2 body r.ticket = none := hal
      unfold requestImplementationChangesRefusal at hal'
      rw [if_neg (hne .humanMrApproval (by decide))] at hal'
      split at hal' <;> cases hal'
  | redraft now body cost =>
      exfalso
      have hal' : redraftRefusal k.2 r.ticket = none := hal
      rw [isFinished_iff] at h
      revert h
      unfold redraftRefusal at hal'
      cases hs : r.ticket.state <;> simp [hs] at hal' <;> simp [GC_TERMINAL_STATES]
  | markDone now cid note author =>
      exfalso
      have hal' : markDoneRefusal k.2 r.ticket = none := hal
      rw [isFinished_iff] at h
      revert h
      unfold markDoneRefusal at hal'
      cases hs : r.ticket.state <;> simp [hs] at hal' <;> simp [GC_TERMINAL_STATES]
  | closeTracker now note =>
      exfalso
      have hal' : closeTrackerRefusal k.2 r.ticket = none := hal
      rw [isFinished_iff] at h
      revert h
      unfold closeTrackerRefusal at hal'
      cases hs : r.ticket.state <;> simp [hs] at hal' <;> simp [GC_TERMINAL_STATES]
  | autoResume now dst =>
      exfalso
      have hal' : autoResumeDst r = some dst := hal
      unfold autoResumeDst at hal'
      rw [if_pos (hne .awaitingUserReply (by decide))] at hal'
      cases hal'
  | migrate now note cs => exact hcond.elim

/-- A ticket that finishes has an event that says so. -/
theorem unfinished_change {k : Key} {c : Change} (hcond : PlainCommit (.change k r c)) (h : isFinished r = false) :
    isFinished (c.apply k.2 r) = true → newestState (c.apply k.2 r) = some (c.apply k.2 r).ticket.state := by
  cases c with
  | comments cs =>
      intro hf
      have hf' : isFinished r = true := hf
      rw [h] at hf'
      cases hf'
  | purgeEvents limit =>
      intro hf
      have hf' : isFinished (purgeEventsRecord limit r) = true := hf
      rw [isFinished_iff, (purgeEventsRecord_keeps limit r).1, ← isFinished_iff, h] at hf'
      cases hf'
  | migrate now note cs => exact hcond.elim
  | transition now dst note reason => exact fun _ => newestState_append
  | unblock now note => exact fun _ => newestState_append
  | answerUnblock now note => exact fun _ => newestState_append
  | resumeBlocked s now cid note eventNote => exact fun _ => newestState_append
  | requestChanges now cid body author => exact fun _ => newestState_append
  | requestImplementationChanges now cid body author => exact fun _ => newestState_append
  | redraft now body cost => exact fun _ => newestState_append
  | markDone now cid note author => exact fun _ => newestState_append
  | closeTracker now note => exact fun _ => newestState_append
  | autoResume now dst => exact fun _ => newestState_append
  | historyNote now note => exact fun _ => newestState_append
  | stepEvent now note => exact fun _ => newestState_append

theorem parentId_change (c : Change) : (c.apply tid r).ticket.parentId = r.ticket.parentId := by
  cases c with
  | purgeEvents limit =>
      show (purgeEventsRecord limit r).ticket.parentId = r.ticket.parentId
      rw [(purgeEventsRecord_keeps limit r).1]
  | _ => rfl

end Finished

/-! ## Calls -/

/-- What has become of a row of `σ₀`: a finished ticket is finished still, its history telling no less of its end,
    and one that finished has an event that says so. -/
structure LastingRow (r₀ r : TicketRecord) : Prop where
  parentId : r.ticket.parentId = r₀.ticket.parentId
  finished : isFinished r₀ = true → isFinished r = true
  told : isFinished r₀ = true → ∀ t, EndTold t r₀.events → EndTold t r.events
  ended : isFinished r₀ = false → isFinished r = true → newestState r = some r.ticket.state

theorem LastingRow.refl (r : TicketRecord) : LastingRow r r where
  parentId := rfl
  finished h := h
  told _ _ h := h
  ended h h' := by
    rw [h] at h'
    cases h'

/-- The same, of the row of `σ₀` with the same key. -/
def Lasting (σ₀ : Mill) (k : Key) (r : TicketRecord) : Prop := ∃ r₀, σ₀.records.get k = some r₀ ∧ LastingRow r₀ r

theorem LastingRow.change {k : Key} {c : Change} {r₀ r : TicketRecord} (hcond : PlainCommit (.change k r c))
    (hal : c.Allowed k.2 r) (h : LastingRow r₀ r) : LastingRow r₀ (c.apply k.2 r) where
  parentId := (parentId_change c).trans h.parentId
  finished h₀ := (finished_change hcond hal (h.finished h₀)).1
  told h₀ t ht := (finished_change hcond hal (h.finished h₀)).2.1 t (h.told h₀ t ht)
  ended h₀ hf := by
    cases hr : isFinished r with
    | true => exact (finished_change hcond hal hr).2.2 (h.ended h₀ hr)
    | false => exact unfinished_change hcond hr hf

theorem stable_lasting (σ₀ : Mill) : Stable PlainCommit (Lasting σ₀) where
  create k r hcond _ := by cases hcond
  change k r c hcond hal h := by
    obtain ⟨r₀, hget, hrow⟩ := h
    exact ⟨r₀, hget, hrow.change hcond hal⟩
  copy src dst r now note cs hcond _ _ := by cases hcond

/-- The calls that neither create nor migrate. -/
def isPlain : Op → Bool
  | .create _ _ | .migrate _ _ _ _ => false
  | _ => true

/-- Does the call lose the end of a finished ticket? -/
def callLosesEnd (env : Env) (σ : Mill) : Op → Bool
  | .purgeTicketEvents svc tid =>
    (σ.records.get (svc, tid)).any (losesEnd env.settings.maxEventsPerTicket)
  | _ => false

theorem admits_of_isPlain {env : Env} {σ : Mill} {op : Op} (h : isPlain op = true) (hend : callLosesEnd env σ op = false) :
    Admits PlainCommit env σ op := by
  cases op with
  | create svc args => cases h
  | migrate svc tid target note => cases h
  | purgeTicketEvents svc tid =>
      intro r _ hget
      have hkept : (σ.records.get (svc, tid)).any (losesEnd env.settings.maxEventsPerTicket) = false := hend
      rw [hget] at hkept
      exact hkept
  | transition svc tid dst note reason => exact fun _ _ _ _ _ _ => trivial
  | redraft svc tid body => exact fun _ _ _ _ _ _ _ _ => trivial
  | resumeBlocked svc tid note => exact fun _ _ _ _ _ _ _ _ => trivial
  | requestChanges svc tid body author => exact fun _ _ _ _ _ => trivial
  | requestImplementationChanges svc tid body author => exact fun _ _ _ _ _ => trivial
  | markDone svc tid note author => exact fun _ _ _ _ _ _ _ _ => trivial
  | closeTracker svc tid note => exact fun _ _ _ _ => trivial
  | addComment svc tid body author pid => exact fun _ _ _ _ _ _ => trivial
  | closeThread svc cid tid => exact fun _ _ _ _ _ _ => trivial
  | answerPendingQuestion svc tid body author change =>
      exact ⟨fun _ _ _ _ _ _ _ => trivial, fun _ _ _ _ _ _ => trivial⟩
  | addHistoryNote svc tid note => exact fun _ _ _ _ => trivial
  | addStepEvent svc tid note => exact fun _ _ _ _ => trivial

/-- **The rows after such a call** are the ones before it, and finished tickets are finished still. -/
theorem lasting_call (env : Env) (σ : Mill) {op : Op} (h : isPlain op = true) (hend : callLosesEnd env σ op = false) :
    (op.run env σ).1.records.AllRows (Lasting σ) :=
  records_invariant_op routine_plainCommit (stable_lasting σ) (admits_of_isPlain h hend)
    (fun _ r hget => ⟨r, hget, .refl r⟩) rfl

/-! ## New rows -/

/-- A row that was not there before. -/
structure NewRow (σ : Mill) (k : Key) (r : TicketRecord) : Prop where
  absent : σ.records.get k = none
  ended : isFinished r = true → newestState r = some r.ticket.state

/-- The row that `createRow` adds. -/
theorem get_of_createRow {env : Env} {svc : BoardId} {a : CreateArgs} {σ : Mill} {k : Key} {r : TicketRecord}
    (h : (createRow env svc a σ).1.records.get k = some r) :
    σ.records.get k = some r ∨
      NewRow σ k r ∧ k = (a.boardId.getD svc, a.id) ∧ r.ticket.parentId = a.parentId ∧ r.ticket.state = a.state := by
  unfold createRow at h
  dsimp only at h
  cases hget : σ.records.get (a.boardId.getD svc, a.id) with
  | some r' =>
      rw [hget] at h
      exact .inl h
  | none =>
      rw [hget] at h
      dsimp only [records_tick, records_putRecord] at h
      by_cases hk : k = (a.boardId.getD svc, a.id)
      · subst hk
        rw [Table.get_put_self] at h
        obtain rfl := Option.some.inj h
        exact .inr ⟨⟨hget, fun _ => newestState_append⟩, rfl, rfl, rfl⟩
      · rw [Table.get_put_ne _ _ hk] at h
        exact .inl h

/-- The rows that a migration adds are drafts. -/
theorem get_of_insertSnapshots {now : Nat → DateTime} {src dst : BoardId} {root : TicketId} {note : Option String}
    {snapshot : Table Key TicketRecord} {ts : List TicketId} {next : CommentId} {idMap : List (CommentId × CommentId)}
    {T T' : Table Key TicketRecord} (h : insertSnapshots now src dst root note snapshot ts next idMap T = some T')
    {k : Key} {r : TicketRecord} (hget : T'.get k = some r) :
    T.get k = some r ∨ T.get k = none ∧ r.ticket.state = .draft ∧ k.2 ∈ ts ∧
      ∃ r₀, snapshot.get (src, k.2) = some r₀ ∧ r.ticket.parentId = r₀.ticket.parentId := by
  induction ts generalizing next idMap T with
  | nil =>
      obtain rfl := Option.some.inj h
      exact .inl hget
  | cons t ts ih =>
      unfold insertSnapshots at h
      split at h
      · rename_i r₀ hsnap hfree
        rcases ih h with hold | ⟨hnone, hs, hmem, hparent⟩
        · by_cases hk : k = (dst, t)
          · subst hk
            rw [Table.get_put_self] at hold
            obtain rfl := Option.some.inj hold
            exact .inr ⟨hfree, rfl, List.mem_cons_self, r₀, hsnap, rfl⟩
          · rw [Table.get_put_ne _ _ hk] at hold
            exact .inl hold
        · refine .inr ⟨?_, hs, List.mem_cons_of_mem t hmem, hparent⟩
          by_cases hk : k = (dst, t)
          · rw [hk]
            exact hfree
          · rwa [Table.get_put_ne _ _ hk] at hnone
      · cases h

end Agents
end RobotsixMill
