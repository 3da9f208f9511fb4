import RobotsixMill.Service.Refinement

/-!
# `Service.BlockBookkeeping` — what a blocked ticket remembers

`blocked_from` and `block_reason` belong to the current block: a ticket that is not blocked has neither,
and a blocked one names the state it was blocked from, which its history shows too (`BlockInv`). The
methods that leave `blocked` without clearing the columns, and an auto-resume that enters `blocked`
without setting them, are singled out by `leavesStaleBlock`.
-/

namespace RobotsixMill
namespace Service
open RobotsixMill.Core Lib

/-! ## The invariant -/

/-- Any state but `blocked`. -/
def unblocked (s : State) : Bool := !decide (s = .blocked)

/-- The block columns agree with the state and the history. -/
structure BlockInv (r : TicketRecord) : Prop where
  /-- The newest event names the current state. -/
  newest : r.events.getLast?.map TicketEvent.state = some r.ticket.state
  clear : r.ticket.state ≠ .blocked → r.ticket.blockedFrom = none ∧ r.ticket.blockReason = none
  origin : r.ticket.state = .blocked → ∃ s, r.ticket.blockedFrom = some s ∧ s ≠ .blocked ∧
    latestWhere unblocked r.events = some s

/-- The commits that keep the invariant. -/
def blockKept : Commit → Prop
  | .create _ r => r.ticket.state ≠ .blocked
  | .change _ r (.redraft _ _ _) | .change _ r (.markDone _ _ _ _) => r.ticket.state ≠ .blocked
  | .change _ _ (.autoResume _ dst) => dst ≠ .blocked
  | .copy _ _ r _ => r.ticket.blockReason = none
  | .change _ _ (.purgeEvents _) => False
  | .change _ _ (.migrate _ _ _) => False
  | _ => True

theorem routine_blockKept : Routine blockKept where
  delete _ := trivial
  unblock _ _ _ _ := trivial
  answerUnblock _ _ _ _ := trivial
  comments _ _ _ _ := trivial

/-! ## One commit -/

variable {tid : TicketId} {r : TicketRecord}

theorem newest_appendEvent {events : List TicketEvent} {s : State} {note : Option String}
    {now : DateTime} :
    (appendEvent tid events s note now).getLast?.map TicketEvent.state = some s := by
  simp [appendEvent, makeEvent]

/-- The history of a ticket that is not blocked was last unblocked in its own state. -/
theorem BlockInv.latest_unblocked (h : BlockInv r) (hs : r.ticket.state ≠ .blocked) :
    latestWhere unblocked r.events = some r.ticket.state := by
  obtain ⟨e, he, hes⟩ := Option.map_eq_some_iff.1 h.newest
  obtain ⟨pre, hpre⟩ := List.getLast?_eq_some_iff.1 he
  rw [hpre, latestWhere_snoc, hes, if_pos (by simp [unblocked, hs])]

/-- Leaving for a state other than `blocked` with both columns clear. -/
theorem BlockInv.of_clear {r' : TicketRecord} (hs : r'.ticket.state ≠ .blocked)
    (hf : r'.ticket.blockedFrom = none) (hr : r'.ticket.blockReason = none)
    (hn : r'.events.getLast?.map TicketEvent.state = some r'.ticket.state) : BlockInv r' where
  newest := hn
  clear _ := ⟨hf, hr⟩
  origin hb := absurd hb hs

/-- **`transition` keeps the invariant**, whatever its destination. -/
theorem blockInv_transition (h : BlockInv r) (now : Nat → DateTime) {dst : State}
    (note reason : Option String)
    (hc : canTransition r.ticket.state dst r.ticket.blockedFrom r.ticket.pausedFrom = true) :
    BlockInv (transitionRecord tid now dst note reason r) := by
  by_cases hdst : dst = .blocked
  · subst hdst
    have hs : r.ticket.state ≠ .blocked := by
      intro hs
      obtain ⟨s, hf, hne, -⟩ := h.origin hs
      rw [hs, not_canTransition_blocked_self _ _ (by rw [hf]; simpa using hne)] at hc
      cases hc
    refine ⟨newest_appendEvent, fun hne => absurd rfl hne, fun _ => ⟨r.ticket.state, ?_, hs, ?_⟩⟩
    · simp [transitionRecord, transitionTicket]
    · show latestWhere unblocked (appendEvent _ _ _ _ _) = _
      rw [latestWhere_appendEvent, if_neg (by decide)]
      exact h.latest_unblocked hs
  · refine .of_clear hdst ?_ ?_ newest_appendEvent
    · show (if dst = .blocked then some r.ticket.state else if r.ticket.state = .blocked then none
        else r.ticket.blockedFrom) = none
      rw [if_neg hdst]
      split
      · rfl
      · rename_i hs; exact (h.clear hs).1
    · show (if dst = .blocked then reason else if r.ticket.state = .blocked then none
        else r.ticket.blockReason) = none
      rw [if_neg hdst]
      split
      · rfl
      · rename_i hs; exact (h.clear hs).2

/-- An event that repeats the current state. -/
theorem BlockInv.sameState (h : BlockInv r) {r' : TicketRecord} {note : Option String}
    {now : DateTime} (hs : r'.ticket.state = r.ticket.state)
    (hf : r'.ticket.blockedFrom = r.ticket.blockedFrom)
    (hr : r'.ticket.blockReason = r.ticket.blockReason)
    (he : r'.events = appendEvent tid r.events r.ticket.state note now) : BlockInv r' := by
  refine ⟨?_, ?_, ?_⟩
  · rw [he, hs]; exact newest_appendEvent
  · rw [hs, hf, hr]; exact h.clear
  · intro hb
    rw [hs] at hb
    obtain ⟨s, hbf, hne, hl⟩ := h.origin hb
    refine ⟨s, hf.trans hbf, hne, ?_⟩
    rw [he, latestWhere_appendEvent, hb, if_neg (by decide)]
    exact hl

/-- **Every permitted commit keeps the invariant.** -/
theorem stable_blockInv : Stable blockKept fun _ r => BlockInv r where
  create k r hcond hf := by
    obtain ⟨now, he⟩ := hf.events
    exact .of_clear hcond hf.blockedFrom hf.blockReason (by rw [he]; exact newest_appendEvent)
  copy src dst r now note cs hcond _ _ :=
    .of_clear (by simp [migrateRecord, migrateTicket]) rfl hcond newest_appendEvent
  change k r c hcond hal h := by
    cases c with
    | transition now dst note reason =>
        exact blockInv_transition h now note reason (canTransition_of_refusal_none hal.2)
    | unblock now note => exact blockInv_transition h now _ _ (canTransition_of_refusal_none hal.2)
    | answerUnblock now note =>
        refine blockInv_transition h now _ _ ?_
        simp [hal.1, hal.2, canTransition]
    | resumeBlocked s now cid note eventNote =>
        obtain ⟨hb, dst, hbf⟩ := resume_allowed hal
        obtain ⟨s', hbf', hne, -⟩ := h.origin hb
        refine .of_clear ?_ rfl rfl newest_appendEvent
        show r.ticket.blockedFrom.getD .blocked ≠ .blocked
        rw [hbf']
        exact hne
    | requestChanges now cid body author =>
        have hs : r.ticket.state ≠ .blocked := by
          intro hs; simp [Change.Allowed, requestChangesRefusal, hs] at hal
        obtain ⟨hf, hr⟩ := h.clear hs
        exact .of_clear (fun hd => by cases hd) hf hr newest_appendEvent
    | requestImplementationChanges now cid body author =>
        have hs : r.ticket.state ≠ .blocked := by
          intro hs
          by_cases hbl : isBlank body = true <;>
            simp [Change.Allowed, requestImplementationChangesRefusal, hs, hbl] at hal
        obtain ⟨hf, hr⟩ := h.clear hs
        exact .of_clear (fun hd => by cases hd) hf hr newest_appendEvent
    | redraft now body cost =>
        obtain ⟨hf, hr⟩ := h.clear hcond
        exact .of_clear (fun hd => by cases hd) hf hr newest_appendEvent
    | markDone now cid note author =>
        obtain ⟨hf, hr⟩ := h.clear hcond
        exact .of_clear (fun hd => by cases hd) hf hr newest_appendEvent
    | closeTracker now note => exact .of_clear (fun hd => by cases hd) rfl rfl newest_appendEvent
    | autoResume now dst => exact .of_clear hcond rfl rfl newest_appendEvent
    | historyNote now note => exact h.sameState rfl rfl rfl rfl
    | stepEvent now note => exact h.sameState rfl rfl rfl rfl
    | purgeEvents cap => exact hcond.elim
    | comments cs => exact ⟨h.newest, h.clear, h.origin⟩
    | migrate now note cs => exact hcond.elim

/-! ## Runs of operations -/

/-- The calls that leave the block columns behind, or enter `blocked` without them: a redraft or a
    mark-done of a blocked ticket, a migration of a ticket with a block reason, an auto-resume into
    `blocked`. -/
def leavesStaleBlock (env : Env) (σ : Mill) : Op → Bool
  | .redraft svc tid _ => fetched env svc σ tid fun _ r =>
      decide (r.ticket.state = .blocked) && (redraftRefusal tid r.ticket).isNone &&
        env.repos.isSome && (env.sessionCost σ.ticks tid).isSome
  | .markDone svc tid _ _ => fetched env svc σ tid fun k r =>
      decide (r.ticket.state = .blocked) && (markDoneRefusal tid r.ticket).isNone &&
        (unmergedRefusal env k r.ticket σ).isNone
  | .migrate svc tid target _ =>
      match migrationSource env svc tid target σ with
      | none => false
      | some (src, ts) => ts.any fun t =>
          (σ.records.get (src, t)).any fun r => r.ticket.blockReason.isSome
  | op => (autoResumeOf env σ op).any fun resumed => decide (resumed.2 = .blocked)

/-- The calls a run may make for the block columns to stay right: no ticket is created blocked, no
    history is cut, and no call leaves stale columns behind. -/
def keepsBlocks (env : Env) (σ : Mill) (op : Op) : Bool :=
  !op.purges && !leavesStaleBlock env σ op &&
    match op with
    | .create _ args => !decide (args.state = .blocked)
    | _ => true

theorem resumeAdmitted_blockKept {env : Env} {σ : Mill} {op : Op}
    (h : ((autoResumeOf env σ op).any fun resumed => decide (resumed.2 = .blocked)) = false) :
    ResumeAdmitted blockKept env σ op := by
  intro k r now dst hof _ hdst
  rw [hof, hdst] at h
  cases h

theorem admits_of_keepsBlocks {env : Env} {σ : Mill} {op : Op} (h : keepsBlocks env σ op = true) :
    Admits blockKept env σ op := by
  simp only [keepsBlocks, Bool.and_eq_true, Bool.not_eq_true'] at h
  obtain ⟨⟨hpurge, hstale⟩, hcreate⟩ := h
  cases op with
  | create svc args =>
      intro k r hr
      show r.ticket.state ≠ .blocked
      rw [hr]
      simpa using hcreate
  | redraft svc tid body =>
      intro k r now cost hf hr hrepos hcost hb
      have hf' := of_fetched_eq_false hstale hf
      simp [hr, hrepos, hcost, hb] at hf'
  | markDone svc tid note author =>
      intro k r now cid note hf hr hm hb
      have hf' := of_fetched_eq_false hstale hf
      simp [hr, hm, hb] at hf'
  | migrate svc tid target note =>
      intro src ts hsrc t ht r hget dst now note cs _
      show r.ticket.blockReason = none
      by_contra hne
      have hany : (ts.any fun t => (σ.records.get (src, t)).any fun r =>
          r.ticket.blockReason.isSome) = true :=
        List.any_eq_true.2 ⟨t, ht, by simp [hget, Option.isSome_iff_ne_none.2 hne]⟩
      simp only [leavesStaleBlock, hsrc] at hstale
      rw [hany] at hstale
      cases hstale
  | purgeTicketEvents svc tid => cases hpurge
  | addComment svc tid body author pid => exact resumeAdmitted_blockKept hstale
  | closeThread svc cid tid => exact resumeAdmitted_blockKept hstale
  | answerPendingQuestion svc tid body author change =>
      exact ⟨fun _ _ _ _ _ _ _ => trivial, resumeAdmitted_blockKept hstale⟩
  | transition svc tid dst note reason => exact fun _ _ _ _ _ _ => trivial
  | resumeBlocked svc tid note => exact fun _ _ _ _ _ _ _ _ => trivial
  | requestChanges svc tid body author => exact fun _ _ _ _ _ => trivial
  | requestImplementationChanges svc tid body author => exact fun _ _ _ _ _ => trivial
  | closeTracker svc tid note => exact fun _ _ _ _ => trivial
  | addHistoryNote svc tid note => exact fun _ _ _ _ => trivial
  | addStepEvent svc tid note => exact fun _ _ _ _ => trivial

/-- Every stored record meets the invariant. -/
theorem blockInv_of_run {env : Env} {ops : List Op} {σ : Mill}
    (hrun : OpRun env (fun σ op => keepsBlocks env σ op = true) Mill.empty ops σ) {k : Key}
    {r : TicketRecord} (hget : σ.records.get k = some r) : BlockInv r :=
  records_invariant routine_blockKept stable_blockInv (fun _ _ h => admits_of_keepsBlocks h) hrun k r
    hget

/-- The event before the block of a blocked ticket. -/
theorem BlockInv.exists_origin_event (h : BlockInv r) (hb : r.ticket.state = .blocked) :
    ∃ s pre e b post, r.ticket.blockedFrom = some s ∧ s ≠ .blocked ∧
      r.events = pre ++ e :: b :: post ∧ e.state = s ∧ b.state = .blocked ∧
      ∀ x ∈ post, x.state = .blocked := by
  obtain ⟨s, hf, hne, hl⟩ := h.origin hb
  obtain ⟨pre, e, post, he, hes, -, hpost⟩ := exists_split_of_latestWhere hl
  have hpost' : ∀ x ∈ post, x.state = .blocked := by
    intro x hx
    simpa [unblocked] using hpost x hx
  cases post with
  | nil =>
      -- then the newest event would not be `blocked`
      have hnew := h.newest
      rw [he, hb] at hnew
      simp only [List.getLast?_append, List.getLast?_singleton, Option.map_some,
        Option.some_or] at hnew
      exact absurd ((hes.symm.trans (Option.some.inj hnew))) hne
  | cons b post =>
      refine ⟨s, pre, e, b, post, hf, hne, he, hes, hpost' b List.mem_cons_self, ?_⟩
      intro x hx
      exact hpost' x (List.mem_cons_of_mem _ hx)

/-- **Block bookkeeping.** In a run without a call that leaves stale block columns, a ticket that is not
    blocked has neither a `blocked_from` nor a `block_reason`, and a blocked one names the state of its
    last event before the one that blocked it, which is not `blocked`. -/
theorem block_columns_match_history {env : Env} {ops : List Op} {σ : Mill}
    (hrun : OpRun env (fun σ op => keepsBlocks env σ op = true) Mill.empty ops σ) {k : Key}
    {r : TicketRecord} (hget : σ.records.get k = some r) :
    (r.ticket.state ≠ .blocked → r.ticket.blockedFrom = none ∧ r.ticket.blockReason = none) ∧
    (r.ticket.state = .blocked → ∃ s pre e b post, r.ticket.blockedFrom = some s ∧ s ≠ .blocked ∧
      r.events = pre ++ e :: b :: post ∧ e.state = s ∧ b.state = .blocked ∧
      ∀ x ∈ post, x.state = .blocked) := by
  have hinv := blockInv_of_run hrun hget
  exact ⟨hinv.clear, hinv.exists_origin_event⟩

/-- A draft that is blocked for want of a precondition. -/
def blockedDraftRun : List Op :=
  [.create "board" { id := "t-1", title := "ticket" },
    .transition "board" "t-1" .blocked (some "waiting for the key") (some "missing-key")]

theorem block_columns_match_history_draft :
    ∃ r s pre e b post, (runOps .standalone .empty blockedDraftRun).records.get ("board", "t-1") = some r ∧
      r.ticket.blockedFrom = some s ∧ s ≠ .blocked ∧ r.events = pre ++ e :: b :: post ∧ e.state = s ∧
      b.state = .blocked := by
  have hrun := @opRun_runOps .standalone (keepsBlocks .standalone) .empty blockedDraftRun
    (by decide +kernel)
  obtain ⟨r, hget⟩ : ∃ r,
      (runOps .standalone .empty blockedDraftRun).records.get ("board", "t-1") = some r := ⟨_, rfl⟩
  obtain ⟨s, pre, e, b, post, h₁, h₂, h₃, h₄, h₅, -⟩ :=
    (block_columns_match_history hrun hget).2 (by cases hget; rfl)
  exact ⟨r, s, pre, e, b, post, hget, h₁, h₂, h₃, h₄, h₅⟩

/-- Marking a blocked ticket done leaves its block columns in place. -/
theorem mark_done_leaves_block_columns :
    ((runOps .standalone .empty (blockedDraftRun ++ [.markDone "board" "t-1" "" "operator"])).records.get
      ("board", "t-1")).map (fun r => (r.ticket.state, r.ticket.blockedFrom, r.ticket.blockReason)) =
    some (.done, some .draft, some "missing-key") := by
  decide +kernel

end Service
end RobotsixMill
