import RobotsixMill.Service.Cascade

/-!
# `Service.Completions` — every completion fires its unblocks

A ticket that reaches `done`, `closed` or `epic_closed` should re-open the blocked tickets listed in its
`unblocks`. `transition` and `mark_done` fire the cascade; the other calls that complete a ticket do not,
so what they should unblock stays blocked (`completion_fires_unblocks`).
-/

namespace RobotsixMill
namespace Service
open RobotsixMill.Core Lib

variable {env : Env} {svc : BoardId}

/-! ## What should be unblocked -/

/-- The fetched record, if it meets `p` and is not completed yet. -/
def fetchedIncomplete (env : Env) (svc : BoardId) (σ : Mill) (tid : TicketId)
    (p : Key → TicketRecord → Bool) : Option (Key × TicketRecord) :=
  match fetch env svc σ tid with
  | .error _ => none
  | .ok (k, r) =>
    if r.ticket.state ∉ UNBLOCK_TRIGGER_STATES ∧ p k r = true then some (k, r) else none

theorem of_fetchedIncomplete {σ : Mill} {tid : TicketId} {p : Key → TicketRecord → Bool} {k : Key}
    {r : TicketRecord} (h : fetchedIncomplete env svc σ tid p = some (k, r)) :
    fetch env svc σ tid = .ok (k, r) ∧ r.ticket.state ∉ UNBLOCK_TRIGGER_STATES ∧ p k r = true := by
  unfold fetchedIncomplete at h
  split at h
  · cases h
  · rename_i k' r' hf
    split at h
    · rename_i hcond
      cases h
      exact ⟨hf, hcond⟩
    · cases h

/-- The ticket a call moves from outside the completed states into one of them, as its guards decide it,
    with its record before the call. -/
def completionOf (env : Env) (σ : Mill) : Op → Option (Key × TicketRecord)
  | .transition svc tid dst _ _ => fetchedIncomplete env svc σ tid fun _ r =>
      decide (dst ∈ UNBLOCK_TRIGGER_STATES) && (transitionRefusal tid dst r).isNone
  | .markDone svc tid _ _ => fetchedIncomplete env svc σ tid fun k r =>
      (markDoneRefusal tid r.ticket).isNone && (unmergedRefusal env k r.ticket σ).isNone
  | .closeTracker svc tid _ => fetchedIncomplete env svc σ tid fun _ r =>
      (closeTrackerRefusal tid r.ticket).isNone
  | .resumeBlocked svc tid _ => fetchedIncomplete env svc σ tid fun _ r =>
      (resumeRefusal tid r.ticket).isNone &&
        decide (r.ticket.blockedFrom.getD .blocked ∈ UNBLOCK_TRIGGER_STATES)
  | op =>
    match autoResumeOf env σ op with
    | none => none
    | some (k, dst) =>
      if dst ∈ UNBLOCK_TRIGGER_STATES then (σ.records.get k).map fun r => (k, r) else none

/-- The calls that fire the unblocks of the ticket they complete. -/
def firesUnblocks : Op → Bool
  | .transition _ _ _ _ _ | .markDone _ _ _ _ => true
  | _ => false

/-- `kt` holds a ticket that the completion of `k` by `op` should unblock. -/
def ShouldUnblock (env : Env) (σ : Mill) (op : Op) (kt : Key) (rt : TicketRecord) : Prop :=
  ∃ k r tid, completionOf env σ op = some (k, r) ∧ tid ∈ parseDependsOnStr r.ticket.unblocks ∧
    kt ≠ k ∧ Unblockable env op.board σ tid kt rt

theorem blocked_of_unblockable {σ : Mill} {tid : TicketId} {k : Key} {r : TicketRecord}
    (hu : Unblockable env svc σ tid k r) : r.ticket.state = .blocked := hu.2.1

/-- The completion has fired its unblocks. -/
def FiresUnblocks (env : Env) (σ : Mill) (op : Op) : Prop :=
  ∀ kt rt, ShouldUnblock env σ op kt rt → ∃ rt', (op.run env σ).1.records.get kt = some rt' ∧
    rt'.ticket.state ≠ .blocked ∧ rt'.ticket.state = rt.ticket.blockedFrom.getD .draft

/-! ## The calls that fire -/

/-- Writing another record moves no lookup. -/
theorem get_put_ne {σ σ' : Mill} {k kt : Key} {r r' rt : TicketRecord} {tid : TicketId}
    (hget : σ.records.get k = some r) (hrec : σ'.records = σ.records.put k r')
    (hg : get env svc σ tid = some (kt, rt)) (hne : kt ≠ k) :
    get env svc σ' tid = some (kt, rt) := by
  have hloc : locate env svc σ' tid = locate env svc σ tid := by
    rw [@locate_congr env svc (σ.putRecord k r') σ' hrec, locate_putRecord hget]
  have hgett := (get_of_fetch (fetch_of_get hg)).2
  unfold get at hg ⊢
  rw [hloc]
  cases hl : locate env svc σ tid with
  | none => rw [hl] at hg; cases hg
  | some b =>
      rw [hl] at hg
      simp only [Option.bind_some, Option.map_eq_some_iff, Prod.mk.injEq] at hg ⊢
      obtain ⟨r₀, -, rfl, rfl⟩ := hg
      exact ⟨_, by rw [hrec, Table.get_put_ne _ _ hne]; exact hgett, rfl, rfl⟩

/-- Every stored record of a reachable store. -/
theorem blockable_of_run {ops : List Op} {σ : Mill}
    (hrun : OpRun env (fun _ _ => True) Mill.empty ops σ) :
    σ.records.AllRows fun _ r => Blockable r := by
  refine records_invariant routine_true stable_blockable (fun σ op _ => ?_) hrun
  cases op with
  | create svc args => exact fun _ _ _ => trivial
  | transition svc tid dst note reason => exact fun _ _ _ _ _ _ => trivial
  | resumeBlocked svc tid note => exact fun _ _ _ _ _ _ _ _ => trivial
  | requestChanges svc tid body author => exact fun _ _ _ _ _ => trivial
  | requestImplementationChanges svc tid body author => exact fun _ _ _ _ _ => trivial
  | redraft svc tid body => exact fun _ _ _ _ _ _ _ _ => trivial
  | markDone svc tid note author => exact fun _ _ _ _ _ _ _ _ => trivial
  | closeTracker svc tid note => exact fun _ _ _ _ => trivial
  | migrate svc tid target note => exact fun _ _ _ _ _ _ _ _ _ _ _ _ => trivial
  | addComment svc tid body author pid => exact fun _ _ _ _ _ _ => trivial
  | closeThread svc cid tid => exact fun _ _ _ _ _ _ => trivial
  | answerPendingQuestion svc tid body author change =>
      exact ⟨fun _ _ _ _ _ _ _ => trivial, fun _ _ _ _ _ _ => trivial⟩
  | addHistoryNote svc tid note => exact fun _ _ _ _ => trivial
  | addStepEvent svc tid note => exact fun _ _ _ _ => trivial
  | purgeTicketEvents svc tid => exact fun _ _ _ => trivial

/-- The cascade of a completion: what it should unblock is unblocked. -/
theorem unblocked_of_cascade {σ σ₂ : Mill} {op : Op} {kt : Key} {r rt : TicketRecord}
    {tid solver : TicketId} (hb : σ₂.records.AllRows fun _ r => Blockable r)
    (hmem : tid ∈ parseDependsOnStr r.ticket.unblocks) (hu : Unblockable env svc σ tid kt rt)
    (hg₂ : get env svc σ₂ tid = some (kt, rt))
    (hrun : (op.run env σ).1 = fireUnblocks env svc (σ₂.blockedCount + 1) solver
      (parseDependsOnStr r.ticket.unblocks) σ₂) :
    ∃ rt', (op.run env σ).1.records.get kt = some rt' ∧ rt'.ticket.state ≠ .blocked ∧
      rt'.ticket.state = rt.ticket.blockedFrom.getD .draft := by
  have hu₂ : Unblockable env svc σ₂ tid kt rt := ⟨hg₂, hu.2⟩
  obtain ⟨rt', hget', hst⟩ := state_of_fireUnblocks σ₂.blockedCount solver
    (parseDependsOnStr r.ticket.unblocks) hb hmem hu₂
  refine ⟨rt', by rw [hrun]; exact hget', ?_, hst⟩
  rw [hst, ← unblockDst_eq]
  exact (hb kt rt (get_of_fetch (fetch_of_get hg₂)).2).unblockDst_ne.1

theorem firesUnblocks_transition {tid : TicketId} {dst : State} {note reason : Option String}
    {σ : Mill} (hb : σ.records.AllRows fun _ r => Blockable r)
    (hok : (transition env svc tid dst note reason σ).2 = .ok ()) :
    FiresUnblocks env σ (.transition svc tid dst note reason) := by
  rintro kt rt ⟨k, r, t, hc, hmem, hne, hu⟩
  obtain ⟨hf, hout, hp⟩ := of_fetchedIncomplete hc
  obtain ⟨hdst, hr⟩ := Bool.and_eq_true_iff.1 hp
  have hdst' : dst ∈ UNBLOCK_TRIGGER_STATES := of_decide_eq_true hdst
  have hr' : transitionRefusal tid dst r = none := by simpa using hr
  have hget := (get_of_fetch hf).2
  have hnoop : transitionNoop r.ticket dst = false := by
    have hneq : r.ticket.state ≠ dst := fun h => hout (by rw [h]; exact hdst')
    simp [transitionNoop, hneq]
  have hrec := @records_commitTransition env k r dst note reason σ
  have hb₁ : (commitTransition env k r dst note reason σ).records.AllRows fun _ r => Blockable r := by
    rw [hrec]
    exact hb.put (blockable_transition (hb k r hget) _ _ _ (canTransition_of_refusal_none hr'))
  have hg₁ := get_put_ne hget hrec hu.1 hne
  by_cases ha : dst ∈ ARCHIVABLE_STATES
  · -- the archive purge runs between the commit and the cascade
    have hg₂ := get_afterCommit hg₁ (by rw [blocked_of_unblockable hu]; decide)
    have hb₂ : (afterCommit env svc (commitTransition env k r dst note reason σ)).1.records.AllRows
        fun _ r => Blockable r := by
      obtain ⟨ds, -, hds⟩ := @afterCommit_records env svc (commitTransition env k r dst note reason σ)
      obtain ⟨cs, hcs⟩ := reaches_eraseAll routine_true ds
        (commitTransition env k r dst note reason σ).records
      rw [hds]
      exact allRows_of_run stable_blockable hcs hb₁
    refine @unblocked_of_cascade env svc σ _ _ kt r rt t tid hb₂ hmem hu hg₂ ?_
    show (transition env svc tid dst note reason σ).1 = _
    simp only [transition, transitionSession, hf, hnoop, hr', if_pos ha, if_pos hdst', Bool.false_eq_true,
      if_false] at hok ⊢
    generalize afterCommit env svc (commitTransition env k r dst note reason σ) = res at hok ⊢
    obtain ⟨σ₂, _ | _⟩ := res
    · cases hok
    · rfl
  · refine @unblocked_of_cascade env svc σ _ _ kt r rt t tid hb₁ hmem hu hg₁ ?_
    show (transition env svc tid dst note reason σ).1 = _
    simp [transition, transitionSession, hf, hnoop, hr', ha, hdst']

theorem firesUnblocks_markDone {tid : TicketId} {note author : String} {σ : Mill}
    (hb : σ.records.AllRows fun _ r => Blockable r) :
    FiresUnblocks env σ (.markDone svc tid note author) := by
  rintro kt rt ⟨k, r, t, hc, hmem, hne, hu⟩
  obtain ⟨hf, -, hp⟩ := of_fetchedIncomplete hc
  obtain ⟨hr, hm⟩ := Bool.and_eq_true_iff.1 hp
  have hr' : markDoneRefusal tid r.ticket = none := by simpa using hr
  have hm' : unmergedRefusal env k r.ticket σ = none := by simpa using hm
  have hget := (get_of_fetch hf).2
  obtain ⟨σ₂, finalNote, hrec, hses⟩ : ∃ (σ₂ : Mill) (finalNote : String),
      σ₂.records = σ.records.put k
        (markDoneRecord tid (σ.now env) (nextCommentId σ k.1) finalNote author r) ∧
      markDoneSession env svc tid note author σ = (σ₂, .ok (parseDependsOnStr r.ticket.unblocks)) := by
    simp only [markDoneSession, hf, hr', hm']
    exact ⟨_, _, rfl, rfl⟩
  have hb₂ : σ₂.records.AllRows fun _ r => Blockable r := by
    rw [hrec]
    exact hb.put (hb k r hget)
  refine @unblocked_of_cascade env svc σ _ _ kt r rt t tid hb₂ hmem hu (get_put_ne hget hrec hu.1 hne) ?_
  show (markDone env svc tid note author σ).1 = _
  simp [markDone, hses]

/-! ## The calls that do not -/

theorem records_maybeResume_ne {σ : Mill} {k k' : Key} (h : k' ≠ k) :
    (maybeResumeAwaitingUserReply env k σ).records.get k' = σ.records.get k' := by
  unfold maybeResumeAwaitingUserReply
  cases σ.records.get k with
  | none => rfl
  | some r =>
      cases hd : autoResumeDst r with
      | none => simp only [hd]
      | some dst =>
          simp only [hd]
          exact Table.get_put_ne _ _ h

theorem records_addComment_ne {σ : Mill} {tid : TicketId} {body author : String}
    {pid : Option CommentId} {k k' : Key} {r : TicketRecord} (hf : fetch env svc σ tid = .ok (k, r))
    (h : k' ≠ k) : (addComment env svc tid body author pid σ).1.records.get k' = σ.records.get k' := by
  have hput : ∀ cs, (σ.putComments k r cs).records.get k' = σ.records.get k' :=
    fun cs => Table.get_put_ne _ _ h
  unfold addComment
  simp only [hf]
  cases pid with
  | none => exact hput _
  | some pid =>
      dsimp only
      split
      · split <;> rfl
      · split
        · exact (records_maybeResume_ne h).trans (hput _)
        · exact hput _

/-- A call that brings about an auto-resume writes no other ticket. -/
theorem records_of_autoResumeOf {σ : Mill} {op : Op} {k k' : Key} {dst : State}
    (hof : autoResumeOf env σ op = some (k, dst)) (h : k' ≠ k) :
    (op.run env σ).1.records.get k' = σ.records.get k' := by
  cases op with
  | addComment svc tid body author pid =>
      cases pid with
      | none => cases hof
      | some pid =>
          show (addComment env svc tid body author (some pid) σ).1.records.get k' = _
          unfold autoResumeOf at hof
          cases hf : fetch env svc σ tid with
          | error e => simp [hf] at hof
          | ok kr =>
              obtain ⟨k₁, r⟩ := kr
              have hk : k₁ = k := by
                simp only [hf] at hof
                split at hof
                · cases hof
                · split at hof
                  · obtain ⟨_, -, heq⟩ := Option.map_eq_some_iff.1 hof
                    exact (Prod.mk.inj heq).1
                  · cases hof
              subst hk
              exact records_addComment_ne hf h
  | closeThread svc cid tid =>
      show (closeThread env svc cid tid σ).1.records.get k' = _
      unfold autoResumeOf at hof
      unfold closeThread
      cases hb : boardForComment env svc cid tid σ with
      | error e => rfl
      | ok board =>
          cases ho : commentOwner σ board cid with
          | none => simp only [ho]
          | some kr =>
              obtain ⟨k₁, r⟩ := kr
              simp only [hb, ho] at hof ⊢
              split
              · rfl
              · rename_i comment hfind
                simp only [hfind] at hof
                split at hof
                · obtain ⟨_, -, heq⟩ := Option.map_eq_some_iff.1 hof
                  have hk : k₁ = k := (Prod.mk.inj heq).1
                  subst hk
                  split
                  · rfl
                  · split
                    · rfl
                    · exact (records_maybeResume_ne h).trans (Table.get_put_ne _ _ h)
                · cases hof
  | answerPendingQuestion svc tid body author change =>
      cases change with
      | true => cases hof
      | false =>
          show (answerPendingQuestion env svc tid body author false σ).1.records.get k' = _
          unfold autoResumeOf at hof
          unfold answerPendingQuestion
          cases hf : fetch env svc σ tid with
          | error e => rfl
          | ok kr =>
              obtain ⟨k₁, r⟩ := kr
              obtain ⟨rfl, hget⟩ := get_of_fetch hf
              simp only [hf] at hof ⊢
              cases hthread : latestOpenThread r.comments with
              | none => simp [hthread] at hof
              | some thread =>
                  simp only [hthread] at hof ⊢
                  split at hof
                  · rename_i hans
                    obtain ⟨ha, -⟩ := Bool.and_eq_true_iff.1 hans
                    have hk : k₁ = k := by
                      split at hof
                      · exact (Prod.mk.inj (Option.some.inj hof)).1
                      · obtain ⟨_, -, heq⟩ := Option.map_eq_some_iff.1 hof
                        exact (Prod.mk.inj heq).1
                    subst hk
                    simp only [ha, Bool.not_true, Bool.false_eq_true, if_false]
                    generalize setClosedAt thread.id _ _ = cs
                    have hf' : fetch env svc (σ.putComments k₁ r cs) k₁.2 =
                        .ok (k₁, { r with comments := cs }) := fetch_putComments hf
                    have hput : (σ.putComments k₁ r cs).records.get k' = σ.records.get k' :=
                      Table.get_put_ne _ _ h
                    unfold afterAnswer
                    by_cases hb : r.ticket.state = .blocked
                    · have hbf : r.ticket.blockedFrom = some .awaitingUserReply := by
                        simpa [answerable, hb] using ha
                      have hf₂ := @fetch_commitTransition env svc k₁.2 .awaitingUserReply
                        (some "operator answered — resuming from ask_user timeout block") none _ k₁ _ hf'
                      have hcommit := @records_commitTransition env k₁ { r with comments := cs }
                        .awaitingUserReply
                        (some "operator answered — resuming from ask_user timeout block") none
                        (σ.putComments k₁ r cs)
                      simp only [hb, decide_true, if_true, answer_unblock _ hf' hb hbf,
                        Bool.false_eq_true, if_false]
                      have hget₂ : (commitTransition env k₁ { r with comments := cs }
                          .awaitingUserReply
                          (some "operator answered — resuming from ask_user timeout block") none
                          (σ.putComments k₁ r cs)).records.get k' = σ.records.get k' := by
                        rw [hcommit, Table.get_put_ne _ _ h]
                        exact hput
                      split
                      · rename_i heq
                        have := congrArg (fun res => res.1.records.get k') heq
                        exact this.symm.trans ((records_addComment_ne hf₂ h).trans hget₂)
                      · rename_i heq
                        have := congrArg (fun res => res.1.records.get k') heq
                        exact (records_maybeResume_ne h).trans
                          (this.symm.trans ((records_addComment_ne hf₂ h).trans hget₂))
                    · simp only [hb, decide_false, Bool.false_eq_true, if_false]
                      exact (records_maybeResume_ne h).trans hput
                  · cases hof
  | _ => cases hof

theorem still_blocked_of_autoResume {σ : Mill} {op : Op} {k kt : Key} {r rt : TicketRecord}
    (hc : (match autoResumeOf env σ op with
      | none => none
      | some (k, dst) =>
        if dst ∈ UNBLOCK_TRIGGER_STATES then (σ.records.get k).map fun r => (k, r) else none) =
        some (k, r)) (hne : kt ≠ k) (hget : σ.records.get kt = some rt) :
    (op.run env σ).1.records.get kt = some rt := by
  split at hc
  · cases hc
  · rename_i k' dst hof
    split at hc
    · obtain ⟨_, -, heq⟩ := Option.map_eq_some_iff.1 hc
      have hk : k' = k := (Prod.mk.inj heq).1
      subst hk
      exact (records_of_autoResumeOf hof hne).trans hget
    · cases hc

/-- What a call that does not fire should have unblocked is still blocked afterwards. -/
theorem still_blocked {σ : Mill} {op : Op} (hop : firesUnblocks op = false) {kt : Key}
    {rt : TicketRecord} (hs : ShouldUnblock env σ op kt rt) :
    (op.run env σ).1.records.get kt = some rt := by
  obtain ⟨k, r, tid, hc, hmem, hne, hu⟩ := hs
  have hgett := (get_of_fetch (fetch_of_get hu.1)).2
  cases op with
  | transition svc t dst note reason => cases hop
  | markDone svc t note author => cases hop
  | closeTracker svc t note =>
      obtain ⟨hf, -, hp⟩ := of_fetchedIncomplete hc
      have hr : closeTrackerRefusal t r.ticket = none := by simpa using hp
      have hg₁ := @get_put_ne env svc σ ((σ.putRecord k (closeTrackerRecord t (σ.now env) note r)).tick)
        k kt r _ rt tid (get_of_fetch hf).2 rfl hu.1 hne
      have hg₂ := get_afterCommit hg₁ (by rw [blocked_of_unblockable hu]; decide)
      show (closeTracker env svc t note σ).1.records.get kt = some rt
      simp only [closeTracker, hf, hr]
      exact (get_of_fetch (fetch_of_get hg₂)).2
  | resumeBlocked svc t note =>
      obtain ⟨hf, -, hp⟩ := of_fetchedIncomplete hc
      obtain ⟨hr, -⟩ := Bool.and_eq_true_iff.1 hp
      have hr' : resumeRefusal t r.ticket = none := by simpa using hr
      show (resumeBlocked env svc t note σ).1.records.get kt = some rt
      simp only [resumeBlocked, hf, hr']
      exact (Table.get_put_ne _ _ hne).trans hgett
  | addComment svc t body author pid =>
      exact still_blocked_of_autoResume hc hne hgett
  | closeThread svc cid t => exact still_blocked_of_autoResume hc hne hgett
  | answerPendingQuestion svc t body author change => exact still_blocked_of_autoResume hc hne hgett
  | _ => cases hc

/-- **Completions and their unblocks.** In every reachable store, a call that returns has unblocked what
    its completion should unblock exactly when it is a `transition` or a `mark_done`, or there is
    nothing to unblock. -/
theorem completion_fires_unblocks {ops : List Op} {σ : Mill} {op : Op}
    (hrun : OpRun env (fun _ _ => True) Mill.empty ops σ) (hok : (op.run env σ).2 = .ok ()) :
    FiresUnblocks env σ op ↔
      firesUnblocks op = true ∨ ¬ ∃ kt rt, ShouldUnblock env σ op kt rt := by
  have hb := blockable_of_run hrun
  constructor
  · intro h
    by_cases hop : firesUnblocks op = true
    · exact .inl hop
    · refine .inr ?_
      rintro ⟨kt, rt, hs⟩
      obtain ⟨rt', hget', hne, -⟩ := h kt rt hs
      rw [still_blocked (by simpa using hop) hs] at hget'
      cases hget'
      obtain ⟨_, _, _, -, -, -, hu⟩ := hs
      exact hne (blocked_of_unblockable hu)
  · rintro (hop | hno)
    · cases op with
      | transition svc tid dst note reason => exact firesUnblocks_transition hb hok
      | markDone svc tid note author => exact firesUnblocks_markDone hb
      | _ => cases hop
    · intro kt rt hs
      exact absurd ⟨kt, rt, hs⟩ hno

/-- A blocked ticket, and a tracker that should re-open it. -/
def trackerRun : List Op :=
  [.create "board" { id := "t-1", title := "tracker", unblocks := some ["t-2"] },
    .create "board" { id := "t-2", title := "dependent" },
    .transition "board" "t-2" .blocked (some "waiting for t-1") none]

/-- Marking the tracker done re-opens the dependent. -/
theorem completion_fires_unblocks_mark_done :
    ∃ rt, ((runOps .standalone .empty (trackerRun ++ [.markDone "board" "t-1" "" "operator"])).records.get
      ("board", "t-2")) = some rt ∧ rt.ticket.state = .draft := by
  have hfires := (@completion_fires_unblocks .standalone trackerRun _ (.markDone "board" "t-1" "" "operator")
    (opRun_any .standalone .empty trackerRun) rfl).2 (.inl rfl)
  obtain ⟨rt, hget, -, hst⟩ := hfires ("board", "t-2") _
    ⟨("board", "t-1"), _, "t-2", rfl, List.mem_singleton.2 rfl, by decide, rfl, rfl, rfl⟩
  exact ⟨rt, hget, hst⟩

/-- Closing it does not. -/
theorem close_tracker_fires_nothing :
    let closed := closeTracker .standalone "board" "t-1" "no longer tracked"
      (runOps .standalone .empty trackerRun)
    closed.2.isOk = true ∧
    (closed.1.records.get ("board", "t-1")).map (fun r => r.ticket.state) = some .closed ∧
    (closed.1.records.get ("board", "t-2")).map (fun r => (r.ticket.state, r.ticket.blockedFrom)) =
      some (.blocked, some .draft) := by
  decide +kernel

end Service
end RobotsixMill
