import RobotsixMill.Service.Completions
import RobotsixMill.Service.MigrationFidelity

/-!
# `Service.OpenQuestions` — a finished ticket carries no open question

`transition` refuses to finish a ticket (`done`, `closed`, `errored`) while an `[ASK_USER]` thread is open,
or closes the threads of a force-close, and `mark_done` closes them. `close_tracker` and `resume_blocked`
write a finished state without looking at the threads, and the note of a resume or of `mark_done` becomes
a comment that can be a question itself.

- `Settled` — every open question of a finished ticket was there before; the sessions compose.
- `settled_fireUnblocks` — the cascade settles, by induction on its depth.
- `finished_without_open_question` — exactly when a call finishes tickets without an open question.
-/

namespace RobotsixMill
namespace Service
open RobotsixMill.Core Lib

/-! ## Threads -/

/-- The body would open a question if it stood in a top-level comment. -/
def asksQuestion (body : String) : Bool := sqlLike ASK_USER_MARKER.toList body.toList

@[simp] theorem openAskUserThreads_nil : openAskUserThreads [] = [] := rfl

@[simp] theorem openAskUserThreads_append (cs ds : List Comment) :
    openAskUserThreads (cs ++ ds) = openAskUserThreads cs ++ openAskUserThreads ds :=
  List.filter_append ..

@[simp] theorem openAskUserThreads_close (now : DateTime) (cs : List Comment) :
    openAskUserThreads (closeAskUserThreads now cs) = [] := by
  apply List.filter_eq_nil_iff.2
  intro c hc
  obtain ⟨d, -, rfl⟩ := List.mem_map.1 hc
  by_cases hd : (isAskUserThread d && d.closedAt.isNone) = true
  · simp [hd]
  · rw [if_neg hd]
    exact hd

/-- A new comment is an open question if its body asks one. -/
theorem openAskUserThreads_new {c : Comment} (hroot : c.parentId = none) (hopen : c.closedAt = none) :
    openAskUserThreads [c] = if asksQuestion c.body = true then [c] else [] := by
  unfold openAskUserThreads
  rw [List.filter_cons]
  simp only [isAskUserThread, hroot, hopen, Option.isNone_none, Bool.true_and, Bool.and_true]
  rfl

/-- An auto-resume finds every question closed. -/
theorem openAskUserThreads_of_autoResume {r : TicketRecord} {dst : State}
    (hd : autoResumeDst r = some dst) : openAskUserThreads r.comments = [] := by
  obtain ⟨-, hq, -⟩ := autoResumeDst_eq_some.1 hd
  have hall := List.all_eq_true.1 (Bool.and_eq_true_iff.1 hq).2
  apply List.filter_eq_nil_iff.2
  intro c hc hask
  obtain ⟨hask, hnone⟩ := Bool.and_eq_true_iff.1 hask
  have hsome := hall c (List.mem_filter.2 ⟨hc, hask⟩)
  rw [Option.isNone_iff_eq_none] at hnone
  simp [hnone] at hsome

/-! ## Sessions that settle -/

/-- Every open question of a finished ticket was there before, on the ticket in the same state. -/
def Settled (T T' : Table Key TicketRecord) : Prop :=
  ∀ k r', T'.get k = some r' → r'.ticket.state ∈ TERMINAL_STATES → openAskUserThreads r'.comments ≠ [] →
    ∃ r, T.get k = some r ∧ r.ticket.state = r'.ticket.state ∧ openAskUserThreads r.comments ≠ []

section Settle

variable {T T' T'' : Table Key TicketRecord}

theorem Settled.refl (T : Table Key TicketRecord) : Settled T T :=
  fun _ r' hget _ hopen => ⟨r', hget, rfl, hopen⟩

theorem Settled.trans (h : Settled T T') (h' : Settled T' T'') : Settled T T'' := by
  intro k r'' hget hfin hopen
  obtain ⟨r', hget', hs', hopen'⟩ := h' k r'' hget hfin hopen
  obtain ⟨r, hget₀, hs, hopen₀⟩ := h k r' hget' (hs'.symm ▸ hfin) hopen'
  exact ⟨r, hget₀, hs.trans hs', hopen₀⟩

theorem Settled.erase (T : Table Key TicketRecord) (ds : List Key) :
    Settled T (ds.foldl Table.erase T) := by
  intro k r' hget _ hopen
  rw [get_eraseAll] at hget
  split at hget
  · cases hget
  · exact ⟨r', hget, rfl, hopen⟩

/-- A write settles when the record it leaves has no open question, or is not finished. -/
theorem Settled.put {k : Key} {r' : TicketRecord}
    (h : r'.ticket.state ∈ TERMINAL_STATES → openAskUserThreads r'.comments = []) :
    Settled T (T.put k r') := by
  intro k' r'' hget hfin hopen
  by_cases hk : k' = k
  · subst hk
    rw [Table.get_put_self] at hget
    cases hget
    exact absurd (h hfin) hopen
  · rw [Table.get_put_ne _ _ hk] at hget
    exact ⟨r'', hget, rfl, hopen⟩

/-- A write settles when it leaves state and open questions alone. -/
theorem Settled.put_same {k : Key} {r r' : TicketRecord} (hget : T.get k = some r)
    (hs : r'.ticket.state = r.ticket.state)
    (hc : openAskUserThreads r'.comments = openAskUserThreads r.comments) :
    Settled T (T.put k r') := by
  intro k' r'' hget' hfin hopen
  by_cases hk : k' = k
  · subst hk
    rw [Table.get_put_self] at hget'
    cases hget'
    exact ⟨r, hget, hs.symm, hc ▸ hopen⟩
  · rw [Table.get_put_ne _ _ hk] at hget'
    exact ⟨r'', hget', rfl, hopen⟩

end Settle

variable {env : Env} {svc : BoardId} {σ : Mill}

/-- What the guard of `transition` and the closing of threads leave open on a finished ticket. -/
theorem settled_transitionRecord {tid : TicketId} {now : Nat → DateTime} {dst : State}
    {note reason : Option String} {r : TicketRecord} (hr : transitionRefusal tid dst r = none)
    (hfin : dst ∈ TERMINAL_STATES) :
    openAskUserThreads (transitionRecord tid now dst note reason r).comments = [] := by
  show openAskUserThreads (if closesThreads r.ticket dst then closeAskUserThreads (now 0) r.comments
    else r.comments) = []
  cases hc : closesThreads r.ticket dst with
  | true => simp
  | false =>
      rw [if_neg (by simp)]
      by_contra hopen
      have hforce : forceClosesThreads r.ticket dst = false :=
        (Bool.or_eq_false_iff.1 hc).1
      unfold transitionRefusal at hr
      dsimp only at hr
      split at hr
      · cases hr
      · rw [if_pos ⟨hfin, hopen, hforce⟩] at hr
        cases hr

theorem settled_transitionSession (tid : TicketId) (dst : State) (note reason : Option String)
    (σ : Mill) :
    Settled σ.records (transitionSession env svc tid dst note reason σ).1.records := by
  rcases transitionSession_cases tid dst note reason σ with h | ⟨k, r, -, -, hr, ds, hds⟩
  · rw [h]
    exact .refl _
  · rw [hds]
    refine (Settled.put ?_).trans (.erase _ ds)
    exact settled_transitionRecord hr

theorem settled_unblockSession (solver tid : TicketId) (σ : Mill) :
    Settled σ.records (unblockSession env svc solver tid σ).1.records := by
  rcases @unblockSession_cases env svc solver tid σ with h | ⟨k, r, -, -, h⟩
  · rw [h]
    exact .refl _
  · rw [h]
    exact settled_transitionSession tid (unblockDst r.ticket) (some (unblockNote solver)) none σ

/-- **The cascade settles**, whatever its depth. -/
theorem settled_fireUnblocks (depth : Nat) (solver : TicketId) (targets : List TicketId) (σ : Mill) :
    Settled σ.records (fireUnblocks env svc depth solver targets σ).records :=
  fireUnblocks_induction (R := fun σ σ' => Settled σ.records σ'.records) (fun _ => .refl _)
    (fun _ _ _ => Settled.trans) settled_unblockSession depth solver targets σ

theorem settled_transition (tid : TicketId) (dst : State) (note reason : Option String) (σ : Mill) :
    Settled σ.records (transition env svc tid dst note reason σ).1.records := by
  have hset := @settled_transitionSession env svc tid dst note reason σ
  unfold transition
  split
  · rename_i heq
    rw [heq] at hset
    exact hset
  · rename_i heq
    rw [heq] at hset
    exact hset.trans (settled_fireUnblocks _ _ _ _)

theorem settled_maybeResume (k : Key) (σ : Mill) :
    Settled σ.records (maybeResumeAwaitingUserReply env k σ).records := by
  unfold maybeResumeAwaitingUserReply
  cases σ.records.get k with
  | none => exact .refl _
  | some r =>
      cases hd : autoResumeDst r with
      | none =>
          simp only [hd]
          exact .refl _
      | some dst =>
          simp only [hd]
          refine Settled.put fun _ => ?_
          show openAskUserThreads r.comments = []
          exact openAskUserThreads_of_autoResume hd

/-- A comment that is no question settles. -/
theorem settled_addComment {tid : TicketId} {body author : String} (hbody : asksQuestion body = false)
    (σ : Mill) : Settled σ.records (addComment env svc tid body author none σ).1.records := by
  unfold addComment
  cases hf : fetch env svc σ tid with
  | error e => exact .refl _
  | ok kr =>
      obtain ⟨k, r⟩ := kr
      refine Settled.put_same (get_of_fetch hf).2 rfl ?_
      show openAskUserThreads (r.comments ++ [_]) = _
      rw [openAskUserThreads_append, openAskUserThreads_new rfl rfl]
      simp [hbody]

/-- What `answer_pending_question` does last. -/
theorem settled_answered (k : Key) (body : String) (change : Bool) (σ : Mill) :
    Settled σ.records (if change = true then transition env svc k.2 .ready (some body) none σ
      else (maybeResumeAwaitingUserReply env k σ, .ok ())).1.records := by
  split
  · exact settled_transition _ _ _ _ _
  · exact settled_maybeResume _ _

theorem settled_afterAnswer (k : Key) (wasBlocked : Bool) (body : String) (change : Bool) (σ : Mill) :
    Settled σ.records (afterAnswer env svc k wasBlocked body change σ).1.records := by
  unfold afterAnswer
  dsimp only
  cases wasBlocked with
  | false => exact settled_answered k body change σ
  | true =>
      -- the ticket is paused again first, and a comment says so
      have hset := @settled_transition env svc k.2 .awaitingUserReply
        (some "operator answered — resuming from ask_user timeout block") none σ
      rw [if_pos rfl]
      generalize transition env svc k.2 .awaitingUserReply
        (some "operator answered — resuming from ask_user timeout block") none σ = res at hset ⊢
      obtain ⟨σ₁, e | _⟩ := res
      · exact hset
      · dsimp only
        generalize htext : "Operator answered the [ASK_USER] question — resuming " ++ _ = text
        have hbody : asksQuestion text = false := by
          rw [← htext]
          simp [asksQuestion, ASK_USER_MARKER, sqlLike, asciiLower]
        have hadd := hset.trans (@settled_addComment env svc k.2 text "system" hbody σ₁)
        generalize addComment env svc k.2 text "system" none σ₁ = res at hadd ⊢
        obtain ⟨σ₂, e | _⟩ := res
        · exact hadd
        · exact hadd.trans (settled_answered k body change σ₂)

/-! ## Finishing a ticket -/

/-- The call moved `k` into a finished state: the ticket was in another state before, or not there. -/
def FinishedBy (σ σ' : Mill) (k : Key) (r' : TicketRecord) : Prop :=
  σ'.records.get k = some r' ∧ r'.ticket.state ∈ TERMINAL_STATES ∧
    ∀ r, σ.records.get k = some r → r.ticket.state ≠ r'.ticket.state

/-- No ticket the call finishes has an open question when the call is over. -/
def FinishesAnswered (env : Env) (σ : Mill) (op : Op) : Prop :=
  ∀ k r', FinishedBy σ (op.run env σ).1 k r' → openAskUserThreads r'.comments = []

/-- The archive purge at the end of `close_tracker` spares the ticket it has just closed. -/
def sparedByPurge (env : Env) (svc : BoardId) (tid : TicketId) (note : String) (σ : Mill) (k : Key)
    (r : TicketRecord) : Bool :=
  ((afterCommit env svc
    ((σ.putRecord k (closeTrackerRecord tid (σ.now env) note r)).tick)).1.records.get k).isSome

/-- The note `mark_done` would leave as a comment. -/
def markDoneComment (env : Env) (note : String) (σ : Mill) (k : Key) (r : TicketRecord) : String :=
  verifyCitations env k (σ.workspace k).repo (markDoneNote r note) σ

/-- The calls that finish a ticket with an open question: `close_tracker` with a question open, a resume
    into a finished state with a question open or a note that is one, and `mark_done` with such a note. -/
def leavesQuestion (env : Env) (σ : Mill) : Op → Bool
  | .closeTracker svc tid note => fetched env svc σ tid fun k r =>
      (closeTrackerRefusal tid r.ticket).isNone && !(openAskUserThreads r.comments).isEmpty &&
        sparedByPurge env svc tid note σ k r
  | .resumeBlocked svc tid note => fetched env svc σ tid fun _ r =>
      (resumeRefusal tid r.ticket).isNone &&
        decide (r.ticket.blockedFrom.getD .blocked ∈ TERMINAL_STATES) &&
        (!(openAskUserThreads r.comments).isEmpty || asksQuestion (strip note))
  | .markDone svc tid note _ => fetched env svc σ tid fun k r =>
      (markDoneRefusal tid r.ticket).isNone && (unmergedRefusal env k r.ticket σ).isNone &&
        !isBlank (markDoneComment env note σ k r) && asksQuestion (markDoneComment env note σ k r)
  | _ => false

theorem Settled.finishesAnswered {op : Op} (h : Settled σ.records (op.run env σ).1.records) :
    FinishesAnswered env σ op := by
  rintro k r' ⟨hget, hfin, hmoved⟩
  by_contra hopen
  obtain ⟨r, hget₀, hs, -⟩ := h k r' hget hfin hopen
  exact hmoved r hget₀ hs

/-- New comments on a ticket, then a session that settles: nothing is finished with a question open. -/
theorem finishesAnswered_of_putComments {op : Op} {k : Key} {r : TicketRecord} {cs : List Comment}
    (hget : σ.records.get k = some r)
    (h : Settled (σ.putComments k r cs).records (op.run env σ).1.records) :
    FinishesAnswered env σ op := by
  rintro k' r' ⟨hget', hfin, hmoved⟩
  by_contra hopen
  obtain ⟨r₁, hget₁, hs, -⟩ := h k' r' hget' hfin hopen
  by_cases hk : k' = k
  · subst hk
    have hr₁ : r₁ = { r with comments := cs } :=
      Option.some.inj (hget₁.symm.trans (Table.get_put_self σ.records k' _))
    rw [hr₁] at hs
    exact hmoved r hget hs
  · have hget₀ : σ.records.get k' = some r₁ :=
      (Table.get_put_ne σ.records { r with comments := cs } hk).symm.trans hget₁
    exact hmoved r₁ hget₀ hs

/-! ### The calls that look at the threads -/

theorem finishesAnswered_addComment (tid : TicketId) (body author : String) (pid : Option CommentId) :
    FinishesAnswered env σ (.addComment svc tid body author pid) := by
  by_cases h : (addComment env svc tid body author pid σ).1 = σ
  · apply Settled.finishesAnswered
    show Settled σ.records (addComment env svc tid body author pid σ).1.records
    rw [h]
    exact .refl _
  · -- the comment is stored; the answer to a question may resume the ticket
    obtain ⟨k, r, cs, hget, hrun⟩ : ∃ k r cs, σ.records.get k = some r ∧
        ((addComment env svc tid body author pid σ).1 = σ.putComments k r cs ∨
          (addComment env svc tid body author pid σ).1 =
            maybeResumeAwaitingUserReply env k (σ.putComments k r cs)) := by
      unfold addComment at h ⊢
      cases hf : fetch env svc σ tid with
      | error e => simp [hf] at h
      | ok kr =>
          obtain ⟨k, r⟩ := kr
          have hget := (get_of_fetch hf).2
          simp only [hf] at h ⊢
          cases pid with
          | none => exact ⟨k, r, _, hget, .inl rfl⟩
          | some pid =>
              dsimp only at h ⊢
              split
              · rename_i hfind
                simp only [hfind] at h
                split at h <;> exact absurd rfl h
              · split
                · exact ⟨k, r, _, hget, .inr rfl⟩
                · exact ⟨k, r, _, hget, .inl rfl⟩
    refine @finishesAnswered_of_putComments env σ _ k r cs hget ?_
    show Settled _ (addComment env svc tid body author pid σ).1.records
    rcases hrun with hrun | hrun
    · rw [hrun]
      exact .refl _
    · rw [hrun]
      exact settled_maybeResume k _

theorem finishesAnswered_closeThread (cid : CommentId) (tid : Option TicketId) :
    FinishesAnswered env σ (.closeThread svc cid tid) := by
  by_cases h : (closeThread env svc cid tid σ).1 = σ
  · apply Settled.finishesAnswered
    show Settled σ.records (closeThread env svc cid tid σ).1.records
    rw [h]
    exact .refl _
  · -- past its checks the call closes the thread
    obtain ⟨k, r, cs, hget, hrun⟩ : ∃ k r cs, σ.records.get k = some r ∧
        (closeThread env svc cid tid σ).1 =
          maybeResumeAwaitingUserReply env k (σ.putComments k r cs) := by
      unfold closeThread at h ⊢
      cases hb : boardForComment env svc cid tid σ with
      | error e => simp [hb] at h
      | ok board =>
          cases ho : commentOwner σ board cid with
          | none => simp [hb, ho] at h
          | some kr =>
              obtain ⟨k, r⟩ := kr
              cases hfind : r.comments.find? fun c => c.id = cid with
              | none => simp [hb, ho, hfind] at h
              | some comment =>
                  simp only [hb, ho, hfind] at h ⊢
                  split
                  · rename_i hroot
                    simp [hroot] at h
                  · rename_i hroot
                    split
                    · rename_i hclosed
                      simp [hroot, hclosed] at h
                    · exact ⟨k, r, _, commentOwner_get ho, rfl⟩
    refine @finishesAnswered_of_putComments env σ _ k r cs hget ?_
    show Settled _ (closeThread env svc cid tid σ).1.records
    rw [hrun]
    exact settled_maybeResume k _

theorem finishesAnswered_answer (tid : TicketId) (body author : String) (change : Bool) :
    FinishesAnswered env σ (.answerPendingQuestion svc tid body author change) := by
  by_cases h : (answerPendingQuestion env svc tid body author change σ).1 = σ
  · apply Settled.finishesAnswered
    show Settled σ.records (answerPendingQuestion env svc tid body author change σ).1.records
    rw [h]
    exact .refl _
  · obtain ⟨k, r, cs, b, hget, hrun⟩ : ∃ k r cs b, σ.records.get k = some r ∧
        answerPendingQuestion env svc tid body author change σ =
          afterAnswer env svc k b body change (σ.putComments k r cs) := by
      unfold answerPendingQuestion at h ⊢
      cases hf : fetch env svc σ tid with
      | error e => simp [hf] at h
      | ok kr =>
          obtain ⟨k, r⟩ := kr
          cases ha : answerable r.ticket with
          | false => simp [hf, ha] at h
          | true =>
              cases hthread : latestOpenThread r.comments with
              | none => simp [hf, ha, hthread] at h
              | some thread =>
                  simp only [ha, hthread, Bool.not_true, Bool.false_eq_true, if_false]
                  exact ⟨k, r, _, _, (get_of_fetch hf).2, rfl⟩
    refine @finishesAnswered_of_putComments env σ _ k r cs hget ?_
    show Settled _ (answerPendingQuestion env svc tid body author change σ).1.records
    rw [hrun]
    exact settled_afterAnswer _ _ _ _ _

/-! ### Migration -/

/-- Copies are drafts. -/
theorem settled_insertCopies {now : Nat → DateTime} {src dst : BoardId} {root : TicketId}
    {note : Option String} {ts : List TicketId} {nextId : CommentId}
    {idMap : List (CommentId × CommentId)} {T T' : Table Key TicketRecord}
    (h : insertCopies now src dst root note ts nextId idMap T = some T') : Settled T T' := by
  induction ts generalizing nextId idMap T with
  | nil =>
      cases h
      exact .refl _
  | cons t ts ih =>
      unfold insertCopies at h
      split at h
      · refine Settled.trans (Settled.put fun hfin => ?_) (ih h)
        exact absurd hfin (by decide : State.draft ∉ TERMINAL_STATES)
      · cases h

theorem settled_commitMigration {src dst : BoardId} {root : TicketId} {ts : List TicketId}
    {note : Option String} {moves : List WsMove} {ws : Key → Option Workspace} :
    Settled σ.records
      (commitMigration env src dst root ts note moves { σ with workspaces := ws }).1.records := by
  unfold commitMigration
  dsimp only
  split
  · exact .refl _
  · rename_i T hT
    have hins : Settled σ.records T := by
      split at hT
      · cases hT
      · exact settled_insertCopies hT
    split
    · exact hins
    · refine hins.trans ?_
      show Settled T (deleteSources src ts T)
      rw [deleteSources_eq]
      exact .erase _ _

theorem settled_migrate (tid : TicketId) (target : String) (note : Option String) (σ : Mill) :
    Settled σ.records (migrate env svc tid target note σ).1.records := by
  unfold migrate
  split
  · exact .refl _
  · split
    · exact .refl _
    · split
      · exact .refl _
      · split
        · exact .refl _
        · split
          · exact .refl _
          · split
            · exact .refl _
            · split
              · unfold migrateEpicSubtree
                split
                · exact .refl _
                · dsimp only
                  split
                  · exact .refl _
                  · split
                    · exact .refl _
                    · exact settled_commitMigration
              · unfold migrateSingle
                split
                · exact .refl _
                · split
                  · exact .refl _
                  · split
                    · exact .refl _
                    · exact settled_commitMigration

/-! ### The calls that do not look -/

/-- A session on one ticket that commits `r'`. -/
theorem finishesAnswered_put {op : Op} {k : Key} {r r' : TicketRecord}
    (hget : σ.records.get k = some r) (hrun : (op.run env σ).1.records = σ.records.put k r')
    (hmoves : r'.ticket.state ∈ TERMINAL_STATES → r.ticket.state ≠ r'.ticket.state) :
    FinishesAnswered env σ op ↔
      (r'.ticket.state ∈ TERMINAL_STATES → openAskUserThreads r'.comments = []) := by
  constructor
  · intro h hfin
    refine h k r' ⟨?_, hfin, ?_⟩
    · rw [hrun, Table.get_put_self]
    · intro r₀ hget₀
      rw [hget] at hget₀
      cases hget₀
      exact hmoves hfin
  · intro h
    apply Settled.finishesAnswered
    rw [hrun]
    exact .put h

theorem finishesAnswered_resumeBlocked (tid : TicketId) (note : String) :
    FinishesAnswered env σ (.resumeBlocked svc tid note) ↔
      leavesQuestion env σ (.resumeBlocked svc tid note) = false := by
  show _ ↔ fetched env svc σ tid _ = false
  unfold fetched
  cases hf : fetch env svc σ tid with
  | error e =>
      refine iff_of_true (Settled.finishesAnswered ?_) rfl
      show Settled σ.records (resumeBlocked env svc tid note σ).1.records
      unfold resumeBlocked
      rw [hf]
      exact .refl _
  | ok kr =>
      obtain ⟨k, r⟩ := kr
      cases hr : resumeRefusal tid r.ticket with
      | some e =>
          refine iff_of_true (Settled.finishesAnswered ?_) (by simp [hr])
          show Settled σ.records (resumeBlocked env svc tid note σ).1.records
          unfold resumeBlocked
          simp only [hf, hr]
          exact .refl _
      | none =>
          obtain ⟨hb, -⟩ := resume_allowed hr
          obtain ⟨eventNote, hrun⟩ : ∃ eventNote,
              ((Op.resumeBlocked svc tid note).run env σ).1.records = σ.records.put k
                (resumeRecord env.settings tid (σ.now env) (nextCommentId σ k.1) note eventNote r) := by
            show ∃ eventNote, (resumeBlocked env svc tid note σ).1.records = _
            simp only [resumeBlocked, hf, hr]
            exact ⟨_, rfl⟩
          rw [finishesAnswered_put (get_of_fetch hf).2 hrun (fun hfin heq => ?_)]
          · -- the note is stored unless it is blank
            have hopen : openAskUserThreads (resumeRecord env.settings tid (σ.now env)
                (nextCommentId σ k.1) note eventNote r).comments = [] ↔
                openAskUserThreads r.comments = [] ∧ asksQuestion (strip note) = false := by
              unfold resumeRecord
              dsimp only
              by_cases hblank : strip note = ""
              · rw [if_pos hblank, hblank]
                simp [asksQuestion, ASK_USER_MARKER, sqlLike]
              · rw [if_neg hblank, openAskUserThreads_append, openAskUserThreads_new rfl rfl]
                cases asksQuestion (strip note) <;> simp
            rw [hopen]
            show (r.ticket.blockedFrom.getD .blocked ∈ TERMINAL_STATES → _) ↔ _
            simp only [hr, Option.isNone_none, Bool.true_and, Bool.and_eq_false_iff,
              decide_eq_false_iff_not, Bool.or_eq_false_iff, Bool.not_eq_false',
              List.isEmpty_iff, imp_iff_not_or]
          · rw [← heq, hb] at hfin
            exact absurd hfin (by decide)

theorem finishesAnswered_closeTracker (tid : TicketId) (note : String) :
    FinishesAnswered env σ (.closeTracker svc tid note) ↔
      leavesQuestion env σ (.closeTracker svc tid note) = false := by
  show _ ↔ fetched env svc σ tid _ = false
  unfold fetched
  cases hf : fetch env svc σ tid with
  | error e =>
      refine iff_of_true (Settled.finishesAnswered ?_) rfl
      show Settled σ.records (closeTracker env svc tid note σ).1.records
      unfold closeTracker
      rw [hf]
      exact .refl _
  | ok kr =>
      obtain ⟨k, r⟩ := kr
      have hget := (get_of_fetch hf).2
      cases hr : closeTrackerRefusal tid r.ticket with
      | some e =>
          refine iff_of_true (Settled.finishesAnswered ?_) (by simp [hr])
          show Settled σ.records (closeTracker env svc tid note σ).1.records
          unfold closeTracker
          simp only [hf, hr]
          exact .refl _
      | none =>
          have hrun : ((Op.closeTracker svc tid note).run env σ).1 = (afterCommit env svc
              ((σ.putRecord k (closeTrackerRecord tid (σ.now env) note r)).tick)).1 := by
            show (closeTracker env svc tid note σ).1 = _
            simp only [closeTracker, hf, hr]
          obtain ⟨ds, -, hds⟩ := @afterCommit_records env svc
            ((σ.putRecord k (closeTrackerRecord tid (σ.now env) note r)).tick)
          have hdsget : ∀ k', ((Op.closeTracker svc tid note).run env σ).1.records.get k' =
              if k' ∈ ds then none
              else (σ.records.put k (closeTrackerRecord tid (σ.now env) note r)).get k' := by
            intro k'
            rw [hrun, hds, get_eraseAll]
            rfl
          have hspared : sparedByPurge env svc tid note σ k r = true ↔ k ∉ ds := by
            unfold sparedByPurge
            rw [← hrun, hdsget k, Table.get_put_self]
            split <;> simp_all
          have hcond : (((closeTrackerRefusal tid r.ticket).isNone &&
              !(openAskUserThreads r.comments).isEmpty && sparedByPurge env svc tid note σ k r) =
                false) ↔ (k ∉ ds → openAskUserThreads r.comments = []) := by
            rw [← hspared, hr]
            cases sparedByPurge env svc tid note σ k r <;> simp
          rw [hcond]
          constructor
          · intro h hk
            have hfin : State.closed ∈ TERMINAL_STATES := by decide
            refine h k (closeTrackerRecord tid (σ.now env) note r) ⟨?_, hfin, ?_⟩
            · rw [hdsget, if_neg hk, Table.get_put_self]
            · -- a closed ticket is refused
              intro r₀ hget₀ heq
              rw [hget] at hget₀
              cases hget₀
              have hclosed : r.ticket.state = .closed := heq
              simp [closeTrackerRefusal, hclosed] at hr
          · rintro h k' r' ⟨hget', hfin, hmoved⟩
            rw [hdsget] at hget'
            split at hget'
            · cases hget'
            · rename_i hk
              by_cases hkk : k' = k
              · subst hkk
                rw [Table.get_put_self] at hget'
                cases hget'
                exact h hk
              · rw [Table.get_put_ne _ _ hkk] at hget'
                exact absurd rfl (hmoved r' hget')

theorem finishesAnswered_markDone (hb : σ.records.AllRows fun _ r => Blockable r) (tid : TicketId)
    (note author : String) :
    FinishesAnswered env σ (.markDone svc tid note author) ↔
      leavesQuestion env σ (.markDone svc tid note author) = false := by
  show _ ↔ fetched env svc σ tid _ = false
  unfold fetched
  cases hf : fetch env svc σ tid with
  | error e =>
      refine iff_of_true (Settled.finishesAnswered ?_) rfl
      show Settled σ.records (markDone env svc tid note author σ).1.records
      simp only [markDone, markDoneSession, hf]
      exact .refl _
  | ok kr =>
      obtain ⟨k, r⟩ := kr
      have hget := (get_of_fetch hf).2
      cases hr : markDoneRefusal tid r.ticket with
      | some e =>
          refine iff_of_true (Settled.finishesAnswered ?_) (by simp [hr])
          show Settled σ.records (markDone env svc tid note author σ).1.records
          simp only [markDone, markDoneSession, hf, hr]
          exact .refl _
      | none =>
          cases hm : unmergedRefusal env k r.ticket σ with
          | some msg =>
              refine iff_of_true (Settled.finishesAnswered ?_) (by simp [hm])
              show Settled σ.records (markDone env svc tid note author σ).1.records
              simp only [markDone, markDoneSession, hf, hr, hm]
              exact .refl _
          | none =>
              obtain ⟨σ₁, hrec, hrun⟩ : ∃ σ₁ : Mill,
                  σ₁.records = σ.records.put k (markDoneRecord tid (σ.now env)
                    (nextCommentId σ k.1) (markDoneComment env note σ k r) author r) ∧
                  ((Op.markDone svc tid note author).run env σ).1 = fireUnblocks env svc
                    (σ₁.blockedCount + 1) tid (parseDependsOnStr r.ticket.unblocks) σ₁ := by
                show ∃ σ₁ : Mill, _ ∧ (markDone env svc tid note author σ).1 = _
                simp only [markDone, markDoneSession, hf, hr, hm]
                exact ⟨_, rfl, rfl⟩
              generalize hcomment : markDoneComment env note σ k r = comment at hrec ⊢
              have hopen : openAskUserThreads (markDoneRecord tid (σ.now env)
                  (nextCommentId σ k.1) comment author r).comments = [] ↔
                  (!isBlank comment && asksQuestion comment) = false := by
                unfold markDoneRecord
                dsimp only
                cases hblank : isBlank comment with
                | true => simp
                | false =>
                    rw [if_neg (by simp), openAskUserThreads_append, openAskUserThreads_new rfl rfl]
                    cases asksQuestion comment <;> simp
              simp only [hr, hm, hcomment, Option.isNone_none, Bool.true_and]
              rw [← hopen]
              constructor
              · intro h
                -- the ticket is done, so the cascade does not touch it
                have hb₁ : σ₁.records.AllRows fun _ r => Blockable r := by
                  rw [hrec]
                  exact hb.put (hb k r hget)
                have hkept := (@unblockedFrom_fireUnblocks env svc
                  (σ₁.blockedCount + 1) tid (parseDependsOnStr r.ticket.unblocks) σ₁ hb₁).keeps
                  (by rw [hrec, Table.get_put_self]) (by simp [markDoneRecord])
                refine h k _ ⟨by rw [hrun]; exact hkept, by simp [markDoneRecord, TERMINAL_STATES], ?_⟩
                intro r₀ hget₀ heq
                rw [hget] at hget₀
                cases hget₀
                have hdone : r.ticket.state = .done := heq
                simp [markDoneRefusal, hdone] at hr
              · intro h
                apply Settled.finishesAnswered
                rw [hrun]
                refine Settled.trans ?_ (settled_fireUnblocks _ _ _ _)
                rw [hrec]
                exact .put fun _ => h

/-! ### The calls that finish no ticket -/

theorem settled_create (args : CreateArgs) (σ : Mill) :
    Settled σ.records (create env svc args σ).1.records := by
  unfold create
  dsimp only
  split
  · exact .refl _
  · split
    · exact .refl _
    · exact .put fun _ => rfl

theorem settled_requestChanges (tid : TicketId) (body author : String) (σ : Mill) :
    Settled σ.records (requestChanges env svc tid body author σ).1.records := by
  unfold requestChanges
  split
  · exact .refl _
  · split
    · exact .refl _
    · exact .put fun hfin => absurd hfin (by decide : State.draft ∉ TERMINAL_STATES)

theorem settled_requestImplementationChanges (tid : TicketId) (body author : String) (σ : Mill) :
    Settled σ.records (requestImplementationChanges env svc tid body author σ).1.records := by
  unfold requestImplementationChanges
  split
  · exact .refl _
  · split
    · exact .refl _
    · exact .put fun hfin => absurd hfin (by decide : State.ready ∉ TERMINAL_STATES)

theorem settled_redraft (tid : TicketId) (body : String) (σ : Mill) :
    Settled σ.records (redraft env svc tid body σ).1.records := by
  unfold redraft
  split
  · exact .refl _
  · split
    · exact .refl _
    · dsimp only
      split
      · exact .refl _
      · split
        · exact .refl _
        · exact .put fun _ => rfl

theorem settled_addHistoryNote (tid : TicketId) (note : String) (σ : Mill) :
    Settled σ.records (addHistoryNote env svc tid note σ).1.records := by
  unfold addHistoryNote
  cases hf : fetch env svc σ tid with
  | error e => exact .refl _
  | ok kr => exact .put_same (get_of_fetch hf).2 rfl rfl

theorem settled_addStepEvent (tid : TicketId) (note : String) (σ : Mill) :
    Settled σ.records (addStepEvent env svc tid note σ).1.records := by
  unfold addStepEvent
  cases hf : fetch env svc σ tid with
  | error e => exact .refl _
  | ok kr => exact .put_same (get_of_fetch hf).2 rfl rfl

/-- The event purge keeps the row and the comments. -/
theorem settled_purgeTicketEvents (tid : TicketId) (σ : Mill) :
    Settled σ.records (maybePurgeTicketEvents env svc tid σ).1.records := by
  unfold maybePurgeTicketEvents
  split
  · exact .refl _
  · split
    · exact .refl _
    · split
      · exact .refl _
      · rename_i r hget
        obtain ⟨hticket, hcomments⟩ := purgeEventsRecord_keeps env.settings.maxEventsPerTicket r
        exact .put_same hget (by rw [hticket]) (by rw [hcomments])

/-- **Finished tickets and their questions.** In every reachable store, a call finishes tickets without an
    open question exactly when it is none of the calls `leavesQuestion` names. -/
theorem finished_without_open_question {ops : List Op} {op : Op}
    (hrun : OpRun env (fun _ _ => True) Mill.empty ops σ) :
    FinishesAnswered env σ op ↔ leavesQuestion env σ op = false := by
  cases op with
  | resumeBlocked svc tid note => exact finishesAnswered_resumeBlocked tid note
  | closeTracker svc tid note => exact finishesAnswered_closeTracker tid note
  | markDone svc tid note author =>
      exact finishesAnswered_markDone (blockable_of_run hrun) tid note author
  | create svc args => exact iff_of_true (settled_create args σ).finishesAnswered rfl
  | transition svc tid dst note reason =>
      exact iff_of_true (settled_transition tid dst note reason σ).finishesAnswered rfl
  | requestChanges svc tid body author =>
      exact iff_of_true (settled_requestChanges tid body author σ).finishesAnswered rfl
  | requestImplementationChanges svc tid body author =>
      exact iff_of_true (settled_requestImplementationChanges tid body author σ).finishesAnswered rfl
  | redraft svc tid body => exact iff_of_true (settled_redraft tid body σ).finishesAnswered rfl
  | migrate svc tid target note =>
      exact iff_of_true (settled_migrate tid target note σ).finishesAnswered rfl
  | addComment svc tid body author pid =>
      exact iff_of_true (finishesAnswered_addComment tid body author pid) rfl
  | closeThread svc cid tid => exact iff_of_true (finishesAnswered_closeThread cid tid) rfl
  | answerPendingQuestion svc tid body author change =>
      exact iff_of_true (finishesAnswered_answer tid body author change) rfl
  | addHistoryNote svc tid note => exact iff_of_true (settled_addHistoryNote tid note σ).finishesAnswered rfl
  | addStepEvent svc tid note => exact iff_of_true (settled_addStepEvent tid note σ).finishesAnswered rfl
  | purgeTicketEvents svc tid => exact iff_of_true (settled_purgeTicketEvents tid σ).finishesAnswered rfl

/-- A ticket on which a question is open. -/
def askedRun : List Op :=
  [.create "board" { id := "t-1", title := "ticket" },
    .addComment "board" "t-1" "[ASK_USER] which one?" "agent" none]

/-- `mark_done` closes the question first. -/
theorem finished_without_open_question_mark_done :
    FinishesAnswered .standalone (runOps .standalone .empty askedRun)
      (.markDone "board" "t-1" "not needed any more" "operator") :=
  (finished_without_open_question (opRun_any .standalone .empty askedRun)).2 (by decide +kernel)

/-- `close_tracker` leaves it open. -/
theorem close_tracker_leaves_question :
    let asked := runOps .standalone .empty askedRun
    let closed := closeTracker .standalone "board" "t-1" "no longer tracked" asked
    closed.2.isOk = true ∧
    (asked.records.get ("board", "t-1")).map (fun r => r.ticket.state) = some .draft ∧
    (closed.1.records.get ("board", "t-1")).map (fun r =>
      (r.ticket.state, (openAskUserThreads r.comments).map Comment.body)) =
      some (.closed, ["[ASK_USER] which one?"]) := by
  decide +kernel

end Service
end RobotsixMill
