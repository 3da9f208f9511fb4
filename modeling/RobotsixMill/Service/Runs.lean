import RobotsixMill.Service.Lifecycle
import RobotsixMill.Service.Migrate

/-!
# `Service.Runs` — runs of service operations refine runs of commits

`Op` names one call of a service method on a service bound to `svc`; `OpRun` strings calls together.
Every call is a run of commits (`Reaches`): the commits an operation makes in its own name must
meet the condition (`Admits`), the commits that follow from them (`Routine`) always do.
-/

namespace RobotsixMill
namespace Service
open RobotsixMill.Core Lib

/-- One call. -/
inductive Op
  | create (svc : BoardId) (args : CreateArgs)
  | transition (svc : BoardId) (tid : TicketId) (dst : State) (note blockReason : Option String)
  | resumeBlocked (svc : BoardId) (tid : TicketId) (note : String)
  | requestChanges (svc : BoardId) (tid : TicketId) (body author : String)
  | requestImplementationChanges (svc : BoardId) (tid : TicketId) (body author : String)
  | redraft (svc : BoardId) (tid : TicketId) (body : String)
  | markDone (svc : BoardId) (tid : TicketId) (note author : String)
  | closeTracker (svc : BoardId) (tid : TicketId) (note : String)
  | migrate (svc : BoardId) (tid : TicketId) (target : String) (note : Option String)
  | addComment (svc : BoardId) (tid : TicketId) (body author : String) (parentId : Option CommentId)
  | closeThread (svc : BoardId) (cid : CommentId) (tid : Option TicketId)
  | answerPendingQuestion (svc : BoardId) (tid : TicketId) (body author : String)
      (requiresChange : Bool)
  | addHistoryNote (svc : BoardId) (tid : TicketId) (note : String)
  | addStepEvent (svc : BoardId) (tid : TicketId) (note : String)
  | purgeTicketEvents (svc : BoardId) (tid : TicketId)

/-- The board a call's service is bound to. -/
def Op.board : Op → BoardId
  | create svc _ | transition svc _ _ _ _ | resumeBlocked svc _ _ | requestChanges svc _ _ _
  | requestImplementationChanges svc _ _ _ | redraft svc _ _ | markDone svc _ _ _
  | closeTracker svc _ _ | migrate svc _ _ _ | addComment svc _ _ _ _ | closeThread svc _ _
  | answerPendingQuestion svc _ _ _ _ | addHistoryNote svc _ _ | addStepEvent svc _ _
  | purgeTicketEvents svc _ => svc

/-- Perform a call. -/
def Op.run (env : Env) (σ : Mill) : Op → Result Unit
  | create svc args => Service.create env svc args σ
  | transition svc tid dst note reason => Service.transition env svc tid dst note reason σ
  | resumeBlocked svc tid note => Service.resumeBlocked env svc tid note σ
  | requestChanges svc tid body author => Service.requestChanges env svc tid body author σ
  | requestImplementationChanges svc tid body author =>
    Service.requestImplementationChanges env svc tid body author σ
  | redraft svc tid body => Service.redraft env svc tid body σ
  | markDone svc tid note author => Service.markDone env svc tid note author σ
  | closeTracker svc tid note => Service.closeTracker env svc tid note σ
  | migrate svc tid target note => Service.migrate env svc tid target note σ
  | addComment svc tid body author pid => Service.addComment env svc tid body author pid σ
  | closeThread svc cid tid => Service.closeThread env svc cid tid σ
  | answerPendingQuestion svc tid body author change =>
    Service.answerPendingQuestion env svc tid body author change σ
  | addHistoryNote svc tid note => Service.addHistoryNote env svc tid note σ
  | addStepEvent svc tid note => Service.addStepEvent env svc tid note σ
  | purgeTicketEvents svc tid => Service.maybePurgeTicketEvents env svc tid σ

/-- The retention purge of a history, as against a call that works on a ticket. -/
def Op.purges : Op → Bool
  | purgeTicketEvents _ _ => true
  | _ => false

/-- A call leads from `σ` to the state it leaves behind, whether it returns or raises. -/
def OpStep (env : Env) (σ : Mill) (op : Op) (σ' : Mill) : Prop := (op.run env σ).1 = σ'

/-- A run of calls that all meet `ok` in the state they are made in. -/
abbrev OpRun (env : Env) (ok : Mill → Op → Prop) (σ : Mill) (ops : List Op) (σ' : Mill) : Prop :=
  Run (Guarded ok (OpStep env)) σ ops σ'

/-- The state a list of calls leaves behind. -/
def runOps (env : Env) : Mill → List Op → Mill
  | σ, [] => σ
  | σ, op :: ops => runOps env (op.run env σ).1 ops

/-- Does every call meet `ok` in the state it is made in? -/
def okOps (env : Env) (ok : Mill → Op → Bool) : Mill → List Op → Bool
  | _, [] => true
  | σ, op :: ops => ok σ op && okOps env ok (op.run env σ).1 ops

theorem opRun_runOps {env : Env} {ok : Mill → Op → Bool} {σ : Mill} {ops : List Op}
    (h : okOps env ok σ ops = true) :
    OpRun env (fun σ op => ok σ op = true) σ ops (runOps env σ ops) := by
  induction ops generalizing σ with
  | nil => exact .nil σ
  | cons op ops ih =>
      obtain ⟨hop, hops⟩ := Bool.and_eq_true_iff.1 h
      exact .cons ⟨hop, rfl⟩ (ih hops)

/-- Any list of calls is a run. -/
theorem opRun_any (env : Env) (σ : Mill) (ops : List Op) :
    OpRun env (fun _ _ => True) σ ops (runOps env σ ops) := by
  induction ops generalizing σ with
  | nil => exact .nil σ
  | cons op ops ih => exact .cons ⟨trivial, rfl⟩ (ih _)

/-! ## Runs of commits -/

section Commits

variable {cond : Commit → Prop}

/-- Comments are added, closed or reopened, but none is taken away or reworded. -/
def Discussed (cs cs' : List Comment) : Prop := cs.map Comment.body <+: cs'.map Comment.body

theorem discussed_of_map_body_eq {cs cs' : List Comment} (h : cs'.map Comment.body = cs.map Comment.body) :
    Discussed cs cs' :=
  ⟨[], by rw [List.append_nil, h]⟩

/-- The commits no condition restricts: what follows from an operation's own commit. -/
structure Routine (cond : Commit → Prop) : Prop where
  delete : ∀ k, cond (.delete k)
  unblock : ∀ k r now note, cond (.change k r (.unblock now note))
  answerUnblock : ∀ k r now note, cond (.change k r (.answerUnblock now note))
  comments : ∀ k r cs, Discussed r.comments cs → cond (.change k r (.comments cs))

/-- The routine commits, and no other. -/
inductive RoutineCommit : Commit → Prop
  | delete (k : Key) : RoutineCommit (.delete k)
  | unblock (k : Key) (r : TicketRecord) (now : Nat → DateTime) (note : String) :
      RoutineCommit (.change k r (.unblock now note))
  | answerUnblock (k : Key) (r : TicketRecord) (now : Nat → DateTime) (note : String) :
      RoutineCommit (.change k r (.answerUnblock now note))
  | comments (k : Key) (r : TicketRecord) (cs : List Comment) :
      RoutineCommit (.change k r (.comments cs))

theorem routine_routineCommit : Routine RoutineCommit :=
  ⟨.delete, .unblock, .answerUnblock, fun k r cs _ => .comments k r cs⟩

/-- Some run of permitted commits leads from `T` to `T'`. -/
def Reaches (cond : Commit → Prop) (T T' : Table Key TicketRecord) : Prop :=
  ∃ cs, CommitRun cond T cs T'

theorem Reaches.refl (T : Table Key TicketRecord) : Reaches cond T T := ⟨[], .nil T⟩

theorem Reaches.trans {T T' T'' : Table Key TicketRecord} (h : Reaches cond T T')
    (h' : Reaches cond T' T'') : Reaches cond T T'' := by
  obtain ⟨cs, hcs⟩ := h
  obtain ⟨cs', hcs'⟩ := h'
  exact ⟨cs ++ cs', hcs.append hcs'⟩

theorem Reaches.step {T T' : Table Key TicketRecord} {c : Commit} (hc : cond c)
    (hs : CommitStep T c T') : Reaches cond T T' :=
  ⟨[c], CommitRun.single hc hs⟩

/-- Deleting rows is a run of commits. -/
theorem reaches_eraseAll (hR : Routine cond) (ks : List Key) (T : Table Key TicketRecord) :
    Reaches cond T (ks.foldl Table.erase T) := by
  induction ks generalizing T with
  | nil => exact .refl T
  | cons k ks ih => exact (Reaches.step (hR.delete k) .delete).trans (ih (T.erase k))

/-- A session on a stored record is a run of commits. -/
theorem reaches_put {T : Table Key TicketRecord} {k : Key} {r r' : TicketRecord} {c : Change}
    (hc : cond (.change k r c)) (hget : T.get k = some r) (hal : c.Allowed k.2 r)
    (hr' : r' = c.apply k.2 r) : Reaches cond T (T.put k r') := by
  subst hr'
  exact .step hc (.change hget hal)

end Commits

/-! ## The archive purge and the cascade -/

section Cascade

variable {env : Env} {svc : BoardId} {cond : Commit → Prop}

theorem purgeLoop_records (n : Nat) (ks : List Key) (σ : Mill) :
    ∃ ds : List Key, ds ⊆ ks ∧ (purgeLoop svc n ks σ).records = ds.foldl Table.erase σ.records := by
  induction ks generalizing n σ with
  | nil =>
      cases n with
      | zero => exact ⟨[], List.nil_subset _, rfl⟩
      | succ n => exact ⟨[], List.nil_subset _, rfl⟩
  | cons k ks ih =>
      cases n with
      | zero => exact ⟨[], List.nil_subset _, rfl⟩
      | succ n =>
          unfold purgeLoop
          split
          · obtain ⟨ds, hsub, hds⟩ := ih (n + 1) σ
            exact ⟨ds, fun d hd => List.mem_cons_of_mem _ (hsub hd), hds⟩
          · obtain ⟨ds, hsub, hds⟩ := ih n (σ.delete k)
            exact ⟨k :: ds, List.cons_subset_cons k hsub, hds⟩

/-- The purge only deletes rows, archived ones of the bound board. -/
theorem afterCommit_records (σ : Mill) :
    ∃ ds : List Key, (∀ d ∈ ds, d.1 = svc ∧ svc ≠ "" ∧ ∃ r, σ.records.get d = some r ∧
        r.ticket.state ∈ ARCHIVABLE_STATES) ∧
      (afterCommit env svc σ).1.records = ds.foldl Table.erase σ.records := by
  unfold afterCommit maybePurgeArchived
  dsimp only
  by_cases h0 : env.settings.maxArchivedTickets = 0
  · rw [if_pos h0]; exact ⟨[], by simp, rfl⟩
  · rw [if_neg h0]
    by_cases hs : svc = ""
    · rw [if_pos hs]; exact ⟨[], by simp, rfl⟩
    · rw [if_neg hs]
      by_cases hlen : (archivedRows svc σ).length ≤ env.settings.maxArchivedTickets
      · rw [if_pos hlen]; exact ⟨[], by simp, rfl⟩
      · rw [if_neg hlen]
        obtain ⟨ds, hsub, hds⟩ := @purgeLoop_records svc
          ((archivedRows svc σ).length - env.settings.maxArchivedTickets)
          ((archivedRows svc σ).map Prod.fst) σ
        refine ⟨ds, ?_, hds⟩
        intro d hd
        obtain ⟨⟨k, r⟩, hrow, rfl⟩ := List.mem_map.1 (hsub hd)
        have hrow' := (List.mem_insertionSort _).1 hrow
        obtain ⟨hmem, hcond⟩ := List.mem_filter.1 hrow'
        simp only [Bool.and_eq_true, decide_eq_true_eq] at hcond
        exact ⟨hcond.1, hs, r, Table.mem_rows.1 hmem, hcond.2⟩

theorem records_commitTransition (k : Key) (r : TicketRecord) (dst : State)
    (note reason : Option String) (σ : Mill) :
    (commitTransition env k r dst note reason σ).records =
      σ.records.put k (transitionRecord k.2 (σ.now env) dst note reason r) := by
  unfold commitTransition
  dsimp only
  split <;> rfl

/-- The session of a transition that is not refused: its commit and then deletions. -/
theorem transitionSession_of_allowed {tid : TicketId} {dst : State} {note reason : Option String}
    {σ : Mill} {k : Key} {r : TicketRecord} (hf : fetch env svc σ tid = .ok (k, r))
    (hn : transitionNoop r.ticket dst = false) (hr : transitionRefusal tid dst r = none) :
    ∃ ds : List Key, (transitionSession env svc tid dst note reason σ).1.records =
      ds.foldl Table.erase
        (σ.records.put k (transitionRecord tid (σ.now env) dst note reason r)) := by
  obtain ⟨rfl, -⟩ := get_of_fetch hf
  have hrec := @records_commitTransition env k r dst note reason σ
  simp only [transitionSession, hf, hn, hr, Bool.false_eq_true, if_false]
  by_cases ha : dst ∈ ARCHIVABLE_STATES
  · rw [if_pos ha]
    obtain ⟨ds, -, hds⟩ := @afterCommit_records env svc (commitTransition env k r dst note reason σ)
    refine ⟨ds, ?_⟩
    rw [hrec] at hds
    split
    · rename_i heq; rw [heq] at hds; exact hds
    · rename_i heq; rw [heq] at hds; exact hds
  · rw [if_neg ha]
    exact ⟨[], hrec⟩

/-- What the session of `transition` does: nothing, or its commit and then deletions. -/
theorem transitionSession_cases (tid : TicketId) (dst : State) (note reason : Option String)
    (σ : Mill) :
    (transitionSession env svc tid dst note reason σ).1 = σ ∨
    ∃ k r, fetch env svc σ tid = .ok (k, r) ∧ transitionNoop r.ticket dst = false ∧
      transitionRefusal tid dst r = none ∧
      ∃ ds : List Key, (transitionSession env svc tid dst note reason σ).1.records =
        ds.foldl Table.erase
          (σ.records.put k (transitionRecord tid (σ.now env) dst note reason r)) := by
  cases hf : fetch env svc σ tid with
  | error e => exact .inl (by simp [transitionSession, hf])
  | ok kr =>
      obtain ⟨k, r⟩ := kr
      cases hn : transitionNoop r.ticket dst with
      | true => exact .inl (by simp [transitionSession, hf, hn])
      | false =>
          cases hr : transitionRefusal tid dst r with
          | some e => exact .inl (by simp [transitionSession, hf, hn, hr])
          | none => exact .inr ⟨k, r, rfl, hn, hr, transitionSession_of_allowed hf hn hr⟩

theorem reaches_transitionSession (hR : Routine cond) {tid : TicketId} {dst : State}
    {note reason : Option String} {σ : Mill}
    (hown : ∀ k r, fetch env svc σ tid = .ok (k, r) → transitionNoop r.ticket dst = false →
      transitionRefusal tid dst r = none →
      ∃ c : Change, cond (.change k r c) ∧ c.Allowed k.2 r ∧
        c.apply k.2 r = transitionRecord tid (σ.now env) dst note reason r) :
    Reaches cond σ.records (transitionSession env svc tid dst note reason σ).1.records := by
  rcases @transitionSession_cases env svc tid dst note reason σ with
    h | ⟨k, r, hf, hn, hr, ds, hds⟩
  · rw [h]; exact .refl _
  · obtain ⟨c, hc, hal, hap⟩ := hown k r hf hn hr
    rw [hds]
    exact (reaches_put hc (get_of_fetch hf).2 hal hap.symm).trans (reaches_eraseAll hR ds _)

/-- A round is the session of its target's transition, or nothing. -/
theorem unblockSession_cases (solver tid : TicketId) (σ : Mill) :
    (unblockSession env svc solver tid σ).1 = σ ∨ ∃ k r, get env svc σ tid = some (k, r) ∧
      r.ticket.state = .blocked ∧ (unblockSession env svc solver tid σ).1 =
        (transitionSession env svc tid (unblockDst r.ticket) (some (unblockNote solver)) none σ).1 := by
  unfold unblockSession
  cases hg : get env svc σ tid with
  | none => exact .inl rfl
  | some kr =>
      obtain ⟨k, r⟩ := kr
      dsimp only
      by_cases hb : r.ticket.state = .blocked
      · rw [if_neg (by simpa using hb)]
        refine .inr ⟨k, r, rfl, hb, ?_⟩
        split
        · rename_i heq; rw [heq]
        · rename_i heq; rw [heq]
      · rw [if_pos (by simpa using hb)]
        exact .inl rfl

/-- **The cascade is a run of rounds**: a relation that composes holds of it if it holds of every round. -/
theorem fireUnblocks_induction {R : Mill → Mill → Prop} (hrefl : ∀ σ, R σ σ)
    (htrans : ∀ σ₁ σ₂ σ₃, R σ₁ σ₂ → R σ₂ σ₃ → R σ₁ σ₃)
    (hround : ∀ solver tid σ, R σ (unblockSession env svc solver tid σ).1) (depth : Nat)
    (solver : TicketId) (targets : List TicketId) (σ : Mill) :
    R σ (fireUnblocks env svc depth solver targets σ) := by
  induction depth generalizing solver targets σ with
  | zero => exact hrefl σ
  | succ depth ih =>
      unfold fireUnblocks
      induction targets generalizing σ with
      | nil => exact hrefl σ
      | cons tid targets ihT =>
          rw [List.foldl_cons]
          exact htrans _ _ _ (htrans _ _ _ (hround solver tid σ) (ih _ _ _)) (ihT _)

theorem reaches_unblockSession (hR : Routine cond) (solver tid : TicketId) (σ : Mill) :
    Reaches cond σ.records (unblockSession env svc solver tid σ).1.records := by
  rcases @unblockSession_cases env svc solver tid σ with h | ⟨k, r, hg, hb, h⟩
  · rw [h]
    exact .refl _
  · rw [h]
    refine reaches_transitionSession hR ?_
    intro k' r' hf' _ hr'
    have hkr : (k, r) = (k', r') := Except.ok.inj ((fetch_of_get hg).symm.trans hf')
    cases hkr
    obtain ⟨rfl, -⟩ := get_of_fetch hf'
    exact ⟨.unblock (σ.now env) (unblockNote solver), hR.unblock _ _ _ _, ⟨hb, hr'⟩, rfl⟩

/-- **The cascade is a run of unblocking commits**, whatever its depth. -/
theorem reaches_fireUnblocks (hR : Routine cond) (depth : Nat) (solver : TicketId)
    (targets : List TicketId) (σ : Mill) :
    Reaches cond σ.records (fireUnblocks env svc depth solver targets σ).records :=
  fireUnblocks_induction (R := fun σ σ' => Reaches cond σ.records σ'.records) (fun _ => .refl _)
    (fun _ _ _ => Reaches.trans) (reaches_unblockSession hR) depth solver targets σ

theorem reaches_transition (hR : Routine cond) {tid : TicketId} {dst : State}
    {note reason : Option String} {σ : Mill}
    (hown : ∀ k r, fetch env svc σ tid = .ok (k, r) → transitionNoop r.ticket dst = false →
      transitionRefusal tid dst r = none →
      ∃ c : Change, cond (.change k r c) ∧ c.Allowed k.2 r ∧
        c.apply k.2 r = transitionRecord tid (σ.now env) dst note reason r) :
    Reaches cond σ.records (transition env svc tid dst note reason σ).1.records := by
  have hrun := reaches_transitionSession hR hown
  unfold transition
  split
  · rename_i heq; rw [heq] at hrun; exact hrun
  · rename_i heq
    rw [heq] at hrun
    exact hrun.trans (reaches_fireUnblocks hR _ _ _ _)

end Cascade

/-! ## Lookups after a write -/

section Lookups

variable {env : Env} {svc : BoardId}

theorem hasTicket_putRecord {σ : Mill} {k : Key} {r r' : TicketRecord}
    (hget : σ.records.get k = some r) (b : BoardId) (tid : TicketId) :
    (σ.putRecord k r').hasTicket b tid = σ.hasTicket b tid := by
  by_cases hk : (b, tid) = k
  · subst hk; simp [Mill.hasTicket, Table.has, hget]
  · simp [Mill.hasTicket, Table.has, hk]

theorem boards_putRecord {σ : Mill} {k : Key} {r r' : TicketRecord}
    (hget : σ.records.get k = some r) : (σ.putRecord k r').boards = σ.boards := by
  have hk : k ∈ σ.records.keys := (σ.records.mem_keys k).2 (by simp [hget])
  simp [Mill.boards, Table.put, hk]

/-- Overwriting a stored record moves no lookup. -/
theorem locate_putRecord {σ : Mill} {k : Key} {r r' : TicketRecord}
    (hget : σ.records.get k = some r) (tid : TicketId) :
    locate env svc (σ.putRecord k r') tid = locate env svc σ tid := by
  simp only [locate, collectCandidateBoards, boardDirs, hasTicket_putRecord hget, boards_putRecord hget]

theorem fetch_putRecord {σ : Mill} {k : Key} {r r' : TicketRecord} {tid : TicketId}
    (hf : fetch env svc σ tid = .ok (k, r)) :
    fetch env svc (σ.putRecord k r') tid = .ok (k, r') := by
  obtain ⟨-, hget⟩ := get_of_fetch hf
  unfold fetch boardFor at hf ⊢
  rw [locate_putRecord hget]
  cases hl : locate env svc σ tid with
  | some b =>
      rw [hl] at hf
      dsimp only at hf ⊢
      cases hb : σ.records.get (b, tid) with
      | none => rw [hb] at hf; cases hf
      | some r₀ => rw [hb] at hf; cases hf; simp
  | none =>
      rw [hl] at hf
      dsimp only at hf ⊢
      by_cases hs : svc = ""
      · rw [if_pos hs] at hf; cases hf
      · rw [if_neg hs] at hf ⊢
        dsimp only at hf ⊢
        cases hb : σ.records.get (svc, tid) with
        | none => rw [hb] at hf; cases hf
        | some r₀ => rw [hb] at hf; cases hf; simp

/-- Overwriting a stored record leaves the other tickets where and what they are. -/
theorem fetch_putRecord_ne {σ : Mill} {k : Key} {r r' : TicketRecord} {tid : TicketId}
    (hget : σ.records.get k = some r) (hne : tid ≠ k.2) :
    fetch env svc (σ.putRecord k r') tid = fetch env svc σ tid := by
  have hrest : ∀ b, (σ.putRecord k r').records.get (b, tid) = σ.records.get (b, tid) := by
    intro b
    have hk : (b, tid) ≠ k := fun h => hne (congrArg Prod.snd h)
    exact Table.get_put_ne _ _ hk
  unfold fetch boardFor
  rw [locate_putRecord hget]
  cases locate env svc σ tid with
  | some b =>
      dsimp only
      rw [hrest]
  | none =>
      dsimp only
      split
      · rfl
      · rename_i b _
        rw [hrest]

/-- A ticket on the board it is asked for on is the one found. -/
theorem fetch_own {σ : Mill} {tid : TicketId} {r : TicketRecord} (hsvc : svc ≠ "")
    (hget : σ.records.get (svc, tid) = some r) : fetch env svc σ tid = .ok ((svc, tid), r) := by
  have hhas : σ.hasTicket svc tid = true := hasTicket_iff.2 ⟨r, hget⟩
  have hloc : locate env svc σ tid = some svc := by
    unfold locate
    rw [if_pos ⟨hsvc, hhas⟩]
  unfold fetch boardFor
  rw [hloc]
  dsimp only
  rw [hget]

/-- The lookups read the records only. -/
theorem locate_congr {σ σ' : Mill} (h : σ'.records = σ.records) (tid : TicketId) :
    locate env svc σ' tid = locate env svc σ tid := by
  obtain ⟨T, ws, n⟩ := σ
  obtain ⟨T', ws', n'⟩ := σ'
  subst h
  rfl

theorem fetch_congr {σ σ' : Mill} (h : σ'.records = σ.records) (tid : TicketId) :
    fetch env svc σ' tid = fetch env svc σ tid := by
  obtain ⟨T, ws, n⟩ := σ
  obtain ⟨T', ws', n'⟩ := σ'
  subst h
  rfl

/-- A transition that neither archives nor completes is its commit. -/
theorem transition_eq_commit {tid : TicketId} {dst : State} {note reason : Option String} {σ : Mill}
    {k : Key} {r : TicketRecord} (hf : fetch env svc σ tid = .ok (k, r))
    (hn : transitionNoop r.ticket dst = false) (hr : transitionRefusal tid dst r = none)
    (ha : dst ∉ ARCHIVABLE_STATES) (ht : dst ∉ UNBLOCK_TRIGGER_STATES) :
    transition env svc tid dst note reason σ =
      (commitTransition env k r dst note reason σ, .ok ()) := by
  unfold transition transitionSession
  simp [hf, hn, hr, ha, ht, fireUnblocks]

theorem fetch_commitTransition {tid : TicketId} {dst : State} {note reason : Option String}
    {σ : Mill} {k : Key} {r : TicketRecord} (hf : fetch env svc σ tid = .ok (k, r)) :
    fetch env svc (commitTransition env k r dst note reason σ) tid =
      .ok (k, transitionRecord k.2 (σ.now env) dst note reason r) := by
  rw [fetch_congr (σ := σ.putRecord k (transitionRecord k.2 (σ.now env) dst note reason r))
    (records_commitTransition k r dst note reason σ)]
  exact fetch_putRecord hf

theorem fetch_putComments {tid : TicketId} {σ : Mill} {k : Key} {r : TicketRecord}
    {cs : List Comment} (hf : fetch env svc σ tid = .ok (k, r)) :
    fetch env svc (σ.putComments k r cs) tid = .ok (k, { r with comments := cs }) :=
  fetch_putRecord hf

/-! ### Lookups after a purge -/

theorem get_eraseAll (ds : List Key) (T : Table Key TicketRecord) (k : Key) :
    (ds.foldl Table.erase T).get k = if k ∈ ds then none else T.get k := by
  induction ds generalizing T with
  | nil => rfl
  | cons d ds ih =>
      rw [List.foldl_cons, ih]
      by_cases hkd : k = d
      · subst hkd
        simp
      · simp [hkd]

theorem get_foldl_erase (ds : List Key) (T : Table Key TicketRecord) {k : Key} (hk : k ∉ ds) :
    (ds.foldl Table.erase T).get k = T.get k := by
  rw [get_eraseAll, if_neg hk]

theorem boardDirs_sorted (σ : Mill) :
    (boardDirs env σ).Pairwise fun a b => env.dirLe a b = true := by
  have : Std.Total fun a b => env.dirLe a b = true := ⟨env.dirLe_total⟩
  have : IsTrans BoardId fun a b => env.dirLe a b = true := ⟨env.dirLe_trans⟩
  exact List.pairwise_insertionSort _ _

theorem mem_boardDirs_of_hasTicket {σ : Mill} {b : BoardId} {tid : TicketId}
    (h : σ.hasTicket b tid = true) : b ∈ boardDirs env σ := by
  obtain ⟨r, hr⟩ := hasTicket_iff.1 h
  have hk : (b, tid) ∈ σ.records.keys := (σ.records.mem_keys _).2 (by simp [hr])
  refine (List.mem_insertionSort _).2 (List.mem_eraseDups.2 ?_)
  exact List.mem_map.2 ⟨_, hk, rfl⟩

/-- A lookup depends on where the ticket is stored only. -/
theorem locate_eq_of_hasTicket {σ σ' : Mill} {tid : TicketId}
    (h : ∀ b, σ'.hasTicket b tid = σ.hasTicket b tid) :
    locate env svc σ' tid = locate env svc σ tid := by
  have hfun : (fun b => σ'.hasTicket b tid) = fun b => σ.hasTicket b tid := funext h
  have hdirs : (boardDirs env σ').find? (fun b => σ.hasTicket b tid) =
      (boardDirs env σ).find? fun b => σ.hasTicket b tid := by
    have hrefl : ∀ a, env.dirLe a a = true := fun a => (env.dirLe_total a a).elim id id
    refine find?_congr_of_sorted hrefl env.dirLe_antisymm (boardDirs_sorted σ') (boardDirs_sorted σ) ?_
    intro b hb
    exact ⟨fun _ => mem_boardDirs_of_hasTicket hb,
      fun _ => mem_boardDirs_of_hasTicket ((h b).trans hb)⟩
  unfold locate collectCandidateBoards
  rw [h svc, hfun]
  simp only [find?_eraseDups, List.find?_append, hdirs]

/-- The archive purge moves no lookup of a ticket it may not delete. -/
theorem get_afterCommit {σ : Mill} {tid : TicketId} {k : Key} {r : TicketRecord}
    (hg : get env svc σ tid = some (k, r)) (hs : r.ticket.state ∉ ARCHIVABLE_STATES) :
    get env svc (afterCommit env svc σ).1 tid = some (k, r) := by
  obtain ⟨rfl, hget⟩ := get_of_fetch (fetch_of_get hg)
  obtain ⟨ds, hds, hrec⟩ := @afterCommit_records env svc σ
  have hloc : locate env svc σ k.2 = some k.1 := by
    unfold get at hg
    cases hl : locate env svc σ k.2 with
    | none => rw [hl] at hg; cases hg
    | some b =>
        rw [hl] at hg
        simp only [Option.bind_some, Option.map_eq_some_iff, Prod.mk.injEq] at hg
        obtain ⟨_, -, hk, -⟩ := hg
        rw [← hk]
  have hself : k ∉ ds := by
    intro hk
    obtain ⟨-, -, r', hget', harch⟩ := hds k hk
    rw [hget] at hget'
    cases hget'
    exact hs harch
  have hget' : (afterCommit env svc σ).1.records.get k = some r := by
    rw [hrec, get_foldl_erase ds _ hself, hget]
  have hloc' : locate env svc (afterCommit env svc σ).1 k.2 = some k.1 := by
    by_cases hbound : svc ≠ "" ∧ σ.hasTicket svc k.2
    · -- found on the bound board, where it stays
      have hk1 : k.1 = svc := by
        rw [locate, if_pos hbound] at hloc
        exact (Option.some.inj hloc).symm
      have hkey : (svc, k.2) = k := Prod.ext hk1.symm rfl
      have hhas : (afterCommit env svc σ).1.hasTicket svc k.2 = true :=
        hasTicket_iff.2 ⟨r, by rw [hkey]; exact hget'⟩
      rw [locate, if_pos ⟨hbound.1, hhas⟩, hk1]
    · -- nothing deleted has this id
      rw [← hloc]
      refine locate_eq_of_hasTicket fun b => ?_
      have hb : (b, k.2) ∉ ds := by
        intro hmem
        obtain ⟨hsvc, hne, r', hdel, -⟩ := hds _ hmem
        have hsvc' : b = svc := hsvc
        subst hsvc'
        exact hbound ⟨hne, hasTicket_iff.2 ⟨r', hdel⟩⟩
      simp [Mill.hasTicket, Table.has, hrec, get_foldl_erase ds _ hb]
  unfold get
  rw [hloc']
  simp [hget']

end Lookups

end Service
end RobotsixMill
