import RobotsixMill.Agents.ResumeEvidence
import RobotsixMill.Service.CommentPurge

/-!
# `Agents.BoundedResumes` — automatic resumes are few and justified

Passes of the runner and calls of the service in any order. Beside the store the state carries what the runner
cannot see: the event of the transition that put each blocked ticket into its block, how often the runner resumed
each ticket, and a log of those resumes.

The runner goes by the newest `blocked` event and by the comments of earlier resumes. Both can mislead it:

- a note on a blocked ticket is a `blocked` event, too;
- a resume comment whose thread is closed is deleted by the comment purge;
- a ticket may be resumed and blocked again while the runner looks at it;
- a migration that fails halfway leaves the ticket on two boards, each with its own comments.

`misleads` names these steps, and `Accounted` is the invariant of the others.
-/

namespace RobotsixMill
namespace Agents
open RobotsixMill.Core Lib Service

variable {env : Env} {cfg : AutoResumeSettings}

/-! ## The store and the runner -/

/-- A resume the runner made. -/
structure AutoResumed where
  tid : TicketId
  /-- The event of the transition that had put the ticket into its block. -/
  blocked : Option TicketEvent
  /-- The time of the pass. -/
  now : DateTime

/-- The store, the pass under way, and the record of what really happened. -/
structure Resumption where
  mill : Mill
  pass : Option Pass
  /-- For every ticket that can be resumed, the event of the transition that put it into its block. -/
  entered : Key → Option TicketEvent
  /-- The same, for the ticket the pass is at, when its history was read. -/
  seen : Option TicketEvent
  /-- How often the runner has resumed a ticket of the store. -/
  resumed : TicketId → Nat
  log : List AutoResumed

/-- What happens: a call, a comment purge, the start of a pass, or its next step. -/
inductive ResumeAct
  | call (op : Op)
  | purgeComments (svc : BoardId) (tid : TicketId)
  | start (now : DateTime)
  | advance

/-- Is a ticket stored under this id, on any board? -/
def stores (σ : Mill) (tid : TicketId) : Bool := σ.records.keys.any fun k => decide (k.2 = tid)

/-- The transitions into the current blocks: a ticket that is blocked now and was not before was put there by its
    newest event. -/
def enteredAfter (σ σ' : Mill) (entered : Key → Option TicketEvent) (k : Key) : Option TicketEvent :=
  match σ'.records.get k with
  | none => none
  | some r =>
    if isParked r then if (σ.records.get k).any isParked then entered k else r.events.getLast? else none

/-- The ticket that the next step of a pass resumes. -/
def Pass.resumes (env : Env) (p : Pass) (σ : Mill) : Option Key :=
  match p.inspection with
  | .granted t resumeNote =>
    match fetch env p.board σ t.id, (resumeBlocked env p.board t.id resumeNote σ).2 with
    | .ok (k, _), .ok () => some k
    | _, _ => none
  | _ => none

/-- The ticket whose history the next step of a pass reads. -/
def Pass.reads (env : Env) (p : Pass) (σ : Mill) : Option Key :=
  match p.inspection, p.waiting with
  | .idle, t :: _ =>
    match fetch env p.board σ t.id with
    | .error _ => none
    | .ok (k, _) => some k
  | _, _ => none

namespace Resumption

/-- Nothing stored, and no pass under way. -/
def fresh : Resumption where
  mill := .empty
  pass := none
  entered _ := none
  seen := none
  resumed _ := 0
  log := []

/-- The store has changed to `σ'`. A ticket that is not stored was never resumed. -/
def settle (s : Resumption) (σ' : Mill) : Resumption :=
  { s with
    mill := σ'
    entered := enteredAfter s.mill σ' s.entered
    resumed := fun tid => if stores s.mill tid then s.resumed tid else 0 }

/-- A resume is recorded. -/
def record (s : Resumption) (k : Key) (blocked : Option TicketEvent) (now : DateTime) : Resumption :=
  { s with
    resumed := Function.update s.resumed k.2 (s.resumed k.2 + 1)
    log := s.log ++ [⟨k.2, blocked, now⟩] }

/-- The next step of the pass `p`. -/
def advance (env : Env) (cfg : AutoResumeSettings) (s : Resumption) (p : Pass) : Resumption :=
  let after := p.advance env cfg s.mill
  let t := { s.settle after.1 with pass := after.2 }
  match p.resumes env s.mill, p.inspection with
  | some k, _ => t.record k (s.entered k) p.now
  | none, .idle => { t with seen := (p.reads env s.mill).bind s.entered }
  | none, _ => t

/-- One step; there is no redraft. -/
def apply (env : Env) (cfg : AutoResumeSettings) (s : Resumption) : ResumeAct → Option Resumption
  | .call (.redraft _ _ _) => none
  | .call op => some (s.settle (op.run env s.mill).1)
  | .purgeComments svc tid => some (s.settle (maybePurgeTicketComments env svc tid s.mill).1)
  | .start now => if s.pass.isSome then none else some { s with pass := some (.start env cfg now s.mill) }
  | .advance => s.pass.map fun p => s.advance env cfg p

/-- The step relation. -/
def Step (env : Env) (cfg : AutoResumeSettings) (s : Resumption) (act : ResumeAct) (t : Resumption) : Prop :=
  s.apply env cfg act = some t

end Resumption

/-! ## What is to hold, and of which steps -/

/-- The note says to retry, and the transition was long enough ago. -/
def Retriable (cfg : AutoResumeSettings) (now : DateTime) (e : TicketEvent) : Prop :=
  blockMatches cfg (e.note.getD "") = true ∧ e.at_ + cfg.cooldownSeconds * 1000000 ≤ now

/-- The resume was justified by the transition into the block. -/
def AutoResumed.Justified (cfg : AutoResumeSettings) (d : AutoResumed) : Prop :=
  ∃ e, d.blocked = some e ∧ Retriable cfg d.now e

/-- Is a note on a blocked ticket a reason to retry, where the block was none? -/
def tellsNew (env : Env) (cfg : AutoResumeSettings) (s : Resumption) (svc : BoardId) (tid : TicketId)
    (note : String) : Bool :=
  fetched env svc s.mill tid fun k r => isParked r && blockMatches cfg note &&
    !(s.entered k).any fun b => blockMatches cfg (b.note.getD "") && decide (b.at_ ≤ s.mill.now env 0)

/-- Does the step mislead the runner? A new ticket may not take the id of another, nor the clock run back between
    two blocks of a ticket. -/
def misleads (env : Env) (cfg : AutoResumeSettings) (s : Resumption) : ResumeAct → Bool
  | .call (.create _ args) => stores s.mill args.id
  | .call (.transition svc tid .blocked _ _) => fetched env svc s.mill tid fun _ r =>
      (transitionRefusal tid .blocked r).isNone &&
        r.events.any fun e => decide (e.state = .blocked) && decide (s.mill.now env 2 ≤ e.at_)
  | .call (.addHistoryNote svc tid note) => tellsNew env cfg s svc tid note
  | .call (.addStepEvent svc tid note) => tellsNew env cfg s svc tid note
  | .purgeComments svc tid => (s.mill.records.get (svc, tid)).any fun r => r.comments.any fun c =>
      isAutoResume c &&
        ((purgedComments env.settings.maxCommentsPerTicket r.comments).map Comment.id).contains c.id
  | .advance => s.pass.any fun p => (p.resumes env s.mill).any fun k =>
      decide (s.entered k ≠ s.seen) ||
        s.mill.records.keys.any fun k' => decide (k'.2 = k.2) && decide (k'.1 ≠ k.1)
  | _ => false

/-! ## The invariant -/

/-- What the pass has found out about the ticket it is at. -/
def PassAccounted (cfg : AutoResumeSettings) (s : Resumption) (p : Pass) : Prop :=
  match p.inspection with
  | .idle => True
  | .due _ _ _ _ => ∀ e, s.seen = some e → Retriable cfg p.now e
  | .granted t resumeNote =>
    (∀ e, s.seen = some e → Retriable cfg p.now e) ∧ s.resumed t.id < cfg.maxPerTicket ∧
      startsWith (strip resumeNote) AUTO_RESUME_MARKER = true

/-- The comments count the resumes, and the histories tell of the blocks. -/
structure Accounted (cfg : AutoResumeSettings) (s : Resumption) : Prop where
  blockable : s.mill.records.AllRows fun _ r => Blockable r
  counted : s.mill.records.AllRows fun k r => s.resumed k.2 ≤ priorAutoResumes r.comments
  told : s.mill.records.AllRows fun k r => isParked r = true → ∃ b, s.entered k = some b ∧ Told cfg b r.events
  parked : ∀ k e, s.entered k = some e → ∃ r, s.mill.records.get k = some r ∧ isParked r = true
  pass : ∀ p, s.pass = some p → PassAccounted cfg s p
  bounded : ∀ tid, s.resumed tid ≤ cfg.maxPerTicket
  justified : ∀ d ∈ s.log, d.Justified cfg

theorem accounted_fresh : Accounted cfg .fresh where
  blockable := Table.AllRows.empty
  counted := Table.AllRows.empty
  told := Table.AllRows.empty
  parked k e h := by cases h
  pass p h := by cases h
  bounded _ := Nat.zero_le _
  justified d hd := by cases hd

/-- A row in a block that its newest event began. -/
def BegunBlock (cfg : AutoResumeSettings) (σ : Mill) (k : Key) (r : TicketRecord) : Prop :=
  (σ.records.get k).any isParked = false ∧ ∃ b, r.events.getLast? = some b ∧ Told cfg b r.events

/-- A row in the block it was in, where what the history told of the block, it tells still. -/
def OldBlock (cfg : AutoResumeSettings) (s : Resumption) (k : Key) (r : TicketRecord) : Prop :=
  (s.mill.records.get k).any isParked = true ∧ ∃ b, s.entered k = some b ∧ Told cfg b r.events

theorem resumed_settle_le (s : Resumption) (σ' : Mill) (tid : TicketId) :
    (s.settle σ').resumed tid ≤ s.resumed tid := by
  show (if stores s.mill tid then s.resumed tid else 0) ≤ s.resumed tid
  split
  · exact Nat.le_refl _
  · exact Nat.zero_le _

/-- **The store may change to one whose rows are accounted for.** -/
theorem Accounted.settle {s : Resumption} (h : Accounted cfg s) {σ' : Mill}
    (hblock : σ'.records.AllRows fun _ r => Blockable r)
    (hcount : σ'.records.AllRows fun k r => (s.settle σ').resumed k.2 ≤ priorAutoResumes r.comments)
    (htold : σ'.records.AllRows fun k r => isParked r = true → OldBlock cfg s k r ∨ BegunBlock cfg s.mill k r) :
    Accounted cfg (s.settle σ') where
  blockable := hblock
  counted := hcount
  told := by
    intro k r hget hp
    replace hget : σ'.records.get k = some r := hget
    have hentered : (s.settle σ').entered k =
        if (s.mill.records.get k).any isParked then s.entered k else r.events.getLast? := by
      show enteredAfter s.mill σ' s.entered k = _
      unfold enteredAfter
      rw [hget]
      dsimp only
      rw [if_pos hp]
    rw [hentered]
    rcases htold k r hget hp with ⟨hold, b, hb, ht⟩ | ⟨hnew, b, hb, ht⟩
    · rw [if_pos hold]
      exact ⟨b, hb, ht⟩
    · rw [hnew]
      exact ⟨b, hb, ht⟩
  parked := by
    intro k e he
    replace he : enteredAfter s.mill σ' s.entered k = some e := he
    unfold enteredAfter at he
    cases hget : σ'.records.get k with
    | none => rw [hget] at he; cases he
    | some r =>
        rw [hget] at he
        dsimp only at he
        split at he
        · rename_i hp
          exact ⟨r, hget, hp⟩
        · cases he
  pass := by
    intro p hp
    have hpass := h.pass p hp
    unfold PassAccounted at hpass ⊢
    split
    · trivial
    · rename_i heq
      rw [heq] at hpass
      exact hpass
    · rename_i t resumeNote heq
      rw [heq] at hpass
      exact ⟨hpass.1, Nat.lt_of_le_of_lt (resumed_settle_le s σ' t.id) hpass.2.1, hpass.2.2⟩
  bounded tid := Nat.le_trans (resumed_settle_le s σ' tid) (h.bounded tid)
  justified := h.justified

/-- The rows as they are. -/
theorem Accounted.calmed {s : Resumption} (h : Accounted cfg s) :
    s.mill.records.AllRows (Calmed cfg s.mill s.resumed) := by
  intro k r hget
  exact ⟨h.blockable k r hget, h.counted k r hget, fun hp => ⟨r, hget, hp, fun _ ht => ht⟩⟩

/-- The store may change by calm calls. -/
theorem Accounted.settle_calm {s : Resumption} (h : Accounted cfg s) {σ' : Mill}
    (hcalm : σ'.records.AllRows (Calmed cfg s.mill s.resumed)) : Accounted cfg (s.settle σ') := by
  apply h.settle
  · exact fun k r hget => (hcalm k r hget).blockable
  · intro k r hget
    exact Nat.le_trans (resumed_settle_le s σ' k.2) (hcalm k r hget).counted
  · intro k r hget hp
    obtain ⟨r₀, hget₀, hp₀, hkeep⟩ := (hcalm k r hget).told hp
    obtain ⟨b, hb, ht⟩ := h.told k r₀ hget₀ hp₀
    refine .inl ⟨?_, b, hb, hkeep b ht⟩
    rw [hget₀]
    exact hp₀

/-- One row is written. -/
theorem Accounted.settle_put {s : Resumption} (h : Accounted cfg s) {σ' : Mill} {k : Key} {r : TicketRecord}
    (hrec : σ'.records = s.mill.records.put k r) (hblock : Blockable r)
    (hcount : (s.settle σ').resumed k.2 ≤ priorAutoResumes r.comments)
    (htold : isParked r = true → OldBlock cfg s k r ∨ BegunBlock cfg s.mill k r) : Accounted cfg (s.settle σ') := by
  have hcalm := h.calmed
  have hrows : ∀ k' r', σ'.records.get k' = some r' →
      k' = k ∧ r' = r ∨ s.mill.records.get k' = some r' := by
    intro k' r' hget
    rw [hrec] at hget
    by_cases hk : k' = k
    · subst hk
      rw [Table.get_put_self] at hget
      exact .inl ⟨rfl, (Option.some.inj hget).symm⟩
    · rw [Table.get_put_ne _ _ hk] at hget
      exact .inr hget
  apply h.settle
  · intro k' r' hget
    rcases hrows k' r' hget with ⟨rfl, rfl⟩ | hget'
    · exact hblock
    · exact h.blockable k' r' hget'
  · intro k' r' hget
    rcases hrows k' r' hget with ⟨rfl, rfl⟩ | hget'
    · exact hcount
    · exact Nat.le_trans (resumed_settle_le s σ' k'.2) (h.counted k' r' hget')
  · intro k' r' hget hp
    rcases hrows k' r' hget with ⟨rfl, rfl⟩ | hget'
    · exact htold hp
    · obtain ⟨b, hb, ht⟩ := h.told k' r' hget' hp
      refine .inl ⟨?_, b, hb, ht⟩
      rw [hget']
      exact hp

/-! ## The calls that need watching -/

/-- A new ticket was never resumed. -/
theorem accounted_create {s : Resumption} (h : Accounted cfg s) {svc : BoardId} {args : CreateArgs}
    (hnew : stores s.mill args.id = false) :
    Accounted cfg (s.settle (create env svc args s.mill).1) := by
  unfold create
  dsimp only
  split
  · exact h.settle_calm h.calmed
  · split
    · exact h.settle_calm h.calmed
    · apply h.settle_put rfl
      · intro st hst
        cases hst
      · show (if stores s.mill args.id then s.resumed args.id else 0) ≤ _
        rw [hnew]
        exact Nat.zero_le _
      · intro hp
        rw [isParked_eq_false (.inr rfl)] at hp
        cases hp

/-- A ticket that is blocked was not blocked before. -/
theorem not_parked_of_refusal_none {tid : TicketId} {r : TicketRecord} (hb : Blockable r)
    (hr : transitionRefusal tid .blocked r = none) : isParked r = false := by
  apply isParked_eq_false
  by_contra hc
  rw [not_or, not_not] at hc
  obtain ⟨hs, hbf⟩ := hc
  have hcan := canTransition_of_refusal_none hr
  rw [hs, not_canTransition_blocked_self _ _ ?_] at hcan
  · cases hcan
  · intro hself
    have hmem := hb _ hself
    revert hmem
    decide

/-- The transition into a block begins it. -/
theorem accounted_block {s : Resumption} (h : Accounted cfg s) {svc : BoardId} {tid : TicketId}
    {note reason : Option String}
    (hclock : misleads env cfg s (.call (.transition svc tid .blocked note reason)) = false) :
    Accounted cfg (s.settle (transition env svc tid .blocked note reason s.mill).1) := by
  cases hf : fetch env svc s.mill tid with
  | error e =>
      have hsame : (transition env svc tid .blocked note reason s.mill).1 = s.mill := by
        simp [transition, transitionSession, hf]
      rw [hsame]
      exact h.settle_calm h.calmed
  | ok kr =>
      obtain ⟨k, r⟩ := kr
      obtain ⟨rfl, hget⟩ := get_of_fetch hf
      have hn : transitionNoop r.ticket .blocked = false := by
        simp [transitionNoop, TERMINAL_EPIC_STATES]
      cases hr : transitionRefusal k.2 .blocked r with
      | some e =>
          have hsame : (transition env svc k.2 .blocked note reason s.mill).1 = s.mill := by
            simp [transition, transitionSession, hf, hn, hr]
          rw [hsame]
          exact h.settle_calm h.calmed
      | none =>
          rw [transition_eq_commit hf hn hr (by decide) (by decide)]
          have hblock := h.blockable k r hget
          apply h.settle_put (records_commitTransition k r .blocked note reason s.mill)
          · exact blockable_transition hblock _ _ _ (canTransition_of_refusal_none hr)
          · have hle : priorAutoResumes r.comments ≤
                priorAutoResumes (transitionRecord k.2 (s.mill.now env) .blocked note reason r).comments :=
              priorAutoResumes_le (discussed_transition _ _ _ _)
            exact Nat.le_trans (resumed_settle_le _ _ _) (Nat.le_trans (h.counted k r hget) hle)
          · intro _
            have hold := of_fetched_eq_false hclock hf
            rw [hr] at hold
            refine .inr ⟨?_, _, List.getLast?_concat, told_enter rfl ?_⟩
            · rw [hget]
              exact not_parked_of_refusal_none hblock hr
            · intro e he hs
              have he' := List.any_eq_false.1 hold e he
              rw [hs] at he'
              show e.at_ < s.mill.now env 2
              exact Nat.lt_of_not_le (by simpa using he')

/-- A note that tells nothing new. -/
theorem accounted_note {s : Resumption} (h : Accounted cfg s) {svc : BoardId} {tid : TicketId} {note : String}
    (hnote : tellsNew env cfg s svc tid note = false) {σ' : Mill} {k : Key} {r r' : TicketRecord}
    (hf : fetch env svc s.mill tid = .ok (k, r)) (hrec : σ'.records = s.mill.records.put k r')
    (hstate : r'.ticket.state = r.ticket.state) (hfrom : r'.ticket.blockedFrom = r.ticket.blockedFrom)
    (hev : r'.events = appendEvent tid r.events r.ticket.state (some note) (s.mill.now env 0))
    (hcs : r'.comments = r.comments) : Accounted cfg (s.settle σ') := by
  have hget := (get_of_fetch hf).2
  apply h.settle_put hrec
  · intro st hst
    rw [hfrom] at hst
    exact h.blockable k r hget st hst
  · rw [hcs]
    exact Nat.le_trans (resumed_settle_le _ _ _) (h.counted k r hget)
  · intro hp
    have hpr : isParked r = true := by
      unfold isParked at hp ⊢
      rwa [hstate, hfrom] at hp
    obtain ⟨b, hb, ht⟩ := h.told k r hget hpr
    have hblocked : r.ticket.state = .blocked := by
      simp only [isParked, Bool.and_eq_true, decide_eq_true_eq] at hpr
      exact hpr.1
    refine .inl ⟨by rw [hget]; exact hpr, b, hb, ?_⟩
    rw [hev]
    apply ht.snoc hblocked
    intro hm
    replace hm : blockMatches cfg note = true := hm
    have hold := of_fetched_eq_false hnote hf
    rw [hpr, hm, hb] at hold
    show blockMatches cfg (b.note.getD "") = true ∧ b.at_ ≤ s.mill.now env 0
    simpa using hold

/-- The comment purge, where it deletes no record of a resume. -/
theorem accounted_purgeComments {s : Resumption} (h : Accounted cfg s) {svc : BoardId} {tid : TicketId}
    (hkeep : misleads env cfg s (.purgeComments svc tid) = false) :
    Accounted cfg (s.settle (maybePurgeTicketComments env svc tid s.mill).1) := by
  unfold maybePurgeTicketComments
  dsimp only
  split
  · exact h.settle_calm h.calmed
  split
  · exact h.settle_calm h.calmed
  split
  · exact h.settle_calm h.calmed
  · rename_i r hget
    split
    · exact h.settle_calm h.calmed
    · apply h.settle_put rfl
      · exact h.blockable _ r hget
      · refine Nat.le_trans (resumed_settle_le _ _ _) (Nat.le_trans (h.counted _ r hget) ?_)
        show (r.comments.filter isAutoResume).length ≤
          (((r.comments.filter _).map (reparent _)).filter isAutoResume).length
        rw [List.filter_map, List.length_map, List.filter_filter]
        apply Nat.le_of_eq
        congr 1
        apply List.filter_congr
        intro c hc
        have hbody : (isAutoResume ∘ reparent
            ((purgedComments env.settings.maxCommentsPerTicket r.comments).map Comment.id)) c = isAutoResume c := by
          show startsWith (reparent _ c).body _ = startsWith c.body _
          unfold reparent
          split
          · rfl
          · split <;> rfl
        rw [hbody]
        cases hauto : isAutoResume c with
        | false => rfl
        | true =>
            have hrow : ((s.mill.records.get (svc, tid)).any fun r => r.comments.any fun c => isAutoResume c &&
                ((purgedComments env.settings.maxCommentsPerTicket r.comments).map Comment.id).contains c.id)
                = false := hkeep
            rw [hget] at hrow
            have hpurged := List.any_eq_false.1 hrow c hc
            rw [hauto] at hpurged
            simpa using hpurged
      · intro hp
        obtain ⟨b, hb, ht⟩ := h.told _ r hget hp
        exact .inl ⟨by rw [hget]; exact hp, b, hb, ht⟩

/-! ## The steps of a pass -/

/-- Where the pass stands is all that has changed. -/
theorem Accounted.withPass {s : Resumption} (h : Accounted cfg s) (pass : Option Pass) (seen : Option TicketEvent)
    (hpass : ∀ p, pass = some p → PassAccounted cfg { s with pass := pass, seen := seen } p) :
    Accounted cfg { s with pass := pass, seen := seen } where
  blockable := h.blockable
  counted := h.counted
  told := h.told
  parked := h.parked
  pass := hpass
  bounded := h.bounded
  justified := h.justified

/-- What the history gives as a reason, the transition into the block gave. -/
theorem retriable_of_readHistory {s : Resumption} (h : Accounted cfg s) {p : Pass} {t : Listed}
    {t' : Listed} {bf : State} {note : String} {age : Nat} {k : Key}
    (hdue : (p.readHistory env cfg t s.mill).inspection = .due t' bf note age) (hidle : p.inspection = .idle)
    {r : TicketRecord} (hf : fetch env p.board s.mill t.id = .ok (k, r)) :
    ∀ e, s.entered k = some e → Retriable cfg p.now e := by
  intro e he
  obtain ⟨r', hget, hp⟩ := h.parked k e he
  have hget' := (get_of_fetch hf).2
  rw [hget] at hget'
  obtain rfl := Option.some.inj hget'
  obtain ⟨b, hb, ht⟩ := h.told k _ hget hp
  rw [he] at hb
  obtain rfl := Option.some.inj hb
  unfold Pass.readHistory Pass.historyOf at hdue
  rw [hf] at hdue
  dsimp only at hdue
  split at hdue
  · rename_i ev blockedFrom hev _
    by_cases hm : blockMatches cfg (ev.note.getD "") = true
    · by_cases hcool : p.now < ev.at_ + cfg.cooldownSeconds * 1000000
      · rw [if_neg (by simp [hm]), if_pos hcool] at hdue
        rw [Pass.countCooling, hidle] at hdue
        cases hdue
      · obtain ⟨hmatch, hle⟩ := ht.latest hev hm
        refine ⟨hmatch, ?_⟩
        have hold := Nat.le_of_not_lt hcool
        exact Nat.le_trans (Nat.add_le_add_right hle _) hold
    · rw [if_pos (by simpa using hm), Pass.countNotMatched, hidle] at hdue
      cases hdue
  · rw [Pass.countNotMatched, hidle] at hdue
    cases hdue

/-- The pass does not go on to resume a ticket whose history it has just read. -/
theorem not_granted_of_readHistory {p : Pass} {t t' : Listed} {σ : Mill} {resumeNote : String}
    (hidle : p.inspection = .idle) : (p.readHistory env cfg t σ).inspection ≠ .granted t' resumeNote := by
  intro hgr
  unfold Pass.readHistory at hgr
  split at hgr
  · dsimp only at hgr
    split at hgr
    · rw [Pass.countNotMatched, hidle] at hgr
      cases hgr
    · split at hgr
      · rw [Pass.countCooling, hidle] at hgr
        cases hgr
      · cases hgr
  · rw [Pass.countNotMatched, hidle] at hgr
    cases hgr

/-- After the history was read. -/
theorem passAccounted_readHistory {s s' : Resumption} (h : Accounted cfg s) {p q : Pass} {t : Listed}
    {waiting : List Listed} (hidle : p.inspection = .idle) (hwait : p.waiting = t :: waiting)
    (hseen : s'.seen = (p.reads env s.mill).bind s.entered) (hq : q.inspection = .idle)
    (hboard : q.board = p.board) : PassAccounted cfg s' (q.readHistory env cfg t s.mill) := by
  unfold PassAccounted
  split
  · trivial
  · rename_i t' bf note age hdue
    intro e he
    rw [hseen] at he
    unfold Pass.reads at he
    rw [hidle, hwait] at he
    dsimp only at he
    rw [← hboard] at he
    cases hf : fetch env q.board s.mill t.id with
    | error err => rw [hf] at he; cases he
    | ok kr =>
        obtain ⟨k, r⟩ := kr
        rw [hf] at he
        have hnow : ∀ q : Pass, (q.readHistory env cfg t s.mill).now = q.now := by
          intro q
          unfold Pass.readHistory
          split
          · dsimp only
            split
            · rfl
            · split <;> rfl
          · rfl
        rw [hnow]
        exact retriable_of_readHistory h hdue hq hf e he
  · rename_i t' resumeNote hgr
    exact (not_granted_of_readHistory hq hgr).elim

/-- After the comments were counted. -/
theorem passAccounted_readComments {s s' : Resumption} (h : Accounted cfg s) {p p' : Pass} {t : Listed}
    {bf : State} {note : String} {age : Nat} (hle : s'.resumed t.id ≤ s.resumed t.id)
    (hret : ∀ e, s'.seen = some e → Retriable cfg p.now e)
    (hp : p.readComments env cfg t bf note age s.mill = some p') : PassAccounted cfg s' p' := by
  unfold Pass.readComments at hp
  cases hf : fetch env p.board s.mill t.id with
  | error e => rw [hf] at hp; cases hp
  | ok kr =>
      obtain ⟨k, r⟩ := kr
      obtain ⟨hid, hget⟩ := get_of_fetch hf
      rw [hf] at hp
      dsimp only at hp
      by_cases hmax : cfg.maxPerTicket ≤ priorAutoResumes r.comments
      · rw [if_pos hmax] at hp
        cases hp
        trivial
      · rw [if_neg hmax] at hp
        cases hp
        refine ⟨hret, ?_, startsWith_strip_autoResumeNote cfg _ _ _ _⟩
        have hcount := h.counted k r hget
        rw [← hid] at hle ⊢
        exact Nat.lt_of_le_of_lt hle (Nat.lt_of_le_of_lt hcount (Nat.lt_of_not_le hmax))

/-- A resume that is not refused is its commit. -/
theorem records_resumeBlocked {svc : BoardId} {tid : TicketId} {σ : Mill} {k : Key} {r : TicketRecord}
    (note : String) (hf : fetch env svc σ tid = .ok (k, r)) (hr : resumeRefusal tid r.ticket = none) :
    ∃ cid eventNote, (resumeBlocked env svc tid note σ).1.records =
      σ.records.put k (resumeRecord env.settings tid (σ.now env) cid note eventNote r) := by
  unfold resumeBlocked
  simp only [hf, hr]
  exact ⟨_, _, rfl⟩

/-- What a resume found, and what it wrote. -/
theorem resume_cases {s : Resumption} {p : Pass} {k : Key} (h : p.resumes env s.mill = some k) :
    ∃ t resumeNote r cid eventNote, p.inspection = .granted t resumeNote ∧ k.2 = t.id ∧
      s.mill.records.get k = some r ∧ isParked r = true ∧
      (resumeBlocked env p.board t.id resumeNote s.mill).2 = .ok () ∧
      (resumeBlocked env p.board t.id resumeNote s.mill).1.records =
        s.mill.records.put k (resumeRecord env.settings t.id (s.mill.now env) cid resumeNote eventNote r) := by
  unfold Pass.resumes at h
  split at h
  · rename_i t resumeNote hgr
    split at h
    · rename_i k' r hf hok
      obtain rfl := Option.some.inj h
      obtain ⟨hid, hget⟩ := get_of_fetch hf
      cases hr : resumeRefusal t.id r.ticket with
      | some e =>
          unfold resumeBlocked at hok
          simp only [hf, hr] at hok
          cases hok
      | none =>
          obtain ⟨hb, dst, hbf⟩ := resume_allowed hr
          obtain ⟨cid, eventNote, hrec⟩ := records_resumeBlocked resumeNote hf hr
          refine ⟨t, resumeNote, r, cid, eventNote, hgr, hid, hget, ?_, hok, hrec⟩
          simp [isParked, hb, hbf]
    · cases h
  · cases h

/-- A resume is recorded that the comments count and that is justified. -/
theorem Accounted.record {s : Resumption} (h : Accounted cfg s) {k : Key} {b : Option TicketEvent} {now : DateTime}
    (hcount : s.mill.records.AllRows fun k' r => k'.2 = k.2 → s.resumed k.2 + 1 ≤ priorAutoResumes r.comments)
    (hbudget : s.resumed k.2 < cfg.maxPerTicket) (hidle : ∀ p, s.pass = some p → p.inspection = .idle)
    (hjust : (AutoResumed.mk k.2 b now).Justified cfg) : Accounted cfg (s.record k b now) where
  blockable := h.blockable
  counted := by
    intro k' r hget
    show Function.update s.resumed k.2 (s.resumed k.2 + 1) k'.2 ≤ priorAutoResumes r.comments
    by_cases htid : k'.2 = k.2
    · rw [htid, Function.update_self]
      exact hcount k' r hget htid
    · rw [Function.update_of_ne htid]
      exact h.counted k' r hget
  told := h.told
  parked := h.parked
  pass := by
    intro p hp
    unfold PassAccounted
    rw [hidle p hp]
    trivial
  bounded := by
    intro tid
    show Function.update s.resumed k.2 (s.resumed k.2 + 1) tid ≤ cfg.maxPerTicket
    by_cases htid : tid = k.2
    · rw [htid, Function.update_self]
      exact hbudget
    · rw [Function.update_of_ne htid]
      exact h.bounded tid
  justified := by
    intro d hd
    rcases List.mem_append.1 hd with hd | hd
    · exact h.justified d hd
    · rw [List.mem_singleton] at hd
      rw [hd]
      exact hjust

/-- A resume leaves one more comment to count. -/
theorem priorAutoResumes_resumeRecord {s : Settings} {tid : TicketId} {now : Nat → DateTime} {cid : CommentId}
    {note eventNote : String} {r : TicketRecord} (h : startsWith (strip note) AUTO_RESUME_MARKER = true) :
    priorAutoResumes (resumeRecord s tid now cid note eventNote r).comments = priorAutoResumes r.comments + 1 := by
  have hne : strip note ≠ "" := by
    intro he
    rw [he] at h
    revert h
    decide
  have hcs : (resumeRecord s tid now cid note eventNote r).comments =
      r.comments ++ [⟨cid, strip note, "operator", none, none, now 1⟩] := if_neg hne
  rw [hcs]
  unfold priorAutoResumes
  rw [List.filter_append, List.length_append, List.filter_cons_of_pos (by exact h), List.filter_nil]
  rfl

/-- The step that resumes a ticket. -/
theorem advance_of_resumes (cfg : AutoResumeSettings) {s : Resumption} {p : Pass} {k : Key} {t : Listed} {resumeNote : String}
    (hk : p.resumes env s.mill = some k) (hgr : p.inspection = .granted t resumeNote)
    (hok : (resumeBlocked env p.board t.id resumeNote s.mill).2 = .ok ()) :
    ∃ p', p'.inspection = .idle ∧ s.advance env cfg p = Resumption.record
      { s.settle (resumeBlocked env p.board t.id resumeNote s.mill).1 with pass := some p' } k (s.entered k)
      p.now := by
  refine ⟨{ p.countResumed with inspection := .idle }, rfl, ?_⟩
  have hafter : p.advance env cfg s.mill = ((resumeBlocked env p.board t.id resumeNote s.mill).1,
      some { p.countResumed with inspection := .idle }) := by
    unfold Pass.advance
    rw [hgr]
    dsimp only
    unfold Pass.resume
    split
    · rename_i heq
      rw [heq]
    · rename_i heq
      rw [heq] at hok
      cases hok
  unfold Resumption.advance
  rw [hk, hafter]

/-- **A resume is counted and justified**, if the block is the one whose history was read and the ticket is on no
    other board. -/
theorem accounted_resume {s : Resumption} (h : Accounted cfg s) {p : Pass} (hs : s.pass = some p) {k : Key}
    (hk : p.resumes env s.mill = some k) (hcond : misleads env cfg s .advance = false) :
    Accounted cfg (s.advance env cfg p) := by
  have hcond' : (decide (s.entered k ≠ s.seen) ||
      s.mill.records.keys.any fun k' => decide (k'.2 = k.2) && decide (k'.1 ≠ k.1)) = false := by
    have hpass : (s.pass.any fun p => (p.resumes env s.mill).any fun k => decide (s.entered k ≠ s.seen) ||
        s.mill.records.keys.any fun k' => decide (k'.2 = k.2) && decide (k'.1 ≠ k.1)) = false := hcond
    rw [hs, Option.any_some, hk] at hpass
    exact hpass
  obtain ⟨hsame, hone⟩ := Bool.or_eq_false_iff.1 hcond'
  have hseen : s.entered k = s.seen := by simpa using hsame
  obtain ⟨t, resumeNote, r, cid, eventNote, hgr, hid, hget, hp, hok, hrec⟩ := resume_cases hk
  have hpass := h.pass p hs
  unfold PassAccounted at hpass
  rw [hgr] at hpass
  obtain ⟨hret, hbudget, hmark⟩ := hpass
  obtain ⟨b, hb, -⟩ := h.told k r hget hp
  obtain ⟨p', hidle, hadv⟩ := advance_of_resumes cfg hk hgr hok
  rw [hadv]
  have hcalm : isCalm (.resumeBlocked p.board t.id resumeNote) = true := rfl
  have hcall := calmed_call env hcalm h.calmed
  have hset := h.settle_calm hcall
  have hle : (s.settle (resumeBlocked env p.board t.id resumeNote s.mill).1).resumed k.2 ≤ s.resumed k.2 :=
    resumed_settle_le _ _ _
  refine (hset.withPass (some p') s.seen ?_).record ?_ ?_ ?_ ?_
  · intro q hq
    obtain rfl := Option.some.inj hq
    unfold PassAccounted
    rw [hidle]
    trivial
  · intro k' r' hget' htid
    -- the only row of the ticket is the one that was resumed
    replace hget' : (resumeBlocked env p.board t.id resumeNote s.mill).1.records.get k' = some r' := hget'
    have hkk : k' = k := by
      by_contra hkk
      rw [hrec, Table.get_put_ne _ _ hkk] at hget'
      have hmem : k' ∈ s.mill.records.keys := (s.mill.records.mem_keys k').2 (by simp [hget'])
      have hother := List.any_eq_false.1 hone k' hmem
      rw [htid] at hother
      exact hkk (Prod.ext (by simpa using hother) htid)
    rw [hkk, hrec, Table.get_put_self] at hget'
    obtain rfl := Option.some.inj hget'
    rw [priorAutoResumes_resumeRecord hmark]
    have hcount := h.counted k r hget
    exact Nat.succ_le_succ (Nat.le_trans hle hcount)
  · rw [hid] at hle ⊢
    exact Nat.lt_of_le_of_lt hle hbudget
  · intro q hq
    obtain rfl := Option.some.inj hq
    exact hidle
  · exact ⟨b, hb, hret b (by rw [← hseen]; exact hb)⟩

/-- A step of the pass that resumes nothing. -/
theorem accounted_look {s : Resumption} (h : Accounted cfg s) {p : Pass} (hs : s.pass = some p)
    (hk : p.resumes env s.mill = none) : Accounted cfg (s.advance env cfg p) := by
  have hpass := h.pass p hs
  have hsame := h.settle_calm h.calmed
  have hseen : (s.settle s.mill).seen = s.seen := rfl
  unfold Resumption.advance
  rw [hk]
  unfold Pass.advance
  cases hi : p.inspection with
  | granted t resumeNote =>
      -- the resume is refused, and nothing was written
      dsimp only
      have hop : isCalm (.resumeBlocked p.board t.id resumeNote) = true := rfl
      have hcalm := calmed_call env hop h.calmed
      unfold Pass.resume
      split
      · rename_i σ' heq
        have hσ : (resumeBlocked env p.board t.id resumeNote s.mill).1 = σ' := congrArg Prod.fst heq
        rw [← hσ]
        apply (h.settle_calm hcalm).withPass
        intro q hq
        cases hq
        trivial
      · rename_i σ' _ heq
        have hσ : (resumeBlocked env p.board t.id resumeNote s.mill).1 = σ' := congrArg Prod.fst heq
        rw [← hσ]
        apply (h.settle_calm hcalm).withPass
        intro q hq
        cases hq
        trivial
  | due t bf note age =>
      dsimp only
      unfold PassAccounted at hpass
      rw [hi] at hpass
      apply hsame.withPass
      intro q hq
      exact passAccounted_readComments h (resumed_settle_le s s.mill t.id) hpass hq
  | idle =>
      dsimp only
      cases hw : p.waiting with
      | cons t waiting =>
          dsimp only
          apply hsame.withPass
          intro q hq
          obtain rfl := Option.some.inj hq
          exact passAccounted_readHistory h hi hw rfl rfl rfl
      | nil =>
          cases hb : p.boards with
          | nil =>
              dsimp only
              apply hsame.withPass
              intro q hq
              cases hq
          | cons board boards =>
              dsimp only
              have hcalm := calmed_escalateCycles env board (deadlocks (listBlocked board s.mill))
                (s.mill, 0) h.calmed
              apply (h.settle_calm hcalm).withPass
              intro q hq
              cases hq
              show PassAccounted cfg _ { p with boards := _, board := _, waiting := _, counts := _ }
              unfold PassAccounted
              rw [hi]
              trivial

/-! ## Runs -/

/-- **Every step that does not mislead the runner keeps the account.** -/
theorem accounted_step {s t : Resumption} {act : ResumeAct} (h : Accounted cfg s)
    (hstep : Guarded (fun s act => misleads env cfg s act = false) (Resumption.Step env cfg) s act t) :
    Accounted cfg t := by
  obtain ⟨hcond, hstep⟩ := hstep
  unfold Resumption.Step Resumption.apply at hstep
  cases act with
  | purgeComments svc tid =>
      cases hstep
      exact accounted_purgeComments h hcond
  | start now =>
      dsimp only at hstep
      split at hstep
      · cases hstep
      · cases hstep
        apply h.withPass
        intro p hp
        cases hp
        trivial
  | advance =>
      obtain ⟨p, hp, rfl⟩ := Option.map_eq_some_iff.1 hstep
      cases hk : p.resumes env s.mill with
      | none => exact accounted_look h hp hk
      | some k => exact accounted_resume h hp hk hcond
  | call op =>
      cases hcalm : isCalm op with
      | true =>
          have hcall := h.settle_calm (calmed_call env hcalm h.calmed)
          cases op with
          | redraft svc tid body => cases hcalm
          | _ =>
            cases hstep
            exact hcall
      | false =>
          cases op with
          | create svc args =>
              cases hstep
              exact accounted_create h hcond
          | transition svc tid dst note reason =>
              have hdst : dst = .blocked := by simpa [isCalm] using hcalm
              subst hdst
              cases hstep
              exact accounted_block h hcond
          | addHistoryNote svc tid note =>
              cases hstep
              show Accounted cfg (s.settle (addHistoryNote env svc tid note s.mill).1)
              unfold addHistoryNote
              cases hf : fetch env svc s.mill tid with
              | error e => exact h.settle_calm h.calmed
              | ok kr =>
                  obtain ⟨k, r⟩ := kr
                  exact accounted_note h hcond hf rfl rfl rfl rfl rfl
          | addStepEvent svc tid note =>
              cases hstep
              show Accounted cfg (s.settle (addStepEvent env svc tid note s.mill).1)
              unfold addStepEvent
              cases hf : fetch env svc s.mill tid with
              | error e => exact h.settle_calm h.calmed
              | ok kr =>
                  obtain ⟨k, r⟩ := kr
                  exact accounted_note h hcond hf rfl rfl rfl rfl rfl
          | redraft svc tid body => cases hstep
          | _ => cases hcalm

/-- **Bounded and justified automatic resumes.** In every run whose steps do not mislead the runner, it resumes no
    ticket more often than the limit, and only where the note of the transition into the block says to retry and that
    transition is as old as the cooldown. -/
theorem auto_resumes_bounded {acts : List ResumeAct} {s : Resumption}
    (hrun : Run (Guarded (fun s act => misleads env cfg s act = false) (Resumption.Step env cfg)) .fresh acts s) :
    (∀ tid, s.resumed tid ≤ cfg.maxPerTicket) ∧ ∀ d ∈ s.log, d.Justified cfg := by
  have h := hrun.invariant (fun _ _ _ h hstep => accounted_step h hstep) accounted_fresh
  exact ⟨h.bounded, h.justified⟩

/-! ## Runs that can be computed -/

/-- The state a list of acts leads to, if every one is possible. -/
def runActs (env : Env) (cfg : AutoResumeSettings) : Resumption → List ResumeAct → Option Resumption
  | s, [] => some s
  | s, act :: acts => (s.apply env cfg act).bind fun t => runActs env cfg t acts

/-- Does no act mislead the runner? -/
def honestActs (env : Env) (cfg : AutoResumeSettings) : Resumption → List ResumeAct → Bool
  | _, [] => true
  | s, act :: acts =>
    !misleads env cfg s act && (s.apply env cfg act).all fun t => honestActs env cfg t acts

theorem run_runActs {s t : Resumption} {acts : List ResumeAct} (h : runActs env cfg s acts = some t) :
    Run (Resumption.Step env cfg) s acts t := by
  induction acts generalizing s with
  | nil =>
      obtain rfl := Option.some.inj h
      exact .nil _
  | cons act acts ih =>
      obtain ⟨u, hu, hrest⟩ := Option.bind_eq_some_iff.1 h
      exact .cons hu (ih hrest)

theorem run_honestActs {s t : Resumption} {acts : List ResumeAct} (h : runActs env cfg s acts = some t)
    (hok : honestActs env cfg s acts = true) :
    Run (Guarded (fun s act => misleads env cfg s act = false) (Resumption.Step env cfg)) s acts t := by
  induction acts generalizing s with
  | nil =>
      obtain rfl := Option.some.inj h
      exact .nil _
  | cons act acts ih =>
      obtain ⟨u, hu, hrest⟩ := Option.bind_eq_some_iff.1 h
      obtain ⟨hact, hacts⟩ := Bool.and_eq_true_iff.1 hok
      rw [hu] at hacts
      exact .cons ⟨by simpa using hact, hu⟩ (ih hrest hacts)

/-- One automatic resume for a ticket, at once, where the note contains "resumable". -/
def resumableOnce : AutoResumeSettings where
  cooldownSeconds := 0
  patterns := ["resumable"]
  search pat text := some (contains (lower text) pat)

/-- A ticket is created and blocked. -/
def blockedTicket (note : String) : List ResumeAct :=
  [.call (.create "board" { id := "t-1", title := "ticket" }),
    .call (.transition "board" "t-1" .blocked (some note) none)]

/-- A pass over the one board with its one ticket. -/
def onePass : List ResumeAct := [.start 1000, .advance, .advance, .advance, .advance, .advance]

/-- A ticket that an agent error blocked is resumed once. -/
theorem auto_resumes_bounded_agent_error : ∃ s,
    runActs .cappedComments resumableOnce .fresh (blockedTicket "agent error: resumable" ++ onePass) = some s ∧
    s.resumed "t-1" = 1 ∧ (∀ tid, s.resumed tid ≤ resumableOnce.maxPerTicket) ∧
    ∀ d ∈ s.log, d.Justified resumableOnce := by
  have hsome : ((runActs .cappedComments resumableOnce .fresh
      (blockedTicket "agent error: resumable" ++ onePass)).map fun s => s.resumed "t-1") = some 1 := by
    decide +kernel
  obtain ⟨s, hs, hone⟩ := Option.map_eq_some_iff.1 hsome
  exact ⟨s, hs, hone, auto_resumes_bounded (run_honestActs hs (by decide +kernel))⟩

/-- Its resume comment is closed, another comment is added, and the comment purge deletes the closed one. -/
def forgetResume : List ResumeAct :=
  [.call (.closeThread "board" 1 none), .call (.addComment "board" "t-1" "looking into it" "user" none),
    .call (.addComment "board" "t-1" "fixed" "user" none), .purgeComments "board" "t-1",
    .call (.transition "board" "t-1" .blocked (some "agent error: resumable") none)]

/-- A ticket is resumed twice, and one is resumed that a person was asked to decide on. -/
theorem auto_resumes_unbounded :
    (∃ acts s, Run (Resumption.Step .cappedComments resumableOnce) .fresh acts s ∧
      ¬ ∀ tid, s.resumed tid ≤ resumableOnce.maxPerTicket) ∧
    ∃ acts s, Run (Resumption.Step .cappedComments resumableOnce) .fresh acts s ∧
      ¬ ∀ d ∈ s.log, d.Justified resumableOnce := by
  constructor
  · have hsome : ((runActs .cappedComments resumableOnce .fresh
        (blockedTicket "agent error: resumable" ++ onePass ++ forgetResume ++ onePass)).map
          fun s => s.resumed "t-1") = some 2 := by
      decide +kernel
    obtain ⟨s, hs, htwo⟩ := Option.map_eq_some_iff.1 hsome
    refine ⟨_, s, run_runActs hs, fun hle => ?_⟩
    have htid := hle "t-1"
    rw [htwo] at htid
    revert htid
    decide
  · have hsome : ((runActs .cappedComments resumableOnce .fresh (blockedTicket "which database should it be?" ++
        [.call (.addHistoryNote "board" "t-1" "agent error: resumable")] ++ onePass)).map
          fun s => s.log.map fun d => d.blocked.map fun e => blockMatches resumableOnce (e.note.getD "")) =
        some [some false] := by
      decide +kernel
    obtain ⟨s, hs, hlog⟩ := Option.map_eq_some_iff.1 hsome
    refine ⟨_, s, run_runActs hs, fun hall => ?_⟩
    cases hl : s.log with
    | nil => rw [hl] at hlog; cases hlog
    | cons d ds =>
        obtain ⟨e, he, hm, -⟩ := hall d (by rw [hl]; exact List.mem_cons_self)
        rw [hl, List.map_cons, he] at hlog
        simp [hm] at hlog

end Agents
end RobotsixMill
