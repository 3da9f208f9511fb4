import RobotsixMill.Agents.TimeoutEscalation
import Mathlib.Data.Prod.Lex

/-!
# `Agents.EscalationTargets` — which tickets the timeout blocks

Others act between any two steps of a pass. Two things go wrong:

- the selection is not looked at again, so that a ticket which has been resumed meanwhile is blocked, unless a reply
  is seen;
- a thread that was answered and closed long ago counts as a reply, so that later questions are never escalated.

`escalation_hits_unanswered` says that these are all: `upsets` names the acts of others that lead to the first, and
`forgets` the tickets of the second.
-/

namespace RobotsixMill
namespace Agents
open RobotsixMill.Core Lib Service

/-! ## The store and the others -/

/-- The open questions of a ticket, of which no one has a reply. -/
def unanswered (cs : List Comment) : Bool :=
  let open_threads := openAskUserThreads cs
  !open_threads.isEmpty && !hasReply open_threads cs

/-- Does a closed thread have a reply? -/
def answeredBefore (cs : List Comment) : Bool := hasReply ((askThreads cs).filter fun t => t.closedAt.isSome) cs

/-- Does the ticket wait for a reply, for longer than the threshold when the pass began, with its questions
    unanswered? Boards have names. -/
def isWaiting (threshold : Nat) (startedAt : DateTime) (σ : Mill) (k : Key) : Bool :=
  decide (k.1 ≠ "") && (σ.records.get k).any fun r => decide (r.ticket.state = .awaitingUserReply) &&
    isOverdue threshold startedAt r.ticket && unanswered r.comments

/-- The store, the pass under way, and the record of what really happened. -/
structure Escalation where
  mill : Mill
  pass : Option EscalationPass
  /-- The tickets that have been waiting ever since the pass began. -/
  stayed : Key → Bool
  /-- The tickets that passes have moved, with the state each was in. -/
  moved : List (Key × State)

/-- What happens: a session or a call of someone else, the start of a pass, or its next step. -/
inductive EscalationAct
  | other (f : Mill → Mill)
  | start (now : DateTime)
  | advance (now : DateTime)

/-- A whole call of the service. -/
def EscalationAct.call (env : Env) (op : Op) : EscalationAct := .other fun σ => (op.run env σ).1

/-- The ticket that the next step of a pass moves, and its state. -/
def EscalationPass.moves (env : Env) (p : EscalationPass) (σ : Mill) : Option (Key × State) :=
  match p.phase with
  | .due c note _ =>
    match fetch env p.board σ c.id, (transition env p.board c.id .blocked (some note) none σ).2 with
    | .ok (k, r), .ok () => some (k, r.ticket.state)
    | _, _ => none
  | _ => none

namespace Escalation

/-- No pass is under way, and none was. -/
def fresh (σ : Mill) : Escalation where
  mill := σ
  pass := none
  stayed _ := false
  moved := []

/-- The store has changed to `σ'`. -/
def settle (threshold : Nat) (s : Escalation) (σ' : Mill) : Escalation :=
  { s with
    mill := σ'
    stayed := match s.pass with
      | none => s.stayed
      | some p => fun k => s.stayed k && isWaiting threshold p.startedAt σ' k }

/-- The next step of the pass `p`. -/
def advance (env : Env) (threshold : Nat) (now : DateTime) (s : Escalation) (p : EscalationPass) : Escalation :=
  let after := p.advance env threshold now s.mill
  { s.settle threshold after.1 with pass := after.2, moved := s.moved ++ (p.moves env s.mill).toList }

/-- One step; a threshold of zero disables the pass. -/
def apply (env : Env) (threshold : Nat) (s : Escalation) : EscalationAct → Option Escalation
  | .other f => some (s.settle threshold (f s.mill))
  | .start now =>
    if s.pass.isSome then none
    else if threshold = 0 then some s
    else some { s with pass := some (.start env now s.mill), stayed := isWaiting threshold now s.mill }
  | .advance now => s.pass.map fun p => s.advance env threshold now p

/-- The step relation. -/
def Step (env : Env) (threshold : Nat) (s : Escalation) (act : EscalationAct) (t : Escalation) : Prop :=
  s.apply env threshold act = some t

end Escalation

/-! ## What goes wrong -/

/-- Will the pass leave the selected ticket alone, or find it where it was selected? `read` says that its comments
    were read. -/
def harmless (env : Env) (σ : Mill) (board : BoardId) (read : Bool) (c : Selected) : Bool :=
  !fetched env board σ c.id fun _ r => !(decide (r.ticket.state = .awaitingUserReply) ||
    !read && hasReply (askThreads r.comments) r.comments ||
    !canTransition r.ticket.state .blocked r.ticket.blockedFrom r.ticket.pausedFrom)

/-- The same for all tickets the pass has selected and not dealt with. -/
def EscalationPass.isSafe (env : Env) (p : EscalationPass) (σ : Mill) : Bool :=
  (p.candidates.all fun c => harmless env σ p.board false c) &&
    match p.phase with
    | .due c _ _ => harmless env σ p.board true c
    | _ => true

/-- Does the act of someone else take a selected ticket out of its wait, without a reply that the pass will see? -/
def upsets (env : Env) (s : Escalation) (f : Mill → Mill) : Bool := s.pass.any fun p => !p.isSafe env (f s.mill)

/-- Is the ticket whose comments are read next one whose new questions are unanswered, but not the old ones? -/
def forgets (env : Env) (threshold : Nat) (s : Escalation) : Bool :=
  s.pass.any fun p =>
    match p.phase, p.candidates with
    | .idle, c :: _ => fetched env p.board s.mill c.id fun k r =>
      isWaiting threshold p.startedAt s.mill k && answeredBefore r.comments
    | _, _ => false

/-- The steps that make a pass go wrong. -/
def strays (env : Env) (threshold : Nat) (s : Escalation) : EscalationAct → Bool
  | .other f => upsets env s f
  | .start _ => false
  | .advance _ => forgets env threshold s

/-! ## What the pass sees of the threads -/

theorem mem_openAskUserThreads {cs : List Comment} {t : Comment} (ht : t ∈ askThreads cs) (hopen : t.closedAt = none) :
    t ∈ openAskUserThreads cs := by
  obtain ⟨hmem, hask⟩ := List.mem_filter.1 ht
  rw [Bool.and_eq_true] at hask
  have hthread : isAskUserThread t = true := by
    unfold isAskUserThread
    rw [hask.1, sqlLike_of_isPrefix hask.2]
    rfl
  refine List.mem_filter.2 ⟨hmem, ?_⟩
  rw [hthread, hopen]
  rfl

/-- Where new questions are unanswered, a reply is one to an old question. -/
theorem hasReply_of_unanswered {cs : List Comment} (hun : unanswered cs = true) (hold : answeredBefore cs = false) :
    hasReply (askThreads cs) cs = false := by
  by_contra hseen
  rw [Bool.not_eq_false] at hseen
  obtain ⟨c, hc, hreply⟩ := List.any_eq_true.1 hseen
  obtain ⟨t, ht, hparent⟩ := List.any_eq_true.1 hreply
  have hnew : hasReply (openAskUserThreads cs) cs = false := by
    unfold unanswered at hun
    dsimp only at hun
    rw [Bool.and_eq_true, Bool.not_eq_true', Bool.not_eq_true'] at hun
    exact hun.2
  cases hclosed : t.closedAt with
  | none =>
      have : hasReply (openAskUserThreads cs) cs = true :=
        List.any_eq_true.2 ⟨c, hc, List.any_eq_true.2 ⟨t, mem_openAskUserThreads ht hclosed, hparent⟩⟩
      rw [hnew] at this
      cases this
  | some at_ =>
      have ht' : t ∈ (askThreads cs).filter fun t => t.closedAt.isSome :=
        List.mem_filter.2 ⟨ht, by rw [hclosed]; rfl⟩
      have : answeredBefore cs = true :=
        List.any_eq_true.2 ⟨c, hc, List.any_eq_true.2 ⟨t, ht', hparent⟩⟩
      rw [hold] at this
      cases this

section Targets

variable {env : Env} {threshold : Nat} {startedAt : DateTime} {σ σ' : Mill} {board : BoardId} {read : Bool}
  {c : Selected} {k : Key}

theorem isWaiting_iff : isWaiting threshold startedAt σ k = true ↔
    k.1 ≠ "" ∧ ∃ r, σ.records.get k = some r ∧ r.ticket.state = .awaitingUserReply ∧
      isOverdue threshold startedAt r.ticket = true ∧ unanswered r.comments = true := by
  simp [isWaiting, Option.any_eq_true, and_assoc]

theorem harmless_iff : harmless env σ board read c = true ↔
    ∀ k r, fetch env board σ c.id = .ok (k, r) → r.ticket.state = .awaitingUserReply ∨
      read = false ∧ hasReply (askThreads r.comments) r.comments = true ∨
      canTransition r.ticket.state .blocked r.ticket.blockedFrom r.ticket.pausedFrom = false := by
  unfold harmless fetched
  cases hf : fetch env board σ c.id with
  | error e => simp
  | ok kr =>
      obtain ⟨k, r⟩ := kr
      constructor
      · intro h k' r' hok
        cases hok
        simpa [or_assoc] using h
      · intro h
        simpa [or_assoc] using h k r rfl

theorem harmless_congr (h : fetch env board σ' c.id = fetch env board σ c.id)
    (hsafe : harmless env σ board read c = true) : harmless env σ' board read c = true := by
  rw [harmless_iff] at hsafe ⊢
  rw [h]
  exact hsafe

/-- A ticket that waits is found. -/
theorem fetch_of_isWaiting (h : isWaiting threshold startedAt σ k = true) : ∃ r,
    fetch env k.1 σ k.2 = .ok (k, r) ∧ r.ticket.state = .awaitingUserReply ∧ unanswered r.comments = true := by
  obtain ⟨hb, r, hget, hs, -, hun⟩ := isWaiting_iff.1 h
  exact ⟨r, fetch_own hb hget, hs, hun⟩

end Targets

/-! ## The invariant -/

namespace EscalationPass

/-- The tickets selected that the pass has not dealt with. -/
def pending (p : EscalationPass) : List TicketId :=
  match p.phase with
  | .due c _ _ => c.id :: p.candidates.map Selected.id
  | _ => p.candidates.map Selected.id

/-- These and the one it is at. -/
def selection (p : EscalationPass) : List TicketId :=
  match p.phase with
  | .idle => p.candidates.map Selected.id
  | .due c _ _ => c.id :: p.candidates.map Selected.id
  | .moved c _ => c.id :: p.candidates.map Selected.id

/-- How much is left to do. -/
def rank (p : EscalationPass) : Nat ×ₗ Nat ×ₗ Nat :=
  toLex (p.boards.length, toLex (p.candidates.length, match p.phase with | .idle => 0 | .due _ _ _ => 2 | .moved _ _ => 1))

end EscalationPass

/-- A pass under way: the tickets it is to deal with do no harm, and those that wait are among them. -/
structure PassInv (env : Env) (threshold : Nat) (σ : Mill) (stayed : Key → Bool) (p : EscalationPass) : Prop where
  safe : ∀ c ∈ p.candidates, harmless env σ p.board false c = true
  due : ∀ c note body, p.phase = .due c note body → harmless env σ p.board true c = true
  named : ∀ b ∈ p.boards, b ≠ ""
  distinct : p.selection.Nodup
  awaiting : ∀ c ∈ p.candidates, c.state = .awaitingUserReply
  listed : ∀ k, stayed k = true → isWaiting threshold p.startedAt σ k = true ∧
    (k.1 ∈ p.boards ∨ k.1 = p.board ∧ k.2 ∈ p.pending)

/-- The passes hit those that wait, and miss none. -/
structure Hits (env : Env) (threshold : Nat) (s : Escalation) : Prop where
  pass : ∀ p, s.pass = some p → PassInv env threshold s.mill s.stayed p
  missed : s.pass = none → ∀ k, s.stayed k = false
  moved : ∀ e ∈ s.moved, e.2 = .awaitingUserReply

section Steps

variable {env : Env} {threshold : Nat} {σ σ' : Mill} {stayed stayed' : Key → Bool} {p q : EscalationPass}
  {c : Selected} {rest : List Selected}

theorem isSafe_iff : p.isSafe env σ = true ↔
    (∀ c ∈ p.candidates, harmless env σ p.board false c = true) ∧
      ∀ c note body, p.phase = .due c note body → harmless env σ p.board true c = true := by
  unfold EscalationPass.isSafe
  rw [Bool.and_eq_true, List.all_eq_true]
  cases p.phase <;> simp

/-- The pass is done with the ticket `c`, or has only to comment on it. -/
theorem PassInv.done (h : PassInv env threshold σ stayed p)
    (hsel : p.selection = c.id :: rest.map Selected.id) (hrest : ∀ c' ∈ rest, c' ∈ p.candidates)
    (hfetch : ∀ tid, tid ≠ c.id → fetch env p.board σ' tid = fetch env p.board σ tid)
    (hlisted : ∀ k, stayed' k = true → isWaiting threshold p.startedAt σ' k = true ∧
      (k.1 ∈ p.boards ∨ k.1 = p.board ∧ k.2 ∈ rest.map Selected.id))
    (hstart : q.startedAt = p.startedAt) (hboards : q.boards = p.boards) (hboard : q.board = p.board)
    (hcs : q.candidates = rest) (hphase : q.phase = .idle ∨ ∃ body, q.phase = .moved c body) :
    PassInv env threshold σ' stayed' q := by
  have hnd : (c.id :: rest.map Selected.id).Nodup := hsel ▸ h.distinct
  have hpend : q.pending = rest.map Selected.id := by
    unfold EscalationPass.pending
    rcases hphase with hq | ⟨body, hq⟩ <;> rw [hq, hcs]
  constructor
  · intro c' hc'
    rw [hcs] at hc'
    have hne : c'.id ≠ c.id := by
      intro heq
      apply (List.nodup_cons.1 hnd).1
      rw [← heq]
      exact List.mem_map_of_mem hc'
    rw [hboard]
    exact harmless_congr (hfetch c'.id hne) (h.safe c' (hrest c' hc'))
  · intro c' note body hdue
    rcases hphase with hq | ⟨_, hq⟩ <;> rw [hq] at hdue <;> cases hdue
  · rw [hboards]
    exact h.named
  · unfold EscalationPass.selection
    rcases hphase with hq | ⟨_, hq⟩
    · rw [hq, hcs]
      exact (List.nodup_cons.1 hnd).2
    · rw [hq, hcs]
      exact hnd
  · rw [hcs]
    exact fun c' hc' => h.awaiting c' (hrest c' hc')
  · rw [hpend, hstart, hboards, hboard]
    exact hlisted

/-! ### Reading the comments -/

theorem readComments_cases (now : DateTime) (p : EscalationPass) :
    p.readComments env c now σ = p.skip ∧ (c.state = .blocked ∨
      ∀ k r, fetch env p.board σ c.id = .ok (k, r) → hasReply (askThreads r.comments) r.comments = true) ∨
    ∃ k r note body, fetch env p.board σ c.id = .ok (k, r) ∧ hasReply (askThreads r.comments) r.comments = false ∧
      p.readComments env c now σ = { p with phase := .due c note body } := by
  unfold EscalationPass.readComments
  by_cases hc : c.state = .blocked
  · rw [if_pos hc]
    exact .inl ⟨rfl, .inl hc⟩
  · rw [if_neg hc]
    cases hf : fetch env p.board σ c.id with
    | error e => exact .inl ⟨rfl, .inr (by simp)⟩
    | ok kr =>
        obtain ⟨k, r⟩ := kr
        dsimp only
        cases hreply : hasReply (askThreads r.comments) r.comments with
        | true =>
            refine .inl ⟨rfl, .inr ?_⟩
            intro k' r' hok
            cases hok
            exact hreply
        | false => exact .inr ⟨k, r, _, _, rfl, hreply, rfl⟩

theorem PassInv.readComments (h : PassInv env threshold σ stayed p) (hphase : p.phase = .idle)
    (hcs : p.candidates = c :: rest) (now : DateTime)
    (hold : fetched env p.board σ c.id (fun k r =>
      isWaiting threshold p.startedAt σ k && answeredBefore r.comments) = false) :
    PassInv env threshold σ stayed (({ p with candidates := rest } : EscalationPass).readComments env c now σ) := by
  have hsel : p.selection = c.id :: rest.map Selected.id := by
    unfold EscalationPass.selection
    rw [hphase, hcs]
    rfl
  have hpend : p.pending = c.id :: rest.map Selected.id := by
    unfold EscalationPass.pending
    rw [hphase, hcs]
    rfl
  have hrest : ∀ c' ∈ rest, c' ∈ p.candidates := fun c' hc' => hcs ▸ List.mem_cons_of_mem c hc'
  have hc : c ∈ p.candidates := hcs ▸ List.mem_cons_self
  rcases @readComments_cases env σ c now { p with candidates := rest } with
    ⟨hq, hwhy⟩ | ⟨k, r, note, body, hf, hnone, hq⟩
  · rw [hq]
    refine h.done hsel hrest (fun _ _ => rfl) ?_ rfl rfl rfl rfl (.inl rfl)
    intro k hk
    obtain ⟨hwait, hwhere⟩ := h.listed k hk
    refine ⟨hwait, hwhere.imp_right ?_⟩
    rintro ⟨hboard, hid⟩
    rw [hpend] at hid
    rcases List.mem_cons.1 hid with heq | hmem
    · -- the ticket waits, so the reply seen is one to an old question
      exfalso
      obtain ⟨r, hf, -, hun⟩ := fetch_of_isWaiting hwait
      rw [hboard, heq] at hf
      rcases hwhy with hblocked | hreply
      · rw [h.awaiting c hc] at hblocked
        cases hblocked
      · have hnot := of_fetched_eq_false hold hf
        rw [hwait, Bool.true_and] at hnot
        have hseen := hreply k r hf
        rw [hasReply_of_unanswered hun hnot] at hseen
        cases hseen
    · exact ⟨hboard, hmem⟩
  · rw [hq]
    constructor
    · exact fun c' hc' => h.safe c' (hrest c' hc')
    · intro c' note' body' hdue
      cases hdue
      rw [harmless_iff]
      intro k' r' hf'
      rw [show fetch env p.board σ c.id = .ok (k, r) from hf] at hf'
      cases hf'
      rcases harmless_iff.1 (h.safe c hc) k r hf with hs | ⟨-, hreply⟩ | hcan
      · exact .inl hs
      · rw [hnone] at hreply
        cases hreply
      · exact .inr (.inr hcan)
    · exact h.named
    · show (c.id :: rest.map Selected.id).Nodup
      rw [← hsel]
      exact h.distinct
    · exact fun c' hc' => h.awaiting c' (hrest c' hc')
    · intro k' hk'
      show _ ∧ (_ ∨ _ ∧ k'.2 ∈ c.id :: rest.map Selected.id)
      rw [← hpend]
      exact h.listed k' hk'

/-! ### The move and the comment on it -/

theorem transitionRefusal_blocked {tid : TicketId} {r : TicketRecord} : transitionRefusal tid .blocked r = none ↔
    canTransition r.ticket.state .blocked r.ticket.blockedFrom r.ticket.pausedFrom = true := by
  cases h : canTransition r.ticket.state .blocked r.ticket.blockedFrom r.ticket.pausedFrom <;>
    simp [transitionRefusal, TERMINAL_STATES, h]

/-- The move writes nothing, or the ticket it finds. -/
theorem transition_blocked_cases (env : Env) (svc : BoardId) (tid : TicketId) (note reason : Option String) (σ : Mill) :
    (∃ e, transition env svc tid .blocked note reason σ = (σ, .error e)) ∧
      (∀ k r, fetch env svc σ tid = .ok (k, r) →
        canTransition r.ticket.state .blocked r.ticket.blockedFrom r.ticket.pausedFrom = false) ∨
    ∃ k r, fetch env svc σ tid = .ok (k, r) ∧
      canTransition r.ticket.state .blocked r.ticket.blockedFrom r.ticket.pausedFrom = true ∧
      transition env svc tid .blocked note reason σ = (commitTransition env k r .blocked note reason σ, .ok ()) := by
  cases hf : fetch env svc σ tid with
  | error e =>
      refine .inl ⟨⟨e, ?_⟩, by simp⟩
      unfold transition transitionSession
      rw [hf]
  | ok kr =>
      obtain ⟨k, r⟩ := kr
      have hnoop : transitionNoop r.ticket .blocked = false := by simp [transitionNoop, TERMINAL_EPIC_STATES]
      cases hr : transitionRefusal tid .blocked r with
      | some e =>
          refine .inl ⟨⟨e, ?_⟩, ?_⟩
          · unfold transition transitionSession
            simp [hf, hnoop, hr]
          · intro k' r' hok
            cases hok
            by_contra hcan
            have hnone : transitionRefusal tid .blocked r = none :=
              transitionRefusal_blocked.2 (Bool.not_eq_false _ ▸ hcan)
            rw [hr] at hnone
            cases hnone
      | none =>
          refine .inr ⟨k, r, rfl, transitionRefusal_blocked.1 hr, ?_⟩
          exact transition_eq_commit hf hnoop hr (by decide) (by decide)

theorem records_commit_blocked (k : Key) (r : TicketRecord) (note : Option String) (σ : Mill) :
    ∃ r', (commitTransition env k r .blocked note none σ).records = σ.records.put k r' ∧
      r'.ticket.state = .blocked :=
  ⟨_, records_commitTransition k r .blocked note none σ, rfl⟩

/-- Whom the move finds waiting. -/
theorem PassInv.moves_awaiting (h : PassInv env threshold σ stayed p) {e : Key × State}
    (he : e ∈ (p.moves env σ).toList) : e.2 = .awaitingUserReply := by
  rw [Option.mem_toList] at he
  unfold EscalationPass.moves at he
  split at he
  · rename_i c note body hdue
    rcases transition_blocked_cases env p.board c.id (some note) none σ with
      ⟨⟨err, herr⟩, -⟩ | ⟨k, r, hf, hcan, hok⟩
    · rw [herr] at he
      split at he
      · rename_i hbad
        cases hbad
      · cases he
    · rw [hf, hok] at he
      obtain rfl := Option.some.inj he
      rcases harmless_iff.1 (h.due c note body hdue) k r hf with hs | ⟨hread, -⟩ | hnot
      · exact hs
      · cases hread
      · rw [hcan] at hnot
        cases hnot
  · cases he

theorem fetch_of_put {svc : BoardId} {k : Key} {r r' : TicketRecord} {tid : TicketId}
    (hput : σ'.records = σ.records.put k r') (hget : σ.records.get k = some r) (hne : tid ≠ k.2) :
    fetch env svc σ' tid = fetch env svc σ tid := by
  rw [fetch_congr (σ := σ.putRecord k r') hput]
  exact fetch_putRecord_ne hget hne

theorem selection_of_due {note body : String} (hdue : p.phase = .due c note body) :
    p.selection = c.id :: p.candidates.map Selected.id := by
  unfold EscalationPass.selection
  rw [hdue]

theorem pending_of_due {note body : String} (hdue : p.phase = .due c note body) :
    p.pending = c.id :: p.candidates.map Selected.id := by
  unfold EscalationPass.pending
  rw [hdue]

theorem PassInv.move (h : PassInv env threshold σ stayed p) {note body : String} (hdue : p.phase = .due c note body) :
    PassInv env threshold (p.move env c note body σ).1
      (fun k => stayed k && isWaiting threshold p.startedAt (p.move env c note body σ).1 k)
      (p.move env c note body σ).2 := by
  -- a ticket that has waited up to here, and is the one to be moved
  have hfound : ∀ k, stayed k = true → k.1 = p.board → k.2 = c.id →
      ∃ r, fetch env p.board σ c.id = .ok (k, r) ∧ r.ticket.state = .awaitingUserReply := by
    intro k hk hboard hid
    have hwaits : ∃ r, fetch env k.1 σ k.2 = .ok (k, r) ∧ r.ticket.state = .awaitingUserReply ∧
        unanswered r.comments = true := fetch_of_isWaiting (h.listed k hk).1
    obtain ⟨r, hf, hs, -⟩ := hwaits
    rw [hboard, hid] at hf
    exact ⟨r, hf, hs⟩
  have hlisted : ∀ {σ'}, (∀ k, stayed k = true → k.1 = p.board → k.2 = c.id →
      isWaiting threshold p.startedAt σ' k = false) → ∀ k,
      (stayed k && isWaiting threshold p.startedAt σ' k) = true → isWaiting threshold p.startedAt σ' k = true ∧
        (k.1 ∈ p.boards ∨ k.1 = p.board ∧ k.2 ∈ p.candidates.map Selected.id) := by
    intro σ' hnot k hk
    rw [Bool.and_eq_true] at hk
    refine ⟨hk.2, (h.listed k hk.1).2.imp_right ?_⟩
    rintro ⟨hboard, hid⟩
    rw [pending_of_due hdue] at hid
    rcases List.mem_cons.1 hid with heq | hmem
    · rw [hnot k hk.1 hboard heq] at hk
      cases hk.2
    · exact ⟨hboard, hmem⟩
  unfold EscalationPass.move
  rcases transition_blocked_cases env p.board c.id (some note) none σ with
    ⟨⟨err, herr⟩, hrefused⟩ | ⟨k, r, hf, -, hok⟩
  · rw [herr]
    refine h.done (selection_of_due hdue) (fun _ hc' => hc') (fun _ _ => rfl) (hlisted ?_) rfl rfl rfl rfl (.inl rfl)
    intro k hk hboard hid
    obtain ⟨r, hf, hs⟩ := hfound k hk hboard hid
    have hcan := hrefused k r hf
    rw [hs] at hcan
    simp [canTransition, TRANSITIONS] at hcan
  · rw [hok]
    obtain ⟨hid, hget⟩ := get_of_fetch hf
    obtain ⟨r', hrec, hs⟩ := @records_commit_blocked env k r (some note) σ
    refine h.done (selection_of_due hdue) (fun _ hc' => hc') ?_ (hlisted ?_) rfl rfl rfl rfl (.inr ⟨body, rfl⟩)
    · intro tid hne
      rw [← hid] at hne
      exact fetch_of_put hrec hget hne
    · intro k' hk' hboard hid'
      obtain ⟨r₀, hf', -⟩ := hfound k' hk' hboard hid'
      rw [hf] at hf'
      cases hf'
      by_contra hwait
      rw [Bool.not_eq_false] at hwait
      obtain ⟨-, r₁, hget₁, hs₁, -⟩ := isWaiting_iff.1 hwait
      rw [hrec, Table.get_put_self] at hget₁
      obtain rfl := Option.some.inj hget₁
      rw [hs] at hs₁
      cases hs₁

/-- A plain comment writes nothing, or the ticket it finds. -/
theorem addComment_plain_cases (env : Env) (svc : BoardId) (tid : TicketId) (body author : String) (σ : Mill) :
    (∃ e, addComment env svc tid body author none σ = (σ, .error e)) ∨
    ∃ k r cs, fetch env svc σ tid = .ok (k, r) ∧
      addComment env svc tid body author none σ = (σ.putComments k r cs, .ok ()) := by
  unfold addComment
  cases hf : fetch env svc σ tid with
  | error e => exact .inl ⟨e, rfl⟩
  | ok kr => exact .inr ⟨kr.1, kr.2, _, rfl, rfl⟩

theorem PassInv.comment (h : PassInv env threshold σ stayed p) {body : String} (hmoved : p.phase = .moved c body) :
    PassInv env threshold (p.comment env c body σ).1
      (fun k => stayed k && isWaiting threshold p.startedAt (p.comment env c body σ).1 k)
      (p.comment env c body σ).2 := by
  have hsel : p.selection = c.id :: p.candidates.map Selected.id := by
    unfold EscalationPass.selection
    rw [hmoved]
  have hpend : p.pending = p.candidates.map Selected.id := by
    unfold EscalationPass.pending
    rw [hmoved]
  have hlisted : ∀ {σ'} k, (stayed k && isWaiting threshold p.startedAt σ' k) = true →
      isWaiting threshold p.startedAt σ' k = true ∧
        (k.1 ∈ p.boards ∨ k.1 = p.board ∧ k.2 ∈ p.candidates.map Selected.id) := by
    intro σ' k hk
    rw [Bool.and_eq_true] at hk
    rw [← hpend]
    exact ⟨hk.2, (h.listed k hk.1).2⟩
  unfold EscalationPass.comment
  rcases addComment_plain_cases env p.board c.id body "system" σ with ⟨e, herr⟩ | ⟨k, r, cs, hf, hok⟩
  · rw [herr]
    exact h.done hsel (fun _ hc' => hc') (fun _ _ => rfl) hlisted rfl rfl rfl rfl (.inl rfl)
  · rw [hok]
    obtain ⟨hid, hget⟩ := get_of_fetch hf
    refine h.done hsel (fun _ hc' => hc') ?_ hlisted rfl rfl rfl rfl (.inl rfl)
    intro tid hne
    rw [← hid] at hne
    exact fetch_putRecord_ne hget hne

/-! ### Selecting -/

theorem mem_staleTickets {startedAt : DateTime} {board : BoardId} : c ∈ staleTickets threshold startedAt board σ ↔
    ∃ r, σ.records.get (board, c.id) = some r ∧ r.ticket.state = .awaitingUserReply ∧
      isOverdue threshold startedAt r.ticket = true ∧ c = ⟨c.id, r.ticket.state, r.ticket.updatedAt⟩ := by
  constructor
  · intro h
    obtain ⟨⟨k, r⟩, hrow, hc⟩ := List.mem_map.1 h
    obtain ⟨hmem, hcond⟩ := List.mem_filter.1 hrow
    simp only [Bool.and_eq_true, decide_eq_true_eq] at hcond
    obtain ⟨⟨hboard, hs⟩, hold⟩ := hcond
    have hid : k = (board, c.id) := by
      rw [← hc, ← hboard]
    rw [hid] at hmem
    exact ⟨r, Table.mem_rows.1 hmem, hs, hold, by rw [← hc]⟩
  · rintro ⟨r, hget, hs, hold, hc⟩
    refine List.mem_map.2 ⟨((board, c.id), r), List.mem_filter.2 ⟨Table.mem_rows.2 hget, ?_⟩, hc.symm⟩
    simp [hs, hold]

/-- A ticket is selected once. -/
theorem nodup_staleTickets (startedAt : DateTime) (board : BoardId) :
    ((staleTickets threshold startedAt board σ).map Selected.id).Nodup := by
  unfold staleTickets
  rw [List.map_map]
  have hrows : σ.records.rows.Nodup := by
    have hkeys : (σ.records.rows.map Prod.fst).Nodup := by
      rw [Table.map_fst_rows]
      exact σ.records.nodup
    exact hkeys.of_map _
  refine (hrows.filter _).map_on ?_
  rintro ⟨k, r⟩ hk ⟨k', r'⟩ hk' hid
  obtain ⟨hmem, hcond⟩ := List.mem_filter.1 hk
  obtain ⟨hmem', hcond'⟩ := List.mem_filter.1 hk'
  simp only [Bool.and_eq_true, decide_eq_true_eq] at hcond hcond'
  have hkey : k = k' := Prod.ext (hcond.1.1.trans hcond'.1.1.symm) hid
  subst hkey
  have hrec := (Table.mem_rows.1 hmem).symm.trans (Table.mem_rows.1 hmem')
  rw [Option.some.inj hrec]

theorem PassInv.select (h : PassInv env threshold σ stayed p) (hphase : p.phase = .idle) (hcs : p.candidates = [])
    {board : BoardId} {boards : List BoardId} (hboards : p.boards = board :: boards) :
    PassInv env threshold σ stayed { p with
      boards := boards
      board := board
      candidates := staleTickets threshold p.startedAt board σ } := by
  have hname : board ≠ "" := h.named board (hboards ▸ List.mem_cons_self)
  constructor
  · intro c hc
    obtain ⟨r, hget, hs, -⟩ := mem_staleTickets.1 hc
    rw [harmless_iff]
    intro k r' hf
    rw [show fetch env board σ c.id = .ok ((board, c.id), r) from fetch_own hname hget] at hf
    cases hf
    exact .inl hs
  · intro c note body hdue
    rw [show p.phase = _ from hdue] at hphase
    cases hphase
  · exact fun b hb => h.named b (hboards ▸ List.mem_cons_of_mem board hb)
  · unfold EscalationPass.selection
    dsimp only
    rw [hphase]
    exact nodup_staleTickets p.startedAt board
  · intro c hc
    obtain ⟨r, -, hs, -, heq⟩ := mem_staleTickets.1 hc
    rw [heq]
    exact hs
  · intro k hk
    obtain ⟨hwait, hwhere⟩ := h.listed k hk
    refine ⟨hwait, ?_⟩
    rcases hwhere with hmem | ⟨-, hnone⟩
    · rw [hboards] at hmem
      rcases List.mem_cons.1 hmem with heq | hmem
      · -- the board of the ticket is selected now, and the ticket with it
        obtain ⟨-, r, hget, hs, hold, -⟩ := isWaiting_iff.1 hwait
        refine .inr ⟨heq, ?_⟩
        unfold EscalationPass.pending
        dsimp only
        rw [hphase]
        refine List.mem_map.2 ⟨⟨k.2, r.ticket.state, r.ticket.updatedAt⟩, mem_staleTickets.2 ⟨r, ?_, hs, hold, rfl⟩, rfl⟩
        rw [← heq]
        exact hget
      · exact .inl hmem
    · unfold EscalationPass.pending at hnone
      rw [hphase, hcs] at hnone
      cases hnone

/-- The boards of a new pass. -/
theorem mem_boardsToScan {board : BoardId} : board ∈ boardsToScan env σ ↔
    board ≠ "" ∧ (board ∈ (env.repos.getD []).map Prod.snd ∨ board ∈ σ.boards) := by
  unfold boardsToScan
  rw [List.mem_eraseDups, List.mem_append, List.mem_mergeSort, List.mem_filter, List.mem_filter]
  simp only [decide_eq_true_eq]
  tauto

theorem passInv_start (now : DateTime) :
    PassInv env threshold σ (isWaiting threshold now σ) (.start env now σ) where
  safe c hc := by cases hc
  due c note body hdue := by cases hdue
  named b hb := (mem_boardsToScan.1 hb).1
  distinct := List.nodup_nil
  awaiting c hc := by cases hc
  listed k hk := by
    obtain ⟨hname, r, hget, -⟩ := isWaiting_iff.1 hk
    refine ⟨hk, .inl (mem_boardsToScan.2 ⟨hname, .inr (List.mem_eraseDups.2 ?_)⟩)⟩
    exact List.mem_map_of_mem ((σ.records.mem_keys k).2 (by rw [hget]; simp))

/-! ## Whole passes -/

theorem PassInv.fewer (h : PassInv env threshold σ stayed p) (hsub : ∀ k, stayed' k = true → stayed k = true) :
    PassInv env threshold σ stayed' p where
  safe := h.safe
  due := h.due
  named := h.named
  distinct := h.distinct
  awaiting := h.awaiting
  listed k hk := h.listed k (hsub k hk)

/-- Others act. -/
theorem PassInv.settle (h : PassInv env threshold σ stayed p) (hsafe : p.isSafe env σ' = true) :
    PassInv env threshold σ' (fun k => stayed k && isWaiting threshold p.startedAt σ' k) p where
  safe := (isSafe_iff.1 hsafe).1
  due := (isSafe_iff.1 hsafe).2
  named := h.named
  distinct := h.distinct
  awaiting := h.awaiting
  listed k hk := by
    rw [Bool.and_eq_true] at hk
    exact ⟨hk.2, (h.listed k hk.1).2⟩

/-- The tickets that still wait after the next step are still to be dealt with, and none is left at the end. -/
theorem PassInv.advance (h : PassInv env threshold σ stayed p) (now : DateTime)
    (hold : ∀ c rest, p.phase = .idle → p.candidates = c :: rest → fetched env p.board σ c.id (fun k r =>
      isWaiting threshold p.startedAt σ k && answeredBefore r.comments) = false)
    {o : Option EscalationPass} (hadv : p.advance env threshold now σ = (σ', o)) :
    (∀ q, o = some q →
      PassInv env threshold σ' (fun k => stayed k && isWaiting threshold p.startedAt σ' k) q) ∧
    (o = none → ∀ k, (stayed k && isWaiting threshold p.startedAt σ' k) = false) := by
  unfold EscalationPass.advance at hadv
  split at hadv
  · rename_i _ _ c body hmoved
    obtain ⟨rfl, rfl⟩ := Prod.mk.inj hadv
    refine ⟨?_, fun hnone => by cases hnone⟩
    intro q hq
    obtain rfl := Option.some.inj hq
    exact h.comment hmoved
  · rename_i _ _ c note body hdue
    obtain ⟨rfl, rfl⟩ := Prod.mk.inj hadv
    refine ⟨?_, fun hnone => by cases hnone⟩
    intro q hq
    obtain rfl := Option.some.inj hq
    exact h.move hdue
  · rename_i _ c candidates hphase hcs
    obtain ⟨rfl, rfl⟩ := Prod.mk.inj hadv
    refine ⟨?_, fun hnone => by cases hnone⟩
    intro q hq
    obtain rfl := Option.some.inj hq
    refine (h.readComments hphase hcs now (hold c candidates hphase hcs)).fewer ?_
    intro k hk
    exact (Bool.and_eq_true _ _ ▸ hk).1
  · rename_i board boards hphase hcs hboards
    obtain ⟨rfl, rfl⟩ := Prod.mk.inj hadv
    refine ⟨?_, fun hnone => by cases hnone⟩
    intro q hq
    obtain rfl := Option.some.inj hq
    refine (h.select hphase hcs hboards).fewer ?_
    intro k hk
    exact (Bool.and_eq_true _ _ ▸ hk).1
  · rename_i hphase hcs hboards
    obtain ⟨rfl, rfl⟩ := Prod.mk.inj hadv
    refine ⟨fun q hq => (by cases hq), ?_⟩
    intro _ k
    by_contra hk
    rw [Bool.not_eq_false, Bool.and_eq_true] at hk
    -- no board is left, and no ticket of the last one
    rcases (h.listed k hk.1).2 with hmem | ⟨-, hmem⟩
    · rw [hboards] at hmem
      cases hmem
    · unfold EscalationPass.pending at hmem
      rw [hphase, hcs] at hmem
      cases hmem

/-- A pass ends: every step leaves less to do. -/
theorem rank_advance (now : DateTime) (hadv : (p.advance env threshold now σ).2 = some q) : q.rank < p.rank := by
  unfold EscalationPass.advance at hadv
  split at hadv
  · rename_i _ _ c body hmoved
    obtain rfl := Option.some.inj hadv
    unfold EscalationPass.comment
    rcases addComment_plain_cases env p.board c.id body "system" σ with ⟨e, herr⟩ | ⟨k, r, cs, -, hok⟩
    · rw [herr]
      simp [EscalationPass.rank, EscalationPass.skip, hmoved, Prod.Lex.lt_iff]
    · rw [hok]
      simp [EscalationPass.rank, hmoved, Prod.Lex.lt_iff]
  · rename_i _ _ c note body hdue
    obtain rfl := Option.some.inj hadv
    unfold EscalationPass.move
    rcases transition_blocked_cases env p.board c.id (some note) none σ with
      ⟨⟨e, herr⟩, -⟩ | ⟨k, r, -, -, hok⟩
    · rw [herr]
      simp [EscalationPass.rank, EscalationPass.skip, hdue, Prod.Lex.lt_iff]
    · rw [hok]
      simp [EscalationPass.rank, hdue, Prod.Lex.lt_iff]
  · rename_i _ c candidates hphase hcs
    obtain rfl := Option.some.inj hadv
    rcases @readComments_cases env σ c now { p with candidates := candidates } with
      ⟨hq, -⟩ | ⟨k, r, note, body, -, -, hq⟩
    · rw [hq]
      simp [EscalationPass.rank, EscalationPass.skip, hcs, Prod.Lex.lt_iff]
    · rw [hq]
      simp [EscalationPass.rank, hcs, Prod.Lex.lt_iff]
  · rename_i board boards hphase hcs hboards
    obtain rfl := Option.some.inj hadv
    simp [EscalationPass.rank, hboards, Prod.Lex.lt_iff]
  · cases hadv

end Steps

section Run

variable {env : Env} {threshold : Nat}

theorem hits_fresh (σ : Mill) : Hits env threshold (.fresh σ) where
  pass p hp := by cases hp
  missed _ _ := rfl
  moved e he := by cases he

/-- **A step that does not stray** keeps the passes on target. -/
theorem hits_step (s : Escalation) (act : EscalationAct) (t : Escalation) (h : Hits env threshold s)
    (hstep : Guarded (fun s act => strays env threshold s act = false) (Escalation.Step env threshold) s act t) :
    Hits env threshold t := by
  obtain ⟨hok, hstep⟩ := hstep
  unfold Escalation.Step at hstep
  cases act with
  | other f =>
      obtain rfl := Option.some.inj hstep
      constructor
      · intro p hp
        have hpass : s.pass = some p := hp
        have hsafe : p.isSafe env (f s.mill) = true := by
          have hany : upsets env s f = false := hok
          unfold upsets at hany
          rw [hpass] at hany
          simpa using hany
        unfold Escalation.settle
        rw [hpass]
        exact (h.pass p hpass).settle hsafe
      · intro hp k
        have hpass : s.pass = none := hp
        unfold Escalation.settle
        rw [hpass]
        exact h.missed hpass k
      · exact h.moved
  | start now =>
      replace hstep : (if s.pass.isSome then none else if threshold = 0 then some s else _) = some t := hstep
      split at hstep
      · cases hstep
      · split at hstep
        · obtain rfl := Option.some.inj hstep
          exact h
        · obtain rfl := Option.some.inj hstep
          constructor
          · intro p hp
            obtain rfl := Option.some.inj hp
            exact passInv_start now
          · intro hp
            cases hp
          · exact h.moved
  | advance now =>
      obtain ⟨p, hpass, rfl⟩ := Option.map_eq_some_iff.1 hstep
      have hp := h.pass p hpass
      have hold : ∀ c rest, p.phase = .idle → p.candidates = c :: rest →
          fetched env p.board s.mill c.id (fun k r =>
            isWaiting threshold p.startedAt s.mill k && answeredBefore r.comments) = false := by
        intro c rest hphase hcs
        have hany : forgets env threshold s = false := hok
        unfold forgets at hany
        rw [hpass] at hany
        simpa [hphase, hcs] using hany
      have hstayed : (s.advance env threshold now p).stayed =
          fun k => s.stayed k && isWaiting threshold p.startedAt (p.advance env threshold now s.mill).1 k := by
        unfold Escalation.advance Escalation.settle
        rw [hpass]
      obtain ⟨hsome, hnone⟩ := hp.advance now hold rfl
      constructor
      · intro q hq
        rw [hstayed]
        exact hsome q hq
      · intro hq k
        rw [hstayed]
        exact hnone hq k
      · intro e he
        rcases List.mem_append.1 he with hmem | hmem
        · exact h.moved e hmem
        · exact hp.moves_awaiting hmem

/-- **Timeout escalation.** Where no act of others takes a selected ticket out of its wait behind the back of the
    pass, and no waiting ticket has an old answer, passes block only tickets that are waiting, a pass comes to an
    end, and then there is no ticket that has been waiting all along, for too long, with its questions unanswered. -/
theorem escalation_hits_unanswered {σ : Mill} {acts : List EscalationAct} {s : Escalation}
    (h : Run (Guarded (fun s act => strays env threshold s act = false) (Escalation.Step env threshold))
      (.fresh σ) acts s) :
    (∀ e ∈ s.moved, e.2 = .awaitingUserReply) ∧
    (∀ p now q, s.pass = some p → (p.advance env threshold now s.mill).2 = some q → q.rank < p.rank) ∧
    (s.pass = none → ∀ k, s.stayed k = false) := by
  have hits := h.invariant hits_step (hits_fresh σ)
  exact ⟨hits.moved, fun p now q _ hadv => rank_advance now hadv, hits.missed⟩

end Run

/-- A ticket waits for the answer to a question. -/
def waitingTicket : List EscalationAct :=
  [.call .standalone (.create "board" { id := "t-1", title := "ticket" }),
    .call .standalone (.addComment "board" "t-1" "[ASK_USER] which one?" "agent" none),
    .call .standalone (.transition "board" "t-1" .awaitingUserReply none none)]

/-- Another one, whose question was answered. -/
def answeredTicket : List EscalationAct :=
  [.call .standalone (.create "board" { id := "t-2", title := "ticket" }),
    .call .standalone (.addComment "board" "t-2" "[ASK_USER] by when?" "agent" none),
    .call .standalone (.transition "board" "t-2" .awaitingUserReply none none),
    .call .standalone (.addComment "board" "t-2" "by Friday" "user" (some 2))]

/-- A pass selects the waiting ticket of the one board. -/
def selectOne : List EscalationAct := [.start 2000000, .advance 2000000]

/-- The ticket that waits is blocked, the one that was answered is not. -/
theorem escalation_hits_unanswered_one : ∃ s,
    Run (Guarded (fun s act => strays .standalone 1 s act = false) (Escalation.Step .standalone 1)) (.fresh .empty)
      (waitingTicket ++ answeredTicket ++ selectOne ++ [.advance 2000000, .advance 2000000, .advance 2000000, .advance 2000000]) s ∧
    s.pass.isNone = true ∧ s.moved = [(("board", "t-1"), .awaitingUserReply)] ∧
    (∀ e ∈ s.moved, e.2 = .awaitingUserReply) ∧
    (∀ p now q, s.pass = some p → (p.advance .standalone 1 now s.mill).2 = some q → q.rank < p.rank) ∧
    (s.pass = none → ∀ k, s.stayed k = false) := by
  have hsome : ((Run.perform (fun s act =>
      if strays .standalone 1 s act = false then s.apply .standalone 1 act else none) (Escalation.fresh .empty)
        (waitingTicket ++ answeredTicket ++ selectOne ++ [.advance 2000000, .advance 2000000, .advance 2000000, .advance 2000000])).map
          fun s => (s.pass.isNone, s.moved)) = some (true, [(("board", "t-1"), .awaitingUserReply)]) := by
    decide +kernel
  obtain ⟨s, hs, hend⟩ := Option.map_eq_some_iff.1 hsome
  have hrun := Run.guarded_of_perform hs
  exact ⟨s, hrun, congrArg Prod.fst hend, congrArg Prod.snd hend, escalation_hits_unanswered hrun⟩

/-- The question is answered, and another one asked. -/
def askedAgain : List EscalationAct :=
  [.call .standalone (.addComment "board" "t-1" "the first" "operator" (some 1)),
    .call .standalone (.addComment "board" "t-1" "[ASK_USER] are you sure?" "agent" none),
    .call .standalone (.transition "board" "t-1" .awaitingUserReply none none)]

/-- The operator closes the question after the ticket was selected, and the ticket is blocked out of the state it
    resumed to; of two questions the first was answered, and nobody is told of the second. -/
theorem escalation_misses_and_overhits :
    (∃ acts s, Run (Escalation.Step .standalone 1) (.fresh .empty) acts s ∧
      ¬ ∀ e ∈ s.moved, e.2 = .awaitingUserReply) ∧
    ∃ acts s, Run (Escalation.Step .standalone 1) (.fresh .empty) acts s ∧
      ¬ (s.pass = none → ∀ k, s.stayed k = false) := by
  constructor
  · have hsome : ((Run.perform (Escalation.apply .standalone 1) (Escalation.fresh .empty) (waitingTicket ++ answeredTicket ++ selectOne ++
        [.call .standalone (.closeThread "board" 1 none), .advance 2000000, .advance 2000000])).map
          fun s => s.moved) = some [(("board", "t-1"), .draft)] := by
      decide +kernel
    obtain ⟨s, hs, hmoved⟩ := Option.map_eq_some_iff.1 hsome
    refine ⟨_, s, Run.of_perform hs, fun hall => ?_⟩
    have hdraft := hall (("board", "t-1"), .draft) (by rw [hmoved]; exact List.mem_cons_self)
    cases hdraft
  · have hsome : ((Run.perform (Escalation.apply .standalone 1) (Escalation.fresh .empty)
        (waitingTicket ++ askedAgain ++ selectOne ++ [.advance 2000000, .advance 2000000])).map
          fun s => (s.pass.isNone, s.stayed ("board", "t-1"))) = some (true, true) := by
      decide +kernel
    obtain ⟨s, hs, hend⟩ := Option.map_eq_some_iff.1 hsome
    refine ⟨_, s, Run.of_perform hs, fun hnone => ?_⟩
    have hstayed := hnone (Option.isNone_iff_eq_none.1 (congrArg Prod.fst hend)) ("board", "t-1")
    have hwaits : s.stayed ("board", "t-1") = true := congrArg Prod.snd hend
    rw [hwaits] at hstayed
    cases hstayed

end Agents
end RobotsixMill
