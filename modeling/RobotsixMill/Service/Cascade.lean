import RobotsixMill.Service.Refinement

/-!
# `Service.Cascade` — the tickets a completion unblocks, and those they unblock

`_fire_unblocks` moves the blocked tickets among its targets through `transition`, which may complete
tickets in turn. This module shows

- that the cascade only unblocks (`unblockedFrom_fireUnblocks`);
- that the cascade unblocks every listed ticket it may unblock (`state_of_fireUnblocks`).
-/

namespace RobotsixMill
namespace Service
open RobotsixMill.Core Lib

/-! ## Blocked tickets come from states that may be blocked -/

/-- The recorded state of a block is one that lists `blocked`. -/
def Blockable (r : TicketRecord) : Prop :=
  ∀ s, r.ticket.blockedFrom = some s → State.blocked ∈ TRANSITIONS s

theorem blockable_transition {tid : TicketId} {r : TicketRecord} (h : Blockable r)
    (now : Nat → DateTime) {dst : State} (note reason : Option String)
    (hc : canTransition r.ticket.state dst r.ticket.blockedFrom r.ticket.pausedFrom = true) :
    Blockable (transitionRecord tid now dst note reason r) := by
  intro s hs
  have hs' : (if dst = .blocked then some r.ticket.state
      else if r.ticket.state = .blocked then none else r.ticket.blockedFrom) = some s := hs
  by_cases hdst : dst = .blocked
  · rw [if_pos hdst] at hs'
    cases hs'
    subst hdst
    unfold canTransition at hc
    split at hc
    · assumption
    · split at hc
      · rename_i hb
        exact h _ (by rw [hb.2, hb.1])
      · obtain ⟨ha, -⟩ := of_decide_eq_true hc
        rw [ha]
        decide
  · rw [if_neg hdst] at hs'
    split at hs'
    · cases hs'
    · exact h s hs'

/-- Every commit keeps it. -/
theorem stable_blockable : Stable (fun _ => True) fun _ r => Blockable r where
  create k r _ hf s hs := by rw [hf.blockedFrom] at hs; cases hs
  copy src dst r now note cs _ _ _ s hs := by cases hs
  change k r c _ hal h := by
    cases c with
    | transition now dst note reason =>
        exact blockable_transition h now note reason (canTransition_of_refusal_none hal.2)
    | unblock now note => exact blockable_transition h now _ _ (canTransition_of_refusal_none hal.2)
    | answerUnblock now note =>
        refine blockable_transition h now _ _ ?_
        simp [hal.1, hal.2, canTransition]
    | resumeBlocked s now cid note eventNote => intro s hs; cases hs
    | closeTracker now note => intro s hs; cases hs
    | autoResume now dst => intro s hs; cases hs
    | migrate now note cs => intro s hs; cases hs
    | purgeEvents cap =>
        show Blockable (purgeEventsRecord cap r)
        unfold purgeEventsRecord
        split
        · exact h
        · split <;> exact h
    | _ => exact h

theorem routine_true : Routine fun _ => True where
  delete _ := trivial
  unblock _ _ _ _ := trivial
  answerUnblock _ _ _ _ := trivial
  comments _ _ _ _ := trivial

/-- A blocked ticket is unblocked into its recorded state, or `draft`. -/
theorem unblockDst_eq (t : Ticket) : unblockDst t = t.blockedFrom.getD .draft := by
  unfold unblockDst
  cases t.blockedFrom with
  | none => rfl
  | some s => simp [canTransition_blocked_resume]

theorem Blockable.unblockDst_ne {r : TicketRecord} (h : Blockable r) :
    unblockDst r.ticket ≠ .blocked ∧ unblockDst r.ticket ∉ ARCHIVABLE_STATES := by
  rw [unblockDst_eq]
  cases hb : r.ticket.blockedFrom with
  | none => decide
  | some s =>
      have hs := h s hb
      show s ≠ .blocked ∧ s ∉ ARCHIVABLE_STATES
      revert hs
      cases s <;> decide

/-! ## One round of the cascade -/

variable {env : Env} {svc : BoardId}

/-- May the ticket that `get` finds for `tid` be unblocked? -/
def Unblockable (env : Env) (svc : BoardId) (σ : Mill) (tid : TicketId) (k : Key) (r : TicketRecord) :
    Prop :=
  get env svc σ tid = some (k, r) ∧ r.ticket.state = .blocked ∧
    transitionRefusal tid (unblockDst r.ticket) r = none

/-- The tickets a completion in state `dst` fires. -/
def firedTargets (r : TicketRecord) (dst : State) : List TicketId :=
  if dst ∈ UNBLOCK_TRIGGER_STATES then parseDependsOnStr r.ticket.unblocks else []

/-- A round that unblocks its target is the commit of the transition. -/
theorem unblockSession_eq {solver tid : TicketId} {σ : Mill} {k : Key} {r : TicketRecord}
    (hu : Unblockable env svc σ tid k r) (hb : Blockable r) :
    unblockSession env svc solver tid σ =
      (commitTransition env k r (unblockDst r.ticket) (some (unblockNote solver)) none σ,
        firedTargets r (unblockDst r.ticket)) := by
  obtain ⟨hg, hs, hr⟩ := hu
  obtain ⟨hne, harch⟩ := hb.unblockDst_ne
  have hnoop : transitionNoop r.ticket (unblockDst r.ticket) = false := by
    have hs' : r.ticket.state ≠ unblockDst r.ticket := by rw [hs]; exact hne.symm
    simp [transitionNoop, hs']
  simp [unblockSession, hg, hs, transitionSession, fetch_of_get hg, hnoop, hr, harch, firedTargets]

/-- Every other round does nothing. -/
theorem unblockSession_idle {solver tid : TicketId} {σ : Mill}
    (h : ∀ k r, ¬ Unblockable env svc σ tid k r) :
    unblockSession env svc solver tid σ = (σ, []) := by
  unfold unblockSession
  cases hg : get env svc σ tid with
  | none => rfl
  | some kr =>
      obtain ⟨k, r⟩ := kr
      dsimp only
      by_cases hs : r.ticket.state = .blocked
      · rw [if_neg (by simpa using hs)]
        cases hr : transitionRefusal tid (unblockDst r.ticket) r with
        | none => exact absurd ⟨hg, hs, hr⟩ (h k r)
        | some e =>
            have hnoop : transitionNoop r.ticket (unblockDst r.ticket) = false := by
              rw [transitionNoop, hs, Bool.and_eq_false_iff]
              by_cases hd : unblockDst r.ticket = .blocked
              · rw [hd]; exact .inr (by decide)
              · exact .inl (by simpa using fun h => hd h.symm)
            simp [transitionSession, fetch_of_get hg, hnoop, hr]
      · rw [if_pos hs]

/-- `σ'` is `σ` with some of its blocked tickets unblocked. -/
structure UnblockedFrom (env : Env) (svc : BoardId) (σ σ' : Mill) : Prop where
  locate : ∀ tid, locate env svc σ' tid = locate env svc σ tid
  rows : ∀ k r, σ.records.get k = some r → ∃ r', σ'.records.get k = some r' ∧
    (r' = r ∨ r.ticket.state = .blocked ∧ r'.ticket.state = unblockDst r.ticket)
  blocked : σ'.blockedCount ≤ σ.blockedCount
  blockable : σ'.records.AllRows fun _ r => Blockable r

theorem UnblockedFrom.refl {σ : Mill} (hb : σ.records.AllRows fun _ r => Blockable r) :
    UnblockedFrom env svc σ σ where
  locate _ := rfl
  rows _ r h := ⟨r, h, .inl rfl⟩
  blocked := Nat.le_refl _
  blockable := hb

theorem UnblockedFrom.trans {σ₁ σ₂ σ₃ : Mill} (h : UnblockedFrom env svc σ₁ σ₂)
    (h' : UnblockedFrom env svc σ₂ σ₃) (hb : σ₁.records.AllRows fun _ r => Blockable r) :
    UnblockedFrom env svc σ₁ σ₃ where
  locate tid := (h'.locate tid).trans (h.locate tid)
  rows k r hget := by
    obtain ⟨r₂, hget₂, h₂⟩ := h.rows k r hget
    obtain ⟨r₃, hget₃, h₃⟩ := h'.rows k r₂ hget₂
    refine ⟨r₃, hget₃, ?_⟩
    rcases h₂ with rfl | ⟨hs, hd⟩
    · exact h₃
    · rcases h₃ with rfl | ⟨hs₂, -⟩
      · exact .inr ⟨hs, hd⟩
      · -- unblocked once, a ticket is not blocked any more
        rw [hd] at hs₂
        exact absurd hs₂ (hb k r hget).unblockDst_ne.1
  blocked := Nat.le_trans h'.blocked h.blocked
  blockable := h'.blockable

theorem blockedCount_commitTransition {σ : Mill} {k : Key} {r : TicketRecord} {dst : State}
    {note reason : Option String} (hget : σ.records.get k = some r) (hs : r.ticket.state = .blocked)
    (hd : dst ≠ .blocked) :
    (commitTransition env k r dst note reason σ).blockedCount + 1 = σ.blockedCount := by
  unfold Mill.blockedCount
  rw [records_commitTransition]
  exact Table.count_put_add_one hget (by simpa using hs)
    (by simpa [transitionRecord, transitionTicket] using hd)

theorem unblockedFrom_commit {σ : Mill} {tid : TicketId} {k : Key} {r : TicketRecord}
    {note : Option String} (hb : σ.records.AllRows fun _ r => Blockable r)
    (hu : Unblockable env svc σ tid k r) :
    UnblockedFrom env svc σ (commitTransition env k r (unblockDst r.ticket) note none σ) := by
  obtain ⟨hg, hs, hr⟩ := hu
  have hget := (get_of_fetch (fetch_of_get hg)).2
  have hrec := @records_commitTransition env k r (unblockDst r.ticket) note none σ
  refine ⟨?_, ?_, ?_, ?_⟩
  · intro tid'
    rw [← @locate_putRecord env svc σ k r
      (transitionRecord k.2 (σ.now env) (unblockDst r.ticket) note none r) hget tid']
    exact locate_congr hrec tid'
  · intro k' r' hget'
    rw [hrec]
    by_cases hk : k' = k
    · subst hk
      rw [hget] at hget'
      cases hget'
      exact ⟨_, Table.get_put_self _ _ _, .inr ⟨hs, rfl⟩⟩
    · exact ⟨r', by rw [Table.get_put_ne _ _ hk]; exact hget', .inl rfl⟩
  · have := @blockedCount_commitTransition env σ k r _ note none hget hs (hb k r hget).unblockDst_ne.1
    omega
  · rw [hrec]
    exact hb.put (blockable_transition (hb k r hget) _ _ _ (canTransition_of_refusal_none hr))

/-- A round of the cascade, and how many blocked tickets it leaves if it fires any further. -/
theorem unblockedFrom_unblockSession {σ : Mill} (hb : σ.records.AllRows fun _ r => Blockable r)
    (solver tid : TicketId) :
    UnblockedFrom env svc σ (unblockSession env svc solver tid σ).1 ∧
      ((unblockSession env svc solver tid σ).2 ≠ [] →
        (unblockSession env svc solver tid σ).1.blockedCount < σ.blockedCount) := by
  by_cases h : ∃ k r, Unblockable env svc σ tid k r
  · obtain ⟨k, r, hu⟩ := h
    have hget := (get_of_fetch (fetch_of_get hu.1)).2
    rw [unblockSession_eq hu (hb k r hget)]
    refine ⟨unblockedFrom_commit hb hu, fun _ => ?_⟩
    have := @blockedCount_commitTransition env σ k r _ (some (unblockNote solver)) none hget hu.2.1
      (hb k r hget).unblockDst_ne.1
    show (commitTransition env k r _ _ none σ).blockedCount < σ.blockedCount
    omega
  · rw [unblockSession_idle (fun k r hu => h ⟨k, r, hu⟩)]
    exact ⟨.refl hb, fun hne => absurd rfl hne⟩

/-! ## The cascade -/

/-- One round with everything it fires in turn. -/
def fireRound (env : Env) (svc : BoardId) (depth : Nat) (solver : TicketId) (σ : Mill)
    (tid : TicketId) : Mill :=
  fireUnblocks env svc depth tid (unblockSession env svc solver tid σ).2
    (unblockSession env svc solver tid σ).1

theorem fireUnblocks_succ (depth : Nat) (solver : TicketId) (targets : List TicketId) (σ : Mill) :
    fireUnblocks env svc (depth + 1) solver targets σ =
      targets.foldl (fireRound env svc depth solver) σ := rfl

theorem fireUnblocks_nil (depth : Nat) (solver : TicketId) (σ : Mill) :
    fireUnblocks env svc depth solver [] σ = σ := by
  cases depth <;> rfl

/-- The cascade only unblocks. -/
theorem unblockedFrom_fireUnblocks (depth : Nat) (solver : TicketId) (targets : List TicketId)
    {σ : Mill} (hb : σ.records.AllRows fun _ r => Blockable r) :
    UnblockedFrom env svc σ (fireUnblocks env svc depth solver targets σ) := by
  refine fireUnblocks_induction (R := fun σ σ' => σ.records.AllRows (fun _ r => Blockable r) →
    UnblockedFrom env svc σ σ') (fun _ hb => .refl hb) ?_ ?_ depth solver targets σ hb
  · intro σ₁ σ₂ σ₃ h h' hb
    exact (h hb).trans (h' (h hb).blockable) hb
  · intro solver tid σ hb
    exact (unblockedFrom_unblockSession hb solver tid).1

theorem unblockedFrom_fireRound (depth : Nat) (solver tid : TicketId) {σ : Mill}
    (hb : σ.records.AllRows fun _ r => Blockable r) :
    UnblockedFrom env svc σ (fireRound env svc depth solver σ tid) := by
  have h₁ := (@unblockedFrom_unblockSession env svc σ hb solver tid).1
  exact h₁.trans (unblockedFrom_fireUnblocks depth tid _ h₁.blockable) hb

/-- A ticket that is not blocked is left alone. -/
theorem UnblockedFrom.keeps {σ σ' : Mill} (h : UnblockedFrom env svc σ σ') {k : Key}
    {r : TicketRecord} (hget : σ.records.get k = some r) (hs : r.ticket.state ≠ .blocked) :
    σ'.records.get k = some r := by
  obtain ⟨r', hget', rfl | ⟨hb, -⟩⟩ := h.rows k r hget
  · exact hget'
  · exact absurd hb hs

/-- The lookup of a target that the cascade has not touched yet. -/
theorem UnblockedFrom.get_eq {σ σ' : Mill} (h : UnblockedFrom env svc σ σ') {tid : TicketId} {k : Key}
    {r : TicketRecord} (hg : get env svc σ tid = some (k, r)) (hget' : σ'.records.get k = some r) :
    get env svc σ' tid = some (k, r) := by
  unfold get at hg ⊢
  rw [h.locate]
  cases hl : Service.locate env svc σ tid with
  | none => rw [hl] at hg; cases hg
  | some b =>
      rw [hl] at hg
      simp only [Option.bind_some, Option.map_eq_some_iff, Prod.mk.injEq] at hg ⊢
      obtain ⟨r', -, rfl, rfl⟩ := hg
      exact ⟨_, hget', rfl, rfl⟩

/-- A round unblocks its target. -/
theorem state_of_fireRound (depth : Nat) (solver : TicketId) {σ : Mill}
    (hb : σ.records.AllRows fun _ r => Blockable r) {tid : TicketId} {k : Key} {r : TicketRecord}
    (hu : Unblockable env svc σ tid k r) :
    ∃ r', (fireRound env svc depth solver σ tid).records.get k = some r' ∧
      r'.ticket.state = unblockDst r.ticket := by
  have hget := (get_of_fetch (fetch_of_get hu.1)).2
  have hcommit : (unblockSession env svc solver tid σ).1.records.get k =
      some (transitionRecord k.2 (σ.now env) (unblockDst r.ticket) (some (unblockNote solver)) none
        r) := by
    rw [unblockSession_eq hu (hb k r hget)]
    show (commitTransition env k r _ _ _ σ).records.get k = _
    rw [records_commitTransition, Table.get_put_self]
  have h₁ := (@unblockedFrom_unblockSession env svc σ hb solver tid).1
  have h₂ := @unblockedFrom_fireUnblocks env svc depth tid (unblockSession env svc solver tid σ).2 _
    h₁.blockable
  exact ⟨_, h₂.keeps hcommit (hb k r hget).unblockDst_ne.1, rfl⟩

/-- **The cascade unblocks every target it may unblock.** -/
theorem state_of_fireUnblocks (depth : Nat) (solver : TicketId) (targets : List TicketId) {σ : Mill}
    (hb : σ.records.AllRows fun _ r => Blockable r) {tid : TicketId} (hmem : tid ∈ targets) {k : Key}
    {r : TicketRecord} (hu : Unblockable env svc σ tid k r) :
    ∃ r', (fireUnblocks env svc (depth + 1) solver targets σ).records.get k = some r' ∧
      r'.ticket.state = r.ticket.blockedFrom.getD .draft := by
  have hget := (get_of_fetch (fetch_of_get hu.1)).2
  have hne := (hb k r hget).unblockDst_ne.1
  rw [← unblockDst_eq]
  obtain ⟨ts₁, ts₂, rfl⟩ := List.append_of_mem hmem
  -- the targets before it, its own round, the targets after it
  have h₁ := @unblockedFrom_fireUnblocks env svc (depth + 1) solver ts₁ σ hb
  have h₂ := @unblockedFrom_fireRound env svc depth solver tid _ h₁.blockable
  have h₃ := @unblockedFrom_fireUnblocks env svc (depth + 1) solver ts₂ _ h₂.blockable
  have hsplit : fireUnblocks env svc (depth + 1) solver (ts₁ ++ tid :: ts₂) σ =
      fireUnblocks env svc (depth + 1) solver ts₂ (fireRound env svc depth solver
        (fireUnblocks env svc (depth + 1) solver ts₁ σ) tid) := by
    rw [fireUnblocks_succ, List.foldl_append, List.foldl_cons]
    rfl
  rw [hsplit]
  obtain ⟨r₁, hget₁, rfl | ⟨-, hst⟩⟩ := h₁.rows k r hget
  · have hu₁ : Unblockable env svc (fireUnblocks env svc (depth + 1) solver ts₁ σ) tid k r₁ :=
      ⟨h₁.get_eq hu.1 hget₁, hu.2⟩
    obtain ⟨r₂, hget₂, hst⟩ := state_of_fireRound depth solver h₁.blockable hu₁
    exact ⟨r₂, h₃.keeps hget₂ (by rw [hst]; exact hne), hst⟩
  · -- already unblocked on the way
    have hget₂ := h₂.keeps hget₁ (by rw [hst]; exact hne)
    exact ⟨r₁, h₃.keeps hget₂ (by rw [hst]; exact hne), hst⟩

end Service
end RobotsixMill
