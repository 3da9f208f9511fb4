import RobotsixMill.Service.Cascade
import RobotsixMill.Service.ArchivePurge
import Mathlib.Logic.Relation

/-!
# `Service.CascadeMoves` — how far the unblock cascade goes

`transition` and `_fire_unblocks` call each other. `Fires` is that recursion as a derivation that records the tickets it
moves, over any store: the states and `blocked_from` are arbitrary, and the graph of `unblocks` may have cycles.

- `Advances` — what a part of the cascade does to the store, closed under composition;
- `cascade_settles` — the recursion ends, moves a ticket once, stays within reach of the solver and leaves nothing to
  move, with the exceptions that the purge and a ticket blocked from `blocked` make.
-/

namespace RobotsixMill
namespace Service
open RobotsixMill.Core Lib
open Relation (ReflTransGen)

/-! ## The recursion -/

/-- The targets a session hands to `_fire_unblocks`; after an exception there are none. -/
def firedBy : Except ServiceError (List TicketId) → List TicketId
  | .error _ => []
  | .ok targets => targets

/-- The ticket the session of `transition` moves, if it commits. -/
def movedKeys (env : Env) (svc : BoardId) (tid : TicketId) (dst : State) (σ : Mill) : List Key :=
  match fetch env svc σ tid with
  | .error _ => []
  | .ok (k, r) =>
    if transitionNoop r.ticket dst then []
    else if (transitionRefusal tid dst r).isNone then [k]
    else []

/-- `_fire_unblocks` for the solver and the targets takes the store from `σ` to `σ'` and moves the listed tickets. A
    blocked target goes through `transition`: its session, and then the targets that this fires. -/
inductive Fires (env : Env) (svc : BoardId) : TicketId → List TicketId → Mill → List Key → Mill → Prop
  | done {solver : TicketId} {σ : Mill} : Fires env svc solver [] σ [] σ
  | skipped {solver tid : TicketId} {rest : List TicketId} {σ σ' : Mill} {moves : List Key}
      (hskip : ∀ k r, get env svc σ tid = some (k, r) → r.ticket.state ≠ .blocked)
      (hrest : Fires env svc solver rest σ moves σ') : Fires env svc solver (tid :: rest) σ moves σ'
  | tried {solver tid : TicketId} {rest : List TicketId} {σ σ₁ σ₂ σ₃ : Mill} {k : Key} {r : TicketRecord}
      {res : Except ServiceError (List TicketId)} {inner outer : List Key}
      (hget : get env svc σ tid = some (k, r)) (hblocked : r.ticket.state = .blocked)
      (hsession : transitionSession env svc tid (unblockDst r.ticket) (some (unblockNote solver)) none σ = (σ₁, res))
      (hnested : Fires env svc tid (firedBy res) σ₁ inner σ₂) (hrest : Fires env svc solver rest σ₂ outer σ₃) :
      Fires env svc solver (tid :: rest) σ (movedKeys env svc tid (unblockDst r.ticket) σ ++ (inner ++ outer)) σ₃

/-- A call of `transition` with all it fires takes the store from `σ` to `σ'` and moves the listed tickets. -/
def Transitions (env : Env) (svc : BoardId) (tid : TicketId) (dst : State) (note reason : Option String) (σ : Mill)
    (moves : List Key) (σ' : Mill) : Prop :=
  ∃ inner, moves = movedKeys env svc tid dst σ ++ inner ∧
    Fires env svc tid (firedBy (transitionSession env svc tid dst note reason σ).2)
      (transitionSession env svc tid dst note reason σ).1 inner σ'

/-- The solver's row lists the ticket in `unblocks`. -/
def Unblocks (σ : Mill) (solver tid : TicketId) : Prop :=
  ∃ k r, σ.records.get k = some r ∧ k.2 = solver ∧ tid ∈ parseDependsOnStr r.ticket.unblocks

/-- Every row has been there, with the same `unblocks`. -/
def KeepsUnblocks (σ σ' : Mill) : Prop :=
  ∀ k r', σ'.records.get k = some r' → ∃ r, σ.records.get k = some r ∧ r'.ticket.unblocks = r.ticket.unblocks

theorem KeepsUnblocks.unblocks {σ σ' : Mill} (h : KeepsUnblocks σ σ') {a b : TicketId} (hab : Unblocks σ' a b) :
    Unblocks σ a b := by
  obtain ⟨k, r', hget', hkey, hmem⟩ := hab
  obtain ⟨r, hget, heq⟩ := h k r' hget'
  exact ⟨k, r, hget, hkey, by rw [← heq]; exact hmem⟩

theorem KeepsUnblocks.reach {σ σ' : Mill} (h : KeepsUnblocks σ σ') {a b : TicketId}
    (hab : ReflTransGen (Unblocks σ') a b) : ReflTransGen (Unblocks σ) a b :=
  hab.lift id fun _ _ hstep => h.unblocks hstep

/-! ## What happens to a ticket -/

/-- The ticket is as before. -/
def AsBefore (σ σ' : Mill) (k : Key) : Prop :=
  σ'.records.get k = σ.records.get k ∧ σ'.workspaces k = σ.workspaces k

/-- The archive purge has deleted the ticket. -/
structure PurgedFrom (env : Env) (svc : BoardId) (σ σ' : Mill) (k : Key) : Prop where
  enabled : 0 < env.settings.maxArchivedTickets
  board : k.1 = svc
  archived : ∃ r, σ.records.get k = some r ∧ r.ticket.state ∈ ARCHIVABLE_STATES
  record : σ'.records.get k = none
  workspace : σ'.workspaces k = none

/-- A ticket not mentioned is as before or purged. -/
def Spared (env : Env) (svc : BoardId) (σ σ' : Mill) (k : Key) : Prop :=
  AsBefore σ σ' k ∨ PurgedFrom env svc σ σ' k

variable {env : Env} {svc : BoardId} {σ σ₁ σ₂ σ' : Mill} {k : Key} {r : TicketRecord}

theorem AsBefore.refl (σ : Mill) (k : Key) : AsBefore σ σ k := ⟨rfl, rfl⟩

theorem Spared.trans (h : Spared env svc σ σ₁ k) (h' : Spared env svc σ₁ σ₂ k) : Spared env svc σ σ₂ k := by
  -- a deleted ticket does not come back, and one deleted later was archived all along
  rcases h with ⟨hrecord, hworkspace⟩ | hpurged
  · rcases h' with ⟨hrecord', hworkspace'⟩ | hpurged
    · exact .inl ⟨hrecord'.trans hrecord, hworkspace'.trans hworkspace⟩
    · exact .inr ⟨hpurged.enabled, hpurged.board, by rw [← hrecord]; exact hpurged.archived, hpurged.record,
        hpurged.workspace⟩
  · rcases h' with ⟨hrecord', hworkspace'⟩ | hpurged'
    · exact .inr ⟨hpurged.enabled, hpurged.board, hpurged.archived, hrecord'.trans hpurged.record,
        hworkspace'.trans hpurged.workspace⟩
    · exact .inr ⟨hpurged.enabled, hpurged.board, hpurged.archived, hpurged'.record, hpurged'.workspace⟩

/-- What is still there is as before. -/
theorem Spared.record_eq (h : Spared env svc σ σ' k) (hget : σ'.records.get k = some r) :
    σ.records.get k = some r := by
  rcases h with ⟨hrecord, -⟩ | hpurged
  · rw [← hrecord]
    exact hget
  · rw [hpurged.record] at hget
    cases hget

theorem spared_afterCommit (σ : Mill) (k : Key) : Spared env svc σ (afterCommit env svc σ).1 k := by
  unfold afterCommit
  by_cases hmax : 0 < env.settings.maxArchivedTickets
  · by_cases hsvc : svc = ""
    · -- an unbound service has no archive to purge
      have herror : maybePurgeArchived env svc σ = .error (.valueError "db._db_path: board_id is required") := by
        unfold maybePurgeArchived
        dsimp only
        rw [if_neg hmax.ne', if_pos hsvc]
      rw [herror]
      exact .inl (.refl σ k)
    · rw [maybePurgeArchived_eq hsvc hmax]
      have hrecord := records_foldl_delete ((purgeTargets env svc σ).map Prod.fst) σ k
      have hworkspace := workspaces_foldl_delete ((purgeTargets env svc σ).map Prod.fst) σ k
      by_cases hk : k ∈ (purgeTargets env svc σ).map Prod.fst
      · rw [if_pos hk] at hrecord hworkspace
        obtain ⟨row, hrow, rfl⟩ := List.mem_map.1 hk
        obtain ⟨hget, hboard, hstate⟩ := mem_archivedRows.1 (mem_archivedRows_of_mem_purgeTargets hrow).1
        exact .inr ⟨hmax, hboard, ⟨row.2, hget, hstate⟩, hrecord, hworkspace⟩
      · rw [if_neg hk] at hrecord hworkspace
        exact .inl ⟨hrecord, hworkspace⟩
  · have hdisabled : maybePurgeArchived env svc σ = .ok σ := by
      unfold maybePurgeArchived
      dsimp only
      rw [if_pos (by omega)]
    rw [hdisabled]
    exact .inl (.refl σ k)

theorem asBefore_commitTransition {dst : State} {note reason : Option String} {k' : Key} (hne : k' ≠ k) :
    AsBefore σ (commitTransition env k r dst note reason σ) k' := by
  constructor
  · rw [records_commitTransition, Table.get_put_ne _ _ hne]
  · unfold commitTransition
    dsimp only
    split
    · exact Function.update_of_ne hne ..
    · rfl

/-! ## One session -/

/-- The session has committed the move of the record `r` under `k`. -/
structure Committed (env : Env) (svc : BoardId) (tid : TicketId) (dst : State) (σ : Mill) (k : Key) (r : TicketRecord)
    (σ₁ : Mill) (res : Except ServiceError (List TicketId)) : Prop where
  fetched : fetch env svc σ tid = .ok (k, r)
  admitted : transitionRefusal tid dst r = none
  moved : movedKeys env svc tid dst σ = [k]
  others : ∀ k', k' ≠ k → Spared env svc σ σ₁ k'
  /-- The ticket is in its new state, unless it is purged on the spot. -/
  own : ∀ r', σ₁.records.get k = some r' →
    ∃ note reason, r' = transitionRecord k.2 (σ.now env) dst note reason r
  fired : firedBy res = [] ∨ firedBy res = firedTargets r dst

/-- The session has left everything as it was. -/
structure LeftAlone (env : Env) (svc : BoardId) (tid : TicketId) (dst : State) (σ σ₁ : Mill)
    (res : Except ServiceError (List TicketId)) : Prop where
  store : σ₁ = σ
  moved : movedKeys env svc tid dst σ = []
  fired : firedBy res = []

variable {tid : TicketId} {dst : State} {note reason : Option String} {res : Except ServiceError (List TicketId)}

theorem leftAlone_of_refusal {e : ServiceError} (hf : fetch env svc σ tid = .ok (k, r))
    (hr : transitionRefusal tid dst r = some e)
    (hsession : transitionSession env svc tid dst note reason σ = (σ₁, res)) :
    LeftAlone env svc tid dst σ σ₁ res := by
  unfold transitionSession at hsession
  rw [hf] at hsession
  dsimp only at hsession
  by_cases hn : transitionNoop r.ticket dst = true
  · rw [if_pos hn] at hsession
    obtain ⟨rfl, rfl⟩ := Prod.mk.inj hsession
    refine ⟨rfl, ?_, rfl⟩
    simp only [movedKeys, hf, hn, if_true]
  · rw [if_neg hn, hr] at hsession
    obtain ⟨rfl, rfl⟩ := Prod.mk.inj hsession
    refine ⟨rfl, ?_, rfl⟩
    simp only [movedKeys, hf, hn, hr, Option.isNone_some, Bool.false_eq_true, if_false]

theorem committed_of_admitted (hf : fetch env svc σ tid = .ok (k, r)) (hn : transitionNoop r.ticket dst = false)
    (hr : transitionRefusal tid dst r = none)
    (hsession : transitionSession env svc tid dst note reason σ = (σ₁, res)) :
    Committed env svc tid dst σ k r σ₁ res := by
  have hmoved : movedKeys env svc tid dst σ = [k] := by
    simp only [movedKeys, hf, hn, hr, Option.isNone_none, Bool.false_eq_true, if_false, if_true]
  have hcommit := @records_commitTransition env k r dst note reason σ
  have hself : ∀ r', (commitTransition env k r dst note reason σ).records.get k = some r' →
      ∃ note reason, r' = transitionRecord k.2 (σ.now env) dst note reason r := by
    intro r' hget
    rw [hcommit, Table.get_put_self] at hget
    exact ⟨note, reason, (Option.some.inj hget).symm⟩
  unfold transitionSession at hsession
  rw [hf] at hsession
  dsimp only at hsession
  rw [hn, if_neg Bool.false_ne_true, hr] at hsession
  dsimp only at hsession
  by_cases ha : dst ∈ ARCHIVABLE_STATES
  · rw [if_pos ha] at hsession
    have hspared := @spared_afterCommit env svc (commitTransition env k r dst note reason σ)
    -- the purge comes behind the commit, and may raise
    have hstore : σ₁ = (afterCommit env svc (commitTransition env k r dst note reason σ)).1 ∧
        (firedBy res = [] ∨ firedBy res = firedTargets r dst) := by
      cases hpurge : afterCommit env svc (commitTransition env k r dst note reason σ) with
      | mk σ₂ outcome =>
        rw [hpurge] at hsession
        cases outcome with
        | error e =>
          obtain ⟨rfl, rfl⟩ := Prod.mk.inj hsession
          exact ⟨rfl, .inl rfl⟩
        | ok _ =>
          obtain ⟨rfl, rfl⟩ := Prod.mk.inj hsession
          exact ⟨rfl, .inr rfl⟩
    obtain ⟨rfl, hfired⟩ := hstore
    refine ⟨hf, hr, hmoved, ?_, ?_, hfired⟩
    · exact fun k' hne => .trans (.inl (asBefore_commitTransition hne)) (hspared k')
    · exact fun r' hget => hself r' ((hspared k).record_eq hget)
  · rw [if_neg ha] at hsession
    obtain ⟨rfl, rfl⟩ := Prod.mk.inj hsession
    exact ⟨hf, hr, hmoved, fun k' hne => .inl (asBefore_commitTransition hne), hself, .inr rfl⟩

/-- **A session** commits one move or does nothing. -/
theorem session_cases (hsession : transitionSession env svc tid dst note reason σ = (σ₁, res)) :
    LeftAlone env svc tid dst σ σ₁ res ∨ ∃ k r, Committed env svc tid dst σ k r σ₁ res := by
  cases hf : fetch env svc σ tid with
  | error e =>
    unfold transitionSession at hsession
    rw [hf] at hsession
    obtain ⟨rfl, rfl⟩ := Prod.mk.inj hsession
    exact .inl ⟨rfl, by simp only [movedKeys, hf], rfl⟩
  | ok found =>
    obtain ⟨k, r⟩ := found
    cases hr : transitionRefusal tid dst r with
    | some e => exact .inl (leftAlone_of_refusal hf hr hsession)
    | none =>
      cases hn : transitionNoop r.ticket dst with
      | false => exact .inr ⟨k, r, committed_of_admitted hf hn hr hsession⟩
      | true =>
        unfold transitionSession at hsession
        rw [hf] at hsession
        dsimp only at hsession
        rw [hn, if_pos rfl] at hsession
        obtain ⟨rfl, rfl⟩ := Prod.mk.inj hsession
        exact .inl ⟨rfl, by simp only [movedKeys, hf, hn, if_true], rfl⟩

theorem transitionNoop_blocked (hblocked : r.ticket.state = .blocked) : transitionNoop r.ticket dst = false := by
  rw [transitionNoop, hblocked]
  cases dst <;> rfl

/-- A session that fires has moved its ticket to a completion. -/
theorem Committed.mem_trigger (h : Committed env svc tid dst σ k r σ₁ res) (hfired : firedBy res ≠ []) :
    dst ∈ UNBLOCK_TRIGGER_STATES := by
  rcases h.fired with hnone | htargets
  · exact absurd hnone hfired
  · by_contra hdst
    rw [firedTargets, if_neg hdst] at htargets
    exact hfired htargets

theorem Committed.unblocks (h : Committed env svc tid dst σ k r σ₁ res) {t : TicketId} (ht : t ∈ firedBy res) :
    Unblocks σ tid t := by
  obtain ⟨hkey, hget⟩ := get_of_fetch h.fetched
  refine ⟨k, r, hget, hkey, ?_⟩
  rcases h.fired with hnone | htargets
  · rw [hnone] at ht
    cases ht
  · rw [htargets] at ht
    unfold firedTargets at ht
    split at ht
    · exact ht
    · cases ht

/-! ## A part of the cascade -/

/-- What a part of the cascade that moves `moves` does to the store. -/
structure Advances (env : Env) (svc : BoardId) (σ : Mill) (moves : List Key) (σ' : Mill) : Prop where
  others : ∀ k, k ∉ moves → Spared env svc σ σ' k
  blocked : ∀ k ∈ moves, ∃ r, σ.records.get k = some r ∧ r.ticket.state = .blocked
  rows : KeepsUnblocks σ σ'
  /-- Only a ticket blocked from `blocked` is moved back into it. -/
  leaves : ∀ k ∈ moves, ∀ r r', σ.records.get k = some r → σ'.records.get k = some r' → r'.ticket.state = .blocked →
    r.ticket.blockedFrom = some .blocked ∧ r'.ticket.blockedFrom = some .blocked
  once : ∀ k, (∀ r, σ.records.get k = some r → r.ticket.state = .blocked → r.ticket.blockedFrom ≠ some .blocked) →
    moves.count k ≤ 1

theorem Advances.refl (σ : Mill) : Advances env svc σ [] σ where
  others k _ := .inl (.refl σ k)
  blocked k hk := by cases hk
  rows k r' hget := ⟨r', hget, rfl⟩
  leaves k hk := by cases hk
  once k _ := Nat.zero_le 1

theorem Advances.trans {moves moves' : List Key} (h : Advances env svc σ moves σ₁)
    (h' : Advances env svc σ₁ moves' σ₂) : Advances env svc σ (moves ++ moves') σ₂ where
  others k hk := by
    rw [List.mem_append, not_or] at hk
    exact (h.others k hk.1).trans (h'.others k hk.2)
  blocked k hk := by
    by_cases hmoved : k ∈ moves
    · exact h.blocked k hmoved
    · obtain ⟨r, hget, hstate⟩ := h'.blocked k ((List.mem_append.1 hk).resolve_left hmoved)
      exact ⟨r, (h.others k hmoved).record_eq hget, hstate⟩
  rows k r₂ hget₂ := by
    obtain ⟨r₁, hget₁, heq₁⟩ := h'.rows k r₂ hget₂
    obtain ⟨r, hget, heq⟩ := h.rows k r₁ hget₁
    exact ⟨r, hget, heq₁.trans heq⟩
  leaves k hk r r₂ hget hget₂ hstate := by
    obtain ⟨r₁, hget₁, -⟩ := h'.rows k r₂ hget₂
    -- the ticket was blocked in between, too
    have hbetween : r₁.ticket.state = .blocked ∧
        (r₂ = r₁ ∨ r₁.ticket.blockedFrom = some .blocked ∧ r₂.ticket.blockedFrom = some .blocked) := by
      by_cases hmoved' : k ∈ moves'
      · obtain ⟨r₁', hget₁', hstate₁⟩ := h'.blocked k hmoved'
        obtain rfl := Option.some.inj (hget₁.symm.trans hget₁')
        exact ⟨hstate₁, .inr (h'.leaves k hmoved' r₁ r₂ hget₁ hget₂ hstate)⟩
      · obtain rfl := Option.some.inj (hget₁.symm.trans ((h'.others k hmoved').record_eq hget₂))
        exact ⟨hstate, .inl rfl⟩
    by_cases hmoved : k ∈ moves
    · obtain ⟨hfrom, hfrom₁⟩ := h.leaves k hmoved r r₁ hget hget₁ hbetween.1
      rcases hbetween.2 with rfl | hfrom₂
      · exact ⟨hfrom, hfrom₁⟩
      · exact ⟨hfrom, hfrom₂.2⟩
    · obtain rfl := Option.some.inj (hget.symm.trans ((h.others k hmoved).record_eq hget₁))
      have hmoved' := (List.mem_append.1 hk).resolve_left hmoved
      exact h'.leaves k hmoved' r r₂ hget₁ hget₂ hstate
  once k hfrom := by
    rw [List.count_append]
    by_cases hmoved : k ∈ moves
    · -- moved once, it is not blocked any more
      have hnot : k ∉ moves' := by
        intro hmoved'
        obtain ⟨r₁, hget₁, hstate⟩ := h'.blocked k hmoved'
        obtain ⟨r, hget, hstate₀⟩ := h.blocked k hmoved
        exact hfrom r hget hstate₀ (h.leaves k hmoved r r₁ hget hget₁ hstate).1
      rw [List.count_eq_zero_of_not_mem hnot]
      exact h.once k hfrom
    · rw [List.count_eq_zero_of_not_mem hmoved, Nat.zero_add]
      exact h'.once k fun r hget => hfrom r ((h.others k hmoved).record_eq hget)

theorem Committed.rows (h : Committed env svc tid dst σ k r σ₁ res) : KeepsUnblocks σ σ₁ := by
  intro k' r' hget'
  by_cases hk' : k' = k
  · subst hk'
    obtain ⟨note, reason, rfl⟩ := h.own r' hget'
    exact ⟨r, (get_of_fetch h.fetched).2, rfl⟩
  · exact ⟨r', (h.others k' hk').record_eq hget', rfl⟩

/-- The session of a blocked target. -/
theorem Committed.advances (h : Committed env svc tid (unblockDst r.ticket) σ k r σ₁ res)
    (hblocked : r.ticket.state = .blocked) : Advances env svc σ [k] σ₁ := by
  have hget := (get_of_fetch h.fetched).2
  refine ⟨?_, ?_, h.rows, ?_, ?_⟩
  · exact fun k' hk' => h.others k' fun heq => hk' (List.mem_singleton.2 heq)
  · intro k' hk'
    obtain rfl := List.mem_singleton.1 hk'
    exact ⟨r, hget, hblocked⟩
  · intro k' hk' r₀ r' hget₀ hget' hstate
    obtain rfl := List.mem_singleton.1 hk'
    obtain rfl := Option.some.inj (hget.symm.trans hget₀)
    obtain ⟨note, reason, rfl⟩ := h.own r' hget'
    have hdst : unblockDst r.ticket = .blocked := hstate
    constructor
    · rw [unblockDst_eq] at hdst
      cases hfrom : r.ticket.blockedFrom with
      | none =>
        rw [hfrom] at hdst
        cases hdst
      | some s =>
        rw [hfrom] at hdst
        exact congrArg some hdst
    · show (if unblockDst r.ticket = .blocked then some r.ticket.state else _) = some State.blocked
      rw [if_pos hdst, hblocked]
  · intro k' _
    exact (List.count_le_length).trans (Nat.le_refl 1)

/-- **The cascade advances the store.** -/
theorem Fires.advances {solver : TicketId} {targets : List TicketId} {moves : List Key}
    (h : Fires env svc solver targets σ moves σ') : Advances env svc σ moves σ' := by
  induction h with
  | done => exact .refl _
  | skipped hskip hrest ih => exact ih
  | tried hget hblocked hsession hnested hrest ihNested ihRest =>
    rcases session_cases hsession with halone | ⟨k, r, hcommitted⟩
    · rw [halone.moved]
      obtain rfl := halone.store
      exact ihNested.trans ihRest
    · obtain ⟨rfl, rfl⟩ := Prod.mk.inj (Except.ok.inj ((fetch_of_get hget).symm.trans hcommitted.fetched))
      rw [hcommitted.moved]
      exact (hcommitted.advances hblocked).trans (ihNested.trans ihRest)

/-! ## What the cascade reaches -/

/-- **Only tickets within reach of a target are moved.** -/
theorem Fires.reaches {solver : TicketId} {targets : List TicketId} {moves : List Key}
    (h : Fires env svc solver targets σ moves σ') :
    ∀ k ∈ moves, ∃ t ∈ targets, ReflTransGen (Unblocks σ) t k.2 := by
  induction h with
  | done =>
    intro k hk
    cases hk
  | skipped hskip hrest ih =>
    intro k hk
    obtain ⟨t, ht, hreach⟩ := ih k hk
    exact ⟨t, List.mem_cons_of_mem _ ht, hreach⟩
  | @tried solver tid rest σ σ₁ σ₂ σ₃ k r res inner outer hget hblocked hsession hnested hrest ihNested ihRest =>
    -- the store of the solver lists all that later stores list
    have hadvances : ∃ moved, Advances env svc σ moved σ₁ ∧
        (∀ k' ∈ movedKeys env svc tid (unblockDst r.ticket) σ, k'.2 = tid) ∧ ∀ t ∈ firedBy res, Unblocks σ tid t := by
      rcases session_cases hsession with halone | ⟨k', r', hcommitted⟩
      · obtain rfl := halone.store
        rw [halone.moved, halone.fired]
        exact ⟨[], .refl _, List.forall_mem_nil _, List.forall_mem_nil _⟩
      · obtain ⟨rfl, rfl⟩ := Prod.mk.inj (Except.ok.inj ((fetch_of_get hget).symm.trans hcommitted.fetched))
        refine ⟨[k], hcommitted.advances hblocked, ?_, fun t ht => hcommitted.unblocks ht⟩
        rw [hcommitted.moved]
        intro k' hk'
        rw [List.mem_singleton.1 hk']
        exact (get_of_fetch hcommitted.fetched).1
    obtain ⟨moved, hadvances, hown, hfired⟩ := hadvances
    intro k' hk'
    rcases List.mem_append.1 hk' with hk' | hk'
    · exact ⟨tid, List.mem_cons_self, by rw [hown k' hk']⟩
    rcases List.mem_append.1 hk' with hk' | hk'
    · obtain ⟨t, ht, hreach⟩ := ihNested k' hk'
      exact ⟨tid, List.mem_cons_self, .head (hfired t ht) (hadvances.rows.reach hreach)⟩
    · obtain ⟨t, ht, hreach⟩ := ihRest k' hk'
      exact ⟨t, List.mem_cons_of_mem _ ht, (hadvances.trans hnested.advances).rows.reach hreach⟩

/-! ## The recursion ends -/

theorem Fires.unique {solver : TicketId} {targets : List TicketId} {moves moves' : List Key}
    (h : Fires env svc solver targets σ moves σ₁) (h' : Fires env svc solver targets σ moves' σ₂) :
    moves' = moves ∧ σ₂ = σ₁ := by
  induction h generalizing moves' σ₂ with
  | done =>
    cases h'
    exact ⟨rfl, rfl⟩
  | skipped hskip hrest ih =>
    cases h' with
    | skipped _ hrest' => exact ih hrest'
    | tried hget hblocked => exact absurd hblocked (hskip _ _ hget)
  | tried hget hblocked hsession hnested hrest ihNested ihRest =>
    cases h' with
    | skipped hskip => exact absurd hblocked (hskip _ _ hget)
    | tried hget' hblocked' hsession' hnested' hrest' =>
      obtain ⟨rfl, rfl⟩ := Prod.mk.inj (Option.some.inj (hget.symm.trans hget'))
      obtain ⟨rfl, rfl⟩ := Prod.mk.inj (hsession.symm.trans hsession')
      obtain ⟨rfl, rfl⟩ := ihNested hnested'
      obtain ⟨rfl, rfl⟩ := ihRest hrest'
      exact ⟨rfl, rfl⟩

theorem count_foldl_erase_le (p : TicketRecord → Bool) (ds : List Key) (T : Table Key TicketRecord) :
    (ds.foldl Table.erase T).count p ≤ T.count p := by
  induction ds generalizing T with
  | nil => exact Nat.le_refl _
  | cons d ds ih =>
    have herase := @Table.count_erase _ _ _ p T d
    have hrest := ih (T.erase d)
    rw [List.foldl_cons]
    omega

/-- The session of a blocked target leaves no more tickets blocked, and fewer if it fires any further. -/
theorem blockedCount_session (hget : get env svc σ tid = some (k, r)) (hblocked : r.ticket.state = .blocked)
    (hsession : transitionSession env svc tid (unblockDst r.ticket) note none σ = (σ₁, res)) :
    σ₁.blockedCount ≤ σ.blockedCount ∧ (firedBy res ≠ [] → σ₁.blockedCount < σ.blockedCount) := by
  rcases session_cases hsession with halone | ⟨k', r', hcommitted⟩
  · obtain rfl := halone.store
    exact ⟨Nat.le_refl _, fun hfired => absurd halone.fired hfired⟩
  · obtain ⟨rfl, rfl⟩ := Prod.mk.inj (Except.ok.inj ((fetch_of_get hget).symm.trans hcommitted.fetched))
    have hrow := (get_of_fetch hcommitted.fetched).2
    obtain ⟨ds, hds⟩ := @transitionSession_of_allowed env svc tid (unblockDst r.ticket) note none σ k r
      hcommitted.fetched (transitionNoop_blocked hblocked) hcommitted.admitted
    rw [hsession] at hds
    have hput := @Table.count_put _ _ _ (fun r : TicketRecord => decide (r.ticket.state = .blocked)) σ.records k
      (transitionRecord tid (σ.now env) (unblockDst r.ticket) note none r)
    have hle := count_foldl_erase_le (fun r : TicketRecord => decide (r.ticket.state = .blocked)) ds
      (σ.records.put k (transitionRecord tid (σ.now env) (unblockDst r.ticket) note none r))
    have hstate : (transitionRecord tid (σ.now env) (unblockDst r.ticket) note none r).ticket.state =
        unblockDst r.ticket := rfl
    rw [hrow, Table.tally_some, Table.tally_some, hstate, hblocked, decide_eq_true rfl, if_pos rfl] at hput
    unfold Mill.blockedCount
    rw [hds]
    constructor
    · split at hput <;> omega
    · intro hfired
      have hdst : unblockDst r.ticket ≠ .blocked := by
        intro heq
        have htrigger := hcommitted.mem_trigger hfired
        rw [heq] at htrigger
        exact absurd htrigger (by decide)
      rw [decide_eq_false hdst, if_neg Bool.false_ne_true] at hput
      omega

theorem Fires.blockedCount_le {solver : TicketId} {targets : List TicketId} {moves : List Key}
    (h : Fires env svc solver targets σ moves σ') : σ'.blockedCount ≤ σ.blockedCount := by
  induction h with
  | done => exact Nat.le_refl _
  | skipped hskip hrest ih => exact ih
  | tried hget hblocked hsession hnested hrest ihNested ihRest =>
    have hle := (blockedCount_session hget hblocked hsession).1
    omega

theorem unblockSession_blocked {solver : TicketId} (hget : get env svc σ tid = some (k, r))
    (hblocked : r.ticket.state = .blocked)
    (hsession : transitionSession env svc tid (unblockDst r.ticket) (some (unblockNote solver)) none σ = (σ₁, res)) :
    unblockSession env svc solver tid σ = (σ₁, firedBy res) := by
  unfold unblockSession
  rw [hget]
  dsimp only
  rw [if_neg (by rw [hblocked]; exact fun hne => hne rfl), hsession]
  cases res <;> rfl

theorem unblockSession_skipped {solver : TicketId}
    (hskip : ∀ k r, get env svc σ tid = some (k, r) → r.ticket.state ≠ .blocked) :
    unblockSession env svc solver tid σ = (σ, []) := by
  unfold unblockSession
  cases hget : get env svc σ tid with
  | none => rfl
  | some found => exact if_pos (hskip found.1 found.2 hget)

/-- **The number of blocked tickets bounds the depth of the recursion.** -/
theorem fires_fireUnblocks (n : Nat) (solver : TicketId) (targets : List TicketId) (σ : Mill)
    (hn : σ.blockedCount ≤ n) :
    ∃ moves, Fires env svc solver targets σ moves (fireUnblocks env svc (n + 1) solver targets σ) := by
  induction n using Nat.strong_induction_on generalizing solver targets σ with
  | _ n ih =>
    rw [fireUnblocks_succ]
    induction targets generalizing σ with
    | nil => exact ⟨[], .done⟩
    | cons tid targets ihT =>
      rw [List.foldl_cons]
      by_cases hskip : ∀ k r, get env svc σ tid = some (k, r) → r.ticket.state ≠ .blocked
      · have hround : fireRound env svc n solver σ tid = σ := by
          unfold fireRound
          rw [unblockSession_skipped hskip, fireUnblocks_nil]
        rw [hround]
        obtain ⟨moves, hrest⟩ := ihT σ hn
        exact ⟨moves, .skipped hskip hrest⟩
      · push Not at hskip
        obtain ⟨k, r, hget, hblocked⟩ := hskip
        cases hsession : transitionSession env svc tid (unblockDst r.ticket) (some (unblockNote solver)) none σ with
        | mk σ₁ res =>
          obtain ⟨hle, hlt⟩ := blockedCount_session hget hblocked hsession
          have hround : fireRound env svc n solver σ tid = fireUnblocks env svc n tid (firedBy res) σ₁ := by
            unfold fireRound
            rw [unblockSession_blocked hget hblocked hsession]
          -- a session that fires has left one blocked ticket fewer
          have hnested : ∃ moves, Fires env svc tid (firedBy res) σ₁ moves (fireRound env svc n solver σ tid) := by
            rw [hround]
            by_cases hfired : firedBy res = []
            · rw [hfired, fireUnblocks_nil]
              exact ⟨[], .done⟩
            · have hless := hlt hfired
              obtain ⟨m, rfl⟩ : ∃ m, n = m + 1 := ⟨n - 1, by omega⟩
              exact ih m (Nat.lt_succ_self m) tid _ σ₁ (by omega)
          obtain ⟨inner, hnested⟩ := hnested
          have hround_le := hnested.blockedCount_le
          obtain ⟨outer, hrest⟩ := ihT (fireRound env svc n solver σ tid) (by omega)
          exact ⟨_, .tried hget hblocked hsession hnested hrest⟩

/-! ## Firing the solver again -/

theorem get_of_locate (hloc : locate env svc σ k.2 = some k.1) (hget : σ.records.get k = some r) :
    get env svc σ k.2 = some (k, r) := by
  unfold get
  rw [hloc, Option.bind_some, hget]
  rfl

/-- A ticket that is still there is found where it was. -/
theorem Advances.locate_eq {moves : List Key} (h : Advances env svc σ moves σ')
    (hloc : locate env svc σ k.2 = some k.1) (hget : σ'.records.get k = some r) :
    locate env svc σ' k.2 = some k.1 := by
  -- boards only lose tickets, so none in front of `k.1` has got one with this id
  have hkept : σ'.hasTicket k.1 k.2 = true := hasTicket_iff.2 ⟨r, hget⟩
  have himp : ∀ b, σ'.hasTicket b k.2 = true → σ.hasTicket b k.2 = true := by
    intro b hb
    obtain ⟨r', hget'⟩ := hasTicket_iff.1 hb
    obtain ⟨r₀, hget₀, -⟩ := h.rows _ r' hget'
    exact hasTicket_iff.2 ⟨r₀, hget₀⟩
  unfold locate at hloc ⊢
  by_cases hbound : svc ≠ "" ∧ σ.hasTicket svc k.2 = true
  · rw [if_pos hbound] at hloc
    obtain rfl := Option.some.inj hloc
    rw [if_pos ⟨hbound.1, hkept⟩]
  · rw [if_neg hbound] at hloc
    rw [if_neg fun hb => hbound ⟨hb.1, himp svc hb.2⟩]
    unfold collectCandidateBoards at hloc ⊢
    rw [find?_eraseDups, List.find?_append, Option.or_eq_some_iff] at hloc
    rw [find?_eraseDups, List.find?_append, Option.or_eq_some_iff]
    rcases hloc with hfound | ⟨hnone, hfound⟩
    · exact .inl (find?_of_imp himp hfound hkept)
    · refine .inr ⟨List.find?_eq_none.2 fun b hb hhas => List.find?_eq_none.1 hnone b hb (himp b hhas), ?_⟩
      have hrefl : ∀ a, env.dirLe a a = true := fun a => (env.dirLe_total a a).elim id id
      exact find?_of_sorted_imp hrefl env.dirLe_antisymm (boardDirs_sorted σ) (boardDirs_sorted σ')
        (fun b hb => ⟨himp b hb, mem_boardDirs_of_hasTicket (himp b hb)⟩) hfound
        (mem_boardDirs_of_hasTicket hkept) hkept

/-- A ticket that has stayed blocked has not been moved, unless it is blocked from `blocked`. -/
theorem Advances.still_blocked {moves : List Key} (h : Advances env svc σ moves σ')
    (hget : σ'.records.get k = some r) (hblocked : r.ticket.state = .blocked)
    (hfrom : r.ticket.blockedFrom ≠ some .blocked) : k ∉ moves ∧ σ.records.get k = some r := by
  have hnot : k ∉ moves := by
    intro hmoved
    obtain ⟨r₀, hget₀, -⟩ := h.rows k r hget
    exact hfrom (h.leaves k hmoved r₀ r hget₀ hget hblocked).2
  exact ⟨hnot, (h.others k hnot).record_eq hget⟩

/-- **A target that is still blocked was refused**, unless it is blocked from `blocked`. -/
theorem Fires.refused {solver : TicketId} {targets : List TicketId} {moves : List Key}
    (h : Fires env svc solver targets σ moves σ') (ht : k.2 ∈ targets) (hloc : locate env svc σ k.2 = some k.1)
    (hget : σ'.records.get k = some r) (hblocked : r.ticket.state = .blocked)
    (hfrom : r.ticket.blockedFrom ≠ some .blocked) : transitionRefusal k.2 (unblockDst r.ticket) r ≠ none := by
  induction h with
  | done => cases ht
  | @skipped solver tid rest σ σ' moves hskip hrest ih =>
    rcases List.mem_cons.1 ht with heq | ht
    · obtain ⟨-, hget₀⟩ := hrest.advances.still_blocked hget hblocked hfrom
      have hfound := get_of_locate hloc hget₀
      rw [heq] at hfound
      exact absurd hblocked (hskip k r hfound)
    · exact ih ht hloc hget
  | @tried solver tid rest σ σ₁ σ₂ σ₃ k' r' res inner outer hget' hblocked' hsession hnested hrest ihNested ihRest =>
    -- the round of `tid` by itself, for the store that the other targets find
    have hround : Fires env svc solver [tid] σ (movedKeys env svc tid (unblockDst r'.ticket) σ ++ (inner ++ [])) σ₂ :=
      .tried hget' hblocked' hsession hnested .done
    have hwhole := (Fires.tried hget' hblocked' hsession hnested hrest).advances
    obtain ⟨hnot, hget₀⟩ := hwhole.still_blocked hget hblocked hfrom
    rcases List.mem_cons.1 ht with heq | ht
    · have hfound := get_of_locate hloc hget₀
      rw [heq, hget'] at hfound
      obtain ⟨rfl, rfl⟩ := Prod.mk.inj (Option.some.inj hfound)
      -- an admitted session would have moved it
      intro hadmitted
      rw [heq] at hadmitted
      have hcommitted :=
        committed_of_admitted (fetch_of_get hget') (transitionNoop_blocked hblocked') hadmitted hsession
      rw [hcommitted.moved] at hnot
      exact hnot (List.mem_append_left _ List.mem_cons_self)
    · have hget₂ : ∃ r₂, σ₂.records.get k = some r₂ := by
        obtain ⟨r₂, hget₂, -⟩ := hrest.advances.rows k r hget
        exact ⟨r₂, hget₂⟩
      obtain ⟨r₂, hget₂⟩ := hget₂
      exact ihRest ht (hround.advances.locate_eq hloc hget₂) hget

/-- Nothing happens where every blocked target is refused. -/
theorem fires_of_refused {solver : TicketId} (targets : List TicketId)
    (h : ∀ b ∈ targets, ∀ k r, get env svc σ b = some (k, r) → r.ticket.state = .blocked →
      transitionRefusal b (unblockDst r.ticket) r ≠ none) : Fires env svc solver targets σ [] σ := by
  induction targets with
  | nil => exact .done
  | cons tid rest ih =>
    have hrest := ih fun b hb => h b (List.mem_cons_of_mem tid hb)
    by_cases hskip : ∀ k r, get env svc σ tid = some (k, r) → r.ticket.state ≠ .blocked
    · exact .skipped hskip hrest
    · push Not at hskip
      obtain ⟨k, r, hget, hblocked⟩ := hskip
      obtain ⟨e, hr⟩ := Option.ne_none_iff_exists'.1 (h tid List.mem_cons_self k r hget hblocked)
      cases hsession : transitionSession env svc tid (unblockDst r.ticket) (some (unblockNote solver)) none σ with
      | mk σ₁ res =>
        have halone := leftAlone_of_refusal (fetch_of_get hget) hr hsession
        obtain rfl := halone.store
        have hnested : Fires env svc tid (firedBy res) σ₁ [] σ₁ := by
          rw [halone.fired]
          exact .done
        have hround := Fires.tried hget hblocked hsession hnested hrest
        rw [halone.moved] at hround
        exact hround

/-! ## A transition with all it fires -/

/-- Ticket `k` is blocked, and blocked from `blocked`. -/
def BlockedFromBlocked (σ : Mill) (k : Key) : Prop :=
  ∃ r, σ.records.get k = some r ∧ r.ticket.state = .blocked ∧ r.ticket.blockedFrom = some .blocked

/-- In `σ₃` no target has been blocked anew since the cascade, which began in `σ₁` and ended in `σ₂`: one that is found
    blocked has the row the cascade left and was found on the same board before, and is not blocked from `blocked`. -/
def NoneBlockedAnew (env : Env) (svc : BoardId) (targets : List TicketId) (σ₁ σ₂ σ₃ : Mill) : Prop :=
  ∀ b ∈ targets, ∀ k r, get env svc σ₃ b = some (k, r) → r.ticket.state = .blocked →
    σ₂.records.get k = some r ∧ locate env svc σ₁ b = some k.1 ∧ r.ticket.blockedFrom ≠ some .blocked

theorem Fires.nil_inv {solver : TicketId} {moves : List Key} (h : Fires env svc solver [] σ moves σ') :
    moves = [] ∧ σ' = σ := h.unique .done |>.imp Eq.symm Eq.symm

theorem transitions_transition (tid : TicketId) (dst : State) (note reason : Option String) (σ : Mill) :
    ∃ moves, Transitions env svc tid dst note reason σ moves (transition env svc tid dst note reason σ).1 := by
  unfold Transitions transition
  cases transitionSession env svc tid dst note reason σ with
  | mk σ₁ res =>
    cases res with
    | error e => exact ⟨_, [], rfl, .done⟩
    | ok targets =>
      obtain ⟨inner, hfires⟩ := @fires_fireUnblocks env svc σ₁.blockedCount tid targets σ₁ (Nat.le_refl _)
      exact ⟨_, inner, rfl, hfires⟩

theorem Transitions.unique {moves moves' : List Key} (h : Transitions env svc tid dst note reason σ moves σ₁)
    (h' : Transitions env svc tid dst note reason σ moves' σ₂) : moves' = moves ∧ σ₂ = σ₁ := by
  obtain ⟨inner, rfl, hfires⟩ := h
  obtain ⟨inner', rfl, hfires'⟩ := h'
  obtain ⟨rfl, rfl⟩ := hfires.unique hfires'
  exact ⟨rfl, rfl⟩

theorem Transitions.once {moves : List Key} (h : Transitions env svc tid dst note reason σ moves σ') {k : Key}
    (hfrom : ¬ BlockedFromBlocked σ k) : moves.count k ≤ 1 := by
  obtain ⟨inner, rfl, hfires⟩ := h
  cases hsession : transitionSession env svc tid dst note reason σ with
  | mk σ₁ res =>
    rw [hsession] at hfires
    dsimp only at hfires
    rcases session_cases hsession with halone | ⟨k₀, r₀, hcommitted⟩
    · rw [halone.fired] at hfires
      rw [halone.moved, hfires.nil_inv.1]
      exact Nat.zero_le 1
    · rw [hcommitted.moved, List.count_append]
      by_cases hk : k = k₀
      · subst hk
        -- what fires is not blocked, so the solver is not moved again
        have hnot : k ∉ inner := by
          intro hmoved
          obtain ⟨r₁, hget₁, hstate⟩ := hfires.advances.blocked k hmoved
          obtain ⟨note', reason', rfl⟩ := hcommitted.own r₁ hget₁
          have hdst : dst = .blocked := hstate
          have hfired : firedBy res ≠ [] := by
            intro hnone
            rw [hnone] at hfires
            rw [hfires.nil_inv.1] at hmoved
            cases hmoved
          have htrigger := hcommitted.mem_trigger hfired
          rw [hdst] at htrigger
          exact absurd htrigger (by decide)
        rw [List.count_eq_zero_of_not_mem hnot]
        exact List.count_le_length
      · have hother : k ∉ [k₀] := fun hmem => hk (List.mem_singleton.1 hmem)
        rw [List.count_eq_zero_of_not_mem hother, Nat.zero_add]
        refine hfires.advances.once k fun r hget hstate hblocked => hfrom ⟨r, ?_, hstate, hblocked⟩
        exact (hcommitted.others k hk).record_eq hget

theorem Transitions.spares {moves : List Key} (h : Transitions env svc tid dst note reason σ moves σ') {k : Key}
    (hreach : ¬ ReflTransGen (Unblocks σ) tid k.2) : k ∉ moves ∧ Spared env svc σ σ' k := by
  obtain ⟨inner, rfl, hfires⟩ := h
  cases hsession : transitionSession env svc tid dst note reason σ with
  | mk σ₁ res =>
    rw [hsession] at hfires
    dsimp only at hfires
    rcases session_cases hsession with halone | ⟨k₀, r₀, hcommitted⟩
    · rw [halone.fired] at hfires
      obtain ⟨rfl, rfl⟩ := hfires.nil_inv
      obtain rfl := halone.store
      rw [halone.moved]
      exact ⟨List.not_mem_nil, .inl (.refl _ k)⟩
    · -- the solver is within its own reach
      have hother : k ≠ k₀ := by
        rintro rfl
        rw [(get_of_fetch hcommitted.fetched).1] at hreach
        exact hreach .refl
      have hnot : k ∉ inner := by
        intro hmoved
        obtain ⟨t, ht, htrail⟩ := hfires.reaches k hmoved
        exact hreach (.head (hcommitted.unblocks ht) (hcommitted.rows.reach htrail))
      refine ⟨?_, (hcommitted.others k hother).trans (hfires.advances.others k hnot)⟩
      rw [hcommitted.moved, List.singleton_append, List.mem_cons, not_or]
      exact ⟨hother, hnot⟩

/-- **The unblock cascade** over any store: the recursion of `transition` and `_fire_unblocks` ends, in one way. It
    moves a ticket at most once, if that is not blocked from `blocked`; it does nothing to a ticket out of the solver's
    reach, but the purge may delete an archived one; and firing the solver again does nothing before a target is blocked
    anew. -/
theorem cascade_settles (env : Env) (svc : BoardId) (tid : TicketId) (dst : State) (note reason : Option String)
    (σ : Mill) :
    ∃ moves, Transitions env svc tid dst note reason σ moves (transition env svc tid dst note reason σ).1 ∧
      (∀ moves' σ', Transitions env svc tid dst note reason σ moves' σ' →
        moves' = moves ∧ σ' = (transition env svc tid dst note reason σ).1) ∧
      (∀ k, ¬ BlockedFromBlocked σ k → moves.count k ≤ 1) ∧
      (∀ k, ¬ ReflTransGen (Unblocks σ) tid k.2 →
        k ∉ moves ∧ Spared env svc σ (transition env svc tid dst note reason σ).1 k) ∧
      ∀ σ₁ targets, transitionSession env svc tid dst note reason σ = (σ₁, .ok targets) → ∀ σ₃,
        NoneBlockedAnew env svc targets σ₁ (transition env svc tid dst note reason σ).1 σ₃ →
        Fires env svc tid targets σ₃ [] σ₃ ∧ fireUnblocks env svc (σ₃.blockedCount + 1) tid targets σ₃ = σ₃ := by
  obtain ⟨moves, hmoves⟩ := @transitions_transition env svc tid dst note reason σ
  refine ⟨moves, hmoves, fun _ _ h => hmoves.unique h, fun _ => hmoves.once, fun _ => hmoves.spares, ?_⟩
  intro σ₁ targets hsession σ₃ hanew
  obtain ⟨inner, -, hfires⟩ := hmoves
  rw [hsession] at hfires
  have hagain : Fires env svc tid targets σ₃ [] σ₃ := by
    refine fires_of_refused targets fun b hb k r hget hblocked => ?_
    obtain ⟨hleft, hloc, hfrom⟩ := hanew b hb k r hget hblocked
    obtain ⟨rfl, -⟩ := get_of_fetch (fetch_of_get hget)
    exact hfires.refused hb hloc hleft hblocked hfrom
  -- the recursion has one outcome, so the model's function finds the same
  obtain ⟨again, hfired⟩ := @fires_fireUnblocks env svc σ₃.blockedCount tid targets σ₃ (Nat.le_refl _)
  exact ⟨hagain, (hagain.unique hfired).2⟩

/-! ### What the purge and a ticket blocked from `blocked` do -/

/-- A row of a small store. -/
def cascadeRow (state : State) (createdAt : DateTime) (blockedFrom : Option State) (unblocks : List TicketId) :
    TicketRecord :=
  ⟨{ title := "", state := state, blockedFrom := blockedFrom, unblocks := some unblocks, createdAt := createdAt,
     updatedAt := createdAt }, [], []⟩

/-- The solver `s` lists `x`, which is closed on the board `mill` and blocked on the board `docs`, and `u`, blocked from
    `closed`. Nobody lists the closed ticket `y`. -/
def Mill.archiving : Mill where
  records := ((((Table.empty.put ("mill", "y") (cascadeRow .closed 1 none [])).put
    ("mill", "x") (cascadeRow .closed 2 none [])).put
    ("docs", "x") (cascadeRow .blocked 3 none [])).put
    ("mill", "u") (cascadeRow .blocked 4 (some .closed) [])).put
    ("mill", "s") (cascadeRow .humanMrApproval 5 none ["x", "u"])
  workspaces := fun _ => none
  ticks := 0

/-- The solver `s` lists `t`, which is blocked from `blocked`, and `u`, which lists it as well. -/
def Mill.selfBlocked : Mill where
  records := ((Table.empty.put ("mill", "t") (cascadeRow .blocked 1 (some .blocked) [])).put
    ("mill", "u") (cascadeRow .blocked 2 (some .done) ["t"])).put
    ("mill", "s") (cascadeRow .humanMrApproval 3 none ["t", "u"])
  workspaces := fun _ => none
  ticks := 0

theorem not_reach_archiving : ¬ ReflTransGen (Unblocks .archiving) "s" "y" := by
  have hlisted : ∀ a b, Unblocks .archiving a b → b ∈ ["x", "u"] := by
    rintro a b ⟨k, r, hget, -, hmem⟩
    have hall : (Mill.archiving.records.rows.all fun row =>
        (parseDependsOnStr row.2.ticket.unblocks).all fun t => decide (t ∈ ["x", "u"])) = true := rfl
    have hrow := List.all_eq_true.1 hall (k, r) (Table.mem_rows.2 hget)
    exact of_decide_eq_true (List.all_eq_true.1 hrow b hmem)
  intro hreach
  rcases hreach.cases_tail with heq | ⟨a, -, hstep⟩
  · exact absurd heq (by decide)
  · exact absurd (hlisted a "y" hstep) (by decide)

/-- The purge that the move of `u` sets off deletes `y`, which is out of reach, and the `x` that hides the other one:
    fired again, the solver moves that. And `t` is moved twice, and again. -/
theorem cascade_purges_and_repeats :
    (∃ moves σ', Transitions .cappedArchive "mill" "s" .done none none .archiving moves σ' ∧
      ¬ ReflTransGen (Unblocks .archiving) "s" "y" ∧
      σ'.records.get ("mill", "y") ≠ Mill.archiving.records.get ("mill", "y") ∧
      fireUnblocks .cappedArchive "mill" (σ'.blockedCount + 1) "s" ["x", "u"] σ' ≠ σ') ∧
    ∃ moves σ', Transitions .standalone "mill" "s" .done none none .selfBlocked moves σ' ∧
      moves.count ("mill", "t") = 2 ∧
      fireUnblocks .standalone "mill" (σ'.blockedCount + 1) "s" ["t", "u"] σ' ≠ σ' := by
  constructor
  · obtain ⟨moves, hmoves⟩ := @transitions_transition .cappedArchive "mill" "s" .done none none .archiving
    refine ⟨moves, _, hmoves, not_reach_archiving, by decide +kernel, fun heq => ?_⟩
    have hstate := congrArg (fun σ : Mill => (σ.records.get ("docs", "x")).map fun r => r.ticket.state) heq
    exact absurd hstate (by decide +kernel)
  · have hfires := @Fires.tried .standalone "mill" "s" "t" ["u"]
      (transitionSession .standalone "mill" "s" .done none none .selfBlocked).1 _ _ _ _ _ _ _ _ rfl rfl rfl .done
      (.tried rfl rfl rfl (.tried rfl rfl rfl .done .done) .done)
    refine ⟨_, _, ⟨_, rfl, hfires⟩, rfl, fun heq => ?_⟩
    have hevents := congrArg (fun σ : Mill => (σ.records.get ("mill", "t")).map fun r => r.events.length) heq
    exact absurd hevents (by decide +kernel)

end Service
end RobotsixMill
