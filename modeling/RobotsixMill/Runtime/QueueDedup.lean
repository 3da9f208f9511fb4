import RobotsixMill.Runtime.Worker
import Mathlib.Data.List.Nodup

/-!
# `Runtime.QueueDedup` — one queue entry a ticket

`Deduped`: over all queues a ticket has at most one entry, and a ticket with an entry is in `pending`, so
that `enqueue` adds no second one. An iteration that puts its own ticket back marks it as pending, and
then the `finally` clause every iteration ends with discards the mark again.

- `Deduped.enqueue`, `drain_deduped`, `admit_deduped`, `iteration_deduped` — all of the worker but the
  `finally` clause keeps `Deduped`.
- `deduped_iff` — one step keeps it exactly when its `finally` clause does not discard a queued ticket.
- `queue_dedup` — the same for runs.
-/

namespace RobotsixMill
namespace Runtime
open RobotsixMill.Core Lib

/-! ## The invariant -/

section Queues

variable {q : BoardId → List QueueItem} {p : TicketId → Bool} {b : BoardId} {t : TicketId}
  {item : QueueItem}

/-- The ticket ids on a board's queue. -/
def queuedIds (q : BoardId → List QueueItem) (b : BoardId) : List TicketId :=
  (q b).map QueueItem.ticketId

/-- The ticket has an entry. -/
def Queued (q : BoardId → List QueueItem) (t : TicketId) : Prop := ∃ b, t ∈ queuedIds q b

/-- At most one entry a ticket over all queues, and none that is not pending. -/
structure Deduped (q : BoardId → List QueueItem) (p : TicketId → Bool) : Prop where
  nodup : ∀ b, (queuedIds q b).Nodup
  one_board : ∀ b b' t, t ∈ queuedIds q b → t ∈ queuedIds q b' → b = b'
  pending : ∀ t, Queued q t → p t = true

theorem queuedIds_put (b' : BoardId) :
    queuedIds (Function.update q b (q b ++ [item])) b' =
      if b' = b then queuedIds q b ++ [item.ticketId] else queuedIds q b' := by
  unfold queuedIds
  by_cases hb : b' = b
  · subst hb
    simp
  · simp [hb]

theorem mem_queuedIds_put {b' : BoardId} :
    t ∈ queuedIds (Function.update q b (q b ++ [item])) b' ↔
      t ∈ queuedIds q b' ∨ (b' = b ∧ t = item.ticketId) := by
  rw [queuedIds_put]
  by_cases hb : b' = b
  · subst hb
    simp
  · simp [hb]

theorem queued_put : Queued (Function.update q b (q b ++ [item])) t ↔
    Queued q t ∨ t = item.ticketId := by
  unfold Queued
  simp only [mem_queuedIds_put]
  constructor
  · rintro ⟨b', h | ⟨-, h⟩⟩
    · exact .inl ⟨b', h⟩
    · exact .inr h
  · rintro (⟨b', h⟩ | h)
    · exact ⟨b', .inl h⟩
    · exact ⟨b, .inr ⟨rfl, h⟩⟩

/-- A new entry for a ticket without one. -/
theorem Deduped.put (h : Deduped q p) (hq : ¬ Queued q item.ticketId) :
    Deduped (Function.update q b (q b ++ [item])) (Function.update p item.ticketId true) where
  nodup := by
    intro b'
    rw [queuedIds_put]
    split
    · refine List.nodup_append.2 ⟨h.nodup b, List.nodup_singleton _, ?_⟩
      intro x hx y hy hxy
      rw [List.mem_singleton] at hy
      subst hy
      subst hxy
      exact hq ⟨b, hx⟩
    · exact h.nodup b'
  one_board := by
    intro b₁ b₂ t h₁ h₂
    rw [mem_queuedIds_put] at h₁ h₂
    rcases h₁ with h₁ | ⟨hb₁, rfl⟩
    · rcases h₂ with h₂ | ⟨-, rfl⟩
      · exact h.one_board b₁ b₂ t h₁ h₂
      · exact absurd ⟨b₁, h₁⟩ hq
    · rcases h₂ with h₂ | ⟨hb₂, -⟩
      · exact absurd ⟨b₂, h₂⟩ hq
      · exact hb₁.trans hb₂.symm
  pending := by
    intro t ht
    by_cases hti : t = item.ticketId
    · subst hti
      exact Function.update_self ..
    · rw [Function.update_of_ne hti]
      exact h.pending t ((queued_put.1 ht).resolve_right hti)

/-- What is popped was queued, and everything else still is. -/
theorem queued_pop {rest : List QueueItem} (h : Deduped q p)
    (hpop : popMin QueueItem.key (q b) = some (item, rest)) :
    Queued q item.ticketId ∧
      ∀ t, Queued (Function.update q b rest) t ↔ Queued q t ∧ t ≠ item.ticketId := by
  have hperm := (perm_of_popMin hpop).map QueueItem.ticketId
  have hnd : (item.ticketId :: rest.map QueueItem.ticketId).Nodup := hperm.nodup_iff.2 (h.nodup b)
  have hitem : item.ticketId ∈ queuedIds q b := hperm.mem_iff.1 List.mem_cons_self
  refine ⟨⟨b, hitem⟩, fun t => ⟨?_, ?_⟩⟩
  · rintro ⟨b', hmem⟩
    unfold queuedIds at hmem
    by_cases hb : b' = b
    · subst hb
      rw [Function.update_self] at hmem
      refine ⟨⟨b', hperm.mem_iff.1 (List.mem_cons_of_mem _ hmem)⟩, ?_⟩
      rintro rfl
      exact (List.nodup_cons.1 hnd).1 hmem
    · rw [Function.update_of_ne hb] at hmem
      refine ⟨⟨b', hmem⟩, ?_⟩
      rintro rfl
      exact hb (h.one_board b' b _ hmem hitem)
  · rintro ⟨⟨b', hmem⟩, hne⟩
    refine ⟨b', ?_⟩
    unfold queuedIds
    by_cases hb : b' = b
    · subst hb
      rw [Function.update_self]
      exact (List.mem_cons.1 (hperm.mem_iff.2 hmem)).resolve_left hne
    · rw [Function.update_of_ne hb]
      exact hmem

theorem Deduped.pop {rest : List QueueItem} (h : Deduped q p)
    (hpop : popMin QueueItem.key (q b) = some (item, rest)) :
    Deduped (Function.update q b rest) p where
  nodup := by
    intro b'
    unfold queuedIds
    by_cases hb : b' = b
    · subst hb
      rw [Function.update_self]
      have hperm := (perm_of_popMin hpop).map QueueItem.ticketId
      exact (List.nodup_cons.1 (hperm.nodup_iff.2 (h.nodup b'))).2
    · rw [Function.update_of_ne hb]
      exact h.nodup b'
  one_board := by
    have hsub : ∀ b' t, t ∈ queuedIds (Function.update q b rest) b' → t ∈ queuedIds q b' := by
      intro b' t ht
      unfold queuedIds at ht
      by_cases hb : b' = b
      · subst hb
        rw [Function.update_self] at ht
        exact ((perm_of_popMin hpop).map QueueItem.ticketId).mem_iff.1 (List.mem_cons_of_mem _ ht)
      · rwa [Function.update_of_ne hb] at ht
    intro b₁ b₂ t h₁ h₂
    exact h.one_board b₁ b₂ t (hsub b₁ t h₁) (hsub b₂ t h₂)
  pending := fun t ht => h.pending t (((queued_pop h hpop).2 t).1 ht).1

/-- Discarding the mark of a ticket without an entry. -/
theorem Deduped.discard (h : Deduped q p) (hq : ¬ Queued q t) :
    Deduped q (Function.update p t false) where
  nodup := h.nodup
  one_board := h.one_board
  pending := by
    intro t' ht'
    have hne : t' ≠ t := by
      rintro rfl
      exact hq ht'
    rw [Function.update_of_ne hne]
    exact h.pending t' ht'

end Queues

/-! ## What the parts of a step keep -/

/-- The invariant of a worker. -/
def Worker.Deduped (σ : Worker) : Prop := Runtime.Deduped σ.queues σ.pending

section Steps

variable {P : Pool} {σ : Worker} {tid : TicketId}

/-- `enqueue` adds an entry only for a ticket that is not pending, hence has none. -/
theorem Deduped.enqueue (h : σ.Deduped) (get : Except String (Option (BoardId × Ticket)))
    (tid : TicketId) : (σ.enqueue get tid).1.Deduped := by
  unfold Worker.enqueue
  by_cases hp : σ.pending tid = true
  · rw [if_pos hp]
    exact h
  · rw [if_neg hp]
    have hq : ¬ Queued σ.queues tid := fun hq => hp (h.pending tid hq)
    dsimp only
    cases get with
    | error e =>
        refine ⟨h.nodup, h.one_board, fun t ht => ?_⟩
        by_cases htt : t = tid
        · subst htt
          exact Function.update_self ..
        · show Function.update σ.pending tid true t = true
          rw [Function.update_of_ne htt]
          exact h.pending t ht
    | ok owner => exact h.put hq

theorem queued_enqueue {owner : Option (BoardId × Ticket)} (hp : σ.pending tid = false) :
    Queued (σ.enqueue (.ok owner) tid).1.queues tid := by
  unfold Worker.enqueue
  rw [hp]
  exact queued_put.2 (.inr rfl)

theorem queued_enqueue_error {e : String} {t : TicketId} :
    Queued (σ.enqueue (.error e) tid).1.queues t ↔ Queued σ.queues t := by
  unfold Worker.enqueue
  split <;> exact Iff.rfl

theorem Deduped.reconcile (h : σ.Deduped) (rows : List SweepRow) :
    (Runtime.reconcile rows σ).Deduped := by
  induction rows generalizing σ with
  | nil => exact h
  | cons row rows ih =>
      unfold Runtime.reconcile
      split
      · exact ih h
      · split
        · exact ih h
        · split
          · exact ih h
          · split
            · exact h
            · exact ih h
            · have henq := Deduped.enqueue h row.ctxGet row.ticketId
              split
              · rename_i σ' heq
                rw [heq] at henq
                exact ih henq
              · rename_i σ' heq
                rw [heq] at henq
                exact henq

/-- Putting back a ticket without an entry. -/
theorem Deduped.putBack (h : σ.Deduped) (hq : ¬ Queued σ.queues tid) (board : BoardId)
    (rank : Nat × Nat) : (σ.putBack board rank tid).Deduped :=
  Runtime.Deduped.put h hq

/-- The ticket an end of the drain loop is about. -/
def Worker.Drained.ticketId : Worker.Drained → TicketId
  | .raised tid => tid
  | .held h => h.ticketId

/-- The drain loop: the invariant holds, and the ticket in hand has no entry. -/
theorem drain_deduped {reads : Reads} {board : BoardId} {fuel n : Nat} {held : Worker.Held}
    {σ' : Worker} {d : Worker.Drained} (h : σ.Deduped) (hq : ¬ Queued σ.queues held.ticketId)
    (hd : Worker.drain reads board fuel n held σ = some (σ', d)) :
    σ'.Deduped ∧ ¬ Queued σ'.queues d.ticketId := by
  induction fuel generalizing n held σ with
  | zero => cases hd
  | succ fuel ih =>
      unfold Worker.drain at hd
      split at hd
      · cases hd
        exact ⟨h, hq⟩
      · split at hd
        · cases hd
          exact ⟨h, hq⟩
        · split at hd
          · cases hd
            exact ⟨h, hq⟩
          · -- a swap: put the ticket in hand back, take the head
            dsimp only at hd
            have hput := Deduped.putBack h hq board (σ.curRank held)
            split at hd
            · cases hd
            · rename_i item rest hpop
              have hpopped : Worker.Deduped
                  { σ.putBack board (σ.curRank held) held.ticketId with
                    queues := Function.update
                      (σ.putBack board (σ.curRank held) held.ticketId).queues board rest } :=
                Deduped.pop hput hpop
              have hnot : ¬ Queued (Function.update
                  (σ.putBack board (σ.curRank held) held.ticketId).queues board rest) item.ticketId := by
                intro hqi
                exact (((queued_pop hput hpop).2 _).1 hqi).2 rfl
              split at hd
              · cases hd
                exact ⟨hpopped, hnot⟩
              · exact ih hpopped hnot hd

/-- A step that goes on in good order: the invariant holds, and when the `finally` clause is next, its
    ticket has an entry exactly if `back`. -/
def Worker.Continuation.Sound (back : Prop) : Worker.Continuation → Prop
  | .waits σ' => σ'.Deduped ∧ ¬ back
  | .ends tid σ' => σ'.Deduped ∧ (Queued σ'.queues tid ↔ back)

theorem Worker.Continuation.Sound.congr {k : Worker.Continuation} {back back' : Prop}
    (h : k.Sound back) (hiff : back ↔ back') : k.Sound back' := by
  rwa [propext hiff] at h

/-- From the ticket in hand to the claim. -/
theorem admit_deduped {reads : Reads} {c : ConsumerId} {held : Worker.Held} (h : σ.Deduped)
    (hq : ¬ Queued σ.queues held.ticketId) : (Worker.admission P reads c held σ).Sound False := by
  have hend : Queued σ.queues held.ticketId ↔ False := iff_of_false hq not_false
  unfold Worker.admission
  dsimp only
  by_cases hdrain : (reads.drainActive && Worker.heavy held.before) = true
  · rw [if_pos hdrain]
    exact ⟨Deduped.putBack h hq _ _, not_false⟩
  · rw [if_neg hdrain]
    cases Worker.capFor reads held with
    | none =>
        dsimp only
        by_cases hf : σ.inFlight held.ticketId = true
        · rw [if_pos hf]
          exact ⟨h, hend⟩
        · rw [if_neg hf]
          exact ⟨h, not_false⟩
    | some m =>
        dsimp only
        cases reads.inflightPrs with
        | error e => exact ⟨h, hend⟩
        | ok k =>
            dsimp only
            by_cases hcap : m ≤ (k : Int)
            · rw [if_pos hcap]
              exact ⟨Runtime.Deduped.put h hq, not_false⟩
            · rw [if_neg hcap]
              by_cases hf : σ.inFlight held.ticketId = true
              · rw [if_pos hf]
                exact ⟨h, hend⟩
              · rw [if_neg hf]
                exact ⟨h, not_false⟩

/-- The stale-rank branch, with a re-enqueue that does not raise. -/
def RequeuesStale (P : Pool) (σ : Worker) (c : ConsumerId) (reads : Reads) : Prop :=
  ∃ item rest before owner,
    σ.phase c = .getting ∧
    popMin QueueItem.key (σ.queues (P.board c)) = some (item, rest) ∧
    reads.boardGet 0 item.ticketId = .ok before ∧
    σ.staleRank item before = true ∧
    reads.ctxGet item.ticketId = .ok owner

/-- **One iteration** up to its `finally` clause: the invariant holds, and the ticket has an entry again
    exactly in the stale-rank branch. -/
theorem iteration_deduped {fuel : Nat} {reads : Reads} {c : ConsumerId} {k : Worker.Continuation}
    (h : σ.Deduped) (hk : σ.iteration P fuel reads c = some k) : k.Sound (RequeuesStale P σ c reads) := by
  unfold Worker.iteration at hk
  split at hk
  case h_2 => cases hk
  case h_1 item rest hphase hpop =>
    have hpopped : Worker.Deduped { σ with queues := Function.update σ.queues (P.board c) rest } :=
      Deduped.pop h hpop
    have hnot : ¬ Queued (Function.update σ.queues (P.board c) rest) item.ticketId := by
      intro hqi
      exact (((queued_pop h hpop).2 _).1 hqi).2 rfl
    -- the branch is decided by what was popped and read
    have hreq : ∀ r, reads.boardGet 0 item.ticketId = r → (RequeuesStale P σ c reads ↔
        ∃ before owner, r = .ok before ∧ σ.staleRank item before = true ∧
          reads.ctxGet item.ticketId = .ok owner) := by
      rintro r rfl
      constructor
      · rintro ⟨item', rest', before', owner, -, hpop', hget', hstale, hctx⟩
        rw [hpop] at hpop'
        cases hpop'
        exact ⟨before', owner, hget', hstale, hctx⟩
      · rintro ⟨before, owner, hget, hstale, hctx⟩
        exact ⟨item, rest, before, owner, hphase, hpop, hget, hstale, hctx⟩
    dsimp only at hk
    cases hget : reads.boardGet 0 item.ticketId with
    | error e =>
        rw [hget] at hk
        cases hk
        refine ⟨hpopped, fun hq => absurd hq hnot, fun hs => ?_⟩
        obtain ⟨before, owner, hbad, -⟩ := (hreq _ hget).1 hs
        cases hbad
    | ok before =>
        rw [hget] at hk
        dsimp only at hk
        have hsame : Worker.staleRank { σ with queues := Function.update σ.queues (P.board c) rest }
            item before = σ.staleRank item before := rfl
        rw [hsame] at hk
        by_cases hstale : σ.staleRank item before = true
        · have hdisc : Worker.Deduped
              { σ with queues := Function.update σ.queues (P.board c) rest
                       pending := Function.update σ.pending item.ticketId false } :=
            Deduped.discard hpopped hnot
          rw [if_pos hstale] at hk
          cases hk
          refine ⟨Deduped.enqueue hdisc _ _, fun hq => (hreq _ hget).2 ?_, fun hs => ?_⟩
          · cases hctx : reads.ctxGet item.ticketId with
            | error e =>
                rw [hctx, queued_enqueue_error] at hq
                exact absurd hq hnot
            | ok owner => exact ⟨before, owner, rfl, hstale, rfl⟩
          · obtain ⟨_, owner, -, -, hctx⟩ := (hreq _ hget).1 hs
            rw [hctx]
            exact queued_enqueue (Function.update_self ..)
        · rw [if_neg hstale] at hk
          have hno : False ↔ RequeuesStale P σ c reads := by
            refine ⟨False.elim, fun hs => hstale ?_⟩
            obtain ⟨_, _, hok, hst, -⟩ := (hreq _ hget).1 hs
            cases hok
            exact hst
          split at hk
          · cases hk
          · rename_i σ₂ tid hdrain
            cases hk
            obtain ⟨hd, hq⟩ := drain_deduped hpopped hnot hdrain
            exact ⟨hd, fun hqt => absurd hqt hq, fun hs => (hno.2 hs).elim⟩
          · rename_i σ₂ held hdrain
            cases hk
            obtain ⟨hd, hq⟩ := drain_deduped hpopped hnot hdrain
            exact (admit_deduped hd hq).congr hno

/-! ## The `finally` clause -/

/-- It keeps the invariant unless its ticket has an entry. -/
theorem deduped_finallyClause (h : σ.Deduped) (claimed : Bool) :
    (σ.finallyClause tid claimed).Deduped ↔ ¬ Queued σ.queues tid := by
  constructor
  · intro hd hq
    have hp : Function.update σ.pending tid false tid = true := hd.pending tid hq
    rw [Function.update_self] at hp
    cases hp
  · intro hq
    exact Deduped.discard h hq

/-- A ticket that is queued and not pending gets a second entry. -/
theorem not_deduped_enqueue {owner : Option (BoardId × Ticket)} (hq : Queued σ.queues tid)
    (hp : σ.pending tid = false) : ¬ (σ.enqueue (.ok owner) tid).1.Deduped := by
  intro hd
  obtain ⟨b, hb⟩ := hq
  unfold Worker.enqueue at hd
  rw [hp] at hd
  simp only [Bool.false_eq_true, if_false] at hd
  unfold Worker.put at hd
  generalize (owner.map Prod.fst).getD Worker.DEFAULT_BOARD = board at hd
  have hnew := fun b' => @mem_queuedIds_put σ.queues board tid
    ⟨prioRank (owner.map Prod.snd), stageRank (owner.map Prod.snd), σ.enqueueSeq + 1, tid⟩ b'
  have hone := hd.one_board b board tid ((hnew b).2 (.inl hb)) ((hnew board).2 (.inr ⟨rfl, rfl⟩))
  subst hone
  have hnd := hd.nodup b
  dsimp only at hnd
  rw [queuedIds_put, if_pos rfl] at hnd
  exact (List.nodup_append.1 hnd).2.2 tid hb tid (List.mem_singleton.2 rfl) rfl

/-- The requeue at the end of the clause marks the ticket again and raises before it queues it. -/
def RemarksOnly (reads : Reads) (tid : TicketId) : Prop :=
  (∃ t, reads.boardGet 0 tid = .ok (some t) ∧ t.state ∉ MERGE_LANE_STATES ∧
    (STAGE_FOR_STATE t.state).isSome = true) ∧ ∃ e, reads.ctxGet tid = .error e

/-- The `finally` clause of the step discards a ticket that has an entry. -/
def DiscardsQueued (P : Pool) (σ : Worker) : WorkerAction → Prop
  | .enqueue _ _ => False
  | .sweep _ => False
  | .iterate c _ reads => RequeuesStale P σ c reads
  | .wake c => ∃ tid, σ.phase c = .sleeping tid ∧ Queued σ.queues tid
  | .finish c returned reads => ∃ tid lane, σ.phase c = .running tid lane ∧ Queued σ.queues tid ∧
      ¬ (returned = true ∧ lane = true ∧ RemarksOnly reads tid)

theorem deduped_requeueIfLeftLane {reads : Reads} {c : ConsumerId} (h : σ.Deduped) :
    (σ.requeueIfLeftLane reads c tid).Deduped := by
  unfold Worker.requeueIfLeftLane
  dsimp only
  split
  · exact h
  · exact h
  · split
    · have henq := Deduped.enqueue h (reads.ctxGet tid) tid
      split
      · rename_i σ' heq
        rw [heq] at henq
        exact henq
      · rename_i σ' heq
        rw [heq] at henq
        exact henq
    · exact h

/-- After a queued ticket was discarded only an `enqueue` that raises half-way repairs the invariant. -/
theorem deduped_requeueIfLeftLane_iff {reads : Reads} {c : ConsumerId} (hq : Queued σ.queues tid)
    (hp : σ.pending tid = false) (hnd : ∀ b, (queuedIds σ.queues b).Nodup)
    (hone : ∀ b b' t, t ∈ queuedIds σ.queues b → t ∈ queuedIds σ.queues b' → b = b')
    (hrest : ∀ t, t ≠ tid → Queued σ.queues t → σ.pending t = true) :
    (σ.requeueIfLeftLane reads c tid).Deduped ↔ RemarksOnly reads tid := by
  have hbad : ¬ σ.Deduped := by
    intro hd
    have := hd.pending tid hq
    rw [hp] at this
    cases this
  unfold Worker.requeueIfLeftLane RemarksOnly
  dsimp only
  cases hget : reads.boardGet 0 tid with
  | error e => exact iff_of_false hbad (by simp)
  | ok t? =>
      cases t? with
      | none => exact iff_of_false hbad (by simp)
      | some t =>
          dsimp only
          by_cases hleft : t.state ∉ MERGE_LANE_STATES ∧ (STAGE_FOR_STATE t.state).isSome = true
          · rw [if_pos hleft]
            cases hctx : reads.ctxGet tid with
            | error e =>
                refine iff_of_true ?_ ⟨⟨t, rfl, hleft⟩, e, rfl⟩
                have henq : σ.enqueue (.error e) tid =
                    ({ σ with pending := Function.update σ.pending tid true
                              enqueueSeq := σ.enqueueSeq + 1 }, false) := by
                  unfold Worker.enqueue
                  rw [hp]
                  rfl
                rw [henq]
                refine ⟨hnd, hone, fun t' ht' => ?_⟩
                show Function.update σ.pending tid true t' = true
                by_cases htt : t' = tid
                · rw [htt]
                  exact Function.update_self ..
                · rw [Function.update_of_ne htt]
                  exact hrest t' htt ht'
            | ok owner =>
                refine iff_of_false ?_ ?_
                · have hno := @not_deduped_enqueue σ tid owner hq hp
                  split
                  · rename_i σ' heq
                    rw [heq] at hno
                    exact hno
                  · rename_i σ' heq
                    rw [heq] at hno
                    exact hno
                · rintro ⟨-, e, he⟩
                  cases he
          · rw [if_neg hleft]
            refine iff_of_false hbad ?_
            rintro ⟨⟨t', ht', hl⟩, -⟩
            cases ht'
            exact hleft hl

/-- **One step** keeps the invariant exactly when its `finally` clause discards no queued ticket. -/
theorem deduped_iff {a : WorkerAction} {σ' : Worker} (h : σ.Deduped) (hrun : a.run P σ = some σ') :
    σ'.Deduped ↔ ¬ DiscardsQueued P σ a := by
  cases a with
  | enqueue tid get =>
      cases hrun
      exact iff_of_true (Deduped.enqueue h get tid) not_false
  | sweep rows =>
      cases hrun
      exact iff_of_true (Deduped.reconcile h rows) not_false
  | iterate c fuel reads =>
      simp only [WorkerAction.run] at hrun
      cases hk : σ.iteration P fuel reads c with
      | none =>
          rw [hk] at hrun
          cases hrun
      | some k =>
          rw [hk] at hrun
          have hs := iteration_deduped h hk
          cases k with
          | waits σ₁ =>
              cases hrun
              exact iff_of_true hs.1 hs.2
          | ends tid σ₁ =>
              cases hrun
              exact (deduped_finallyClause hs.1 false).trans (not_congr hs.2)
  | wake c =>
      simp only [WorkerAction.run] at hrun
      split at hrun
      · rename_i tid hphase
        cases hrun
        refine (deduped_finallyClause h false).trans (not_congr ⟨fun hq => ⟨tid, hphase, hq⟩, ?_⟩)
        rintro ⟨tid', hphase', hq⟩
        rw [hphase] at hphase'
        cases hphase'
        exact hq
      · cases hrun
  | finish c returned reads =>
      simp only [WorkerAction.run] at hrun
      split at hrun
      · rename_i tid lane hphase
        have hdisc : DiscardsQueued P σ (.finish c returned reads) ↔
            Queued σ.queues tid ∧ ¬ (returned = true ∧ lane = true ∧ RemarksOnly reads tid) := by
          constructor
          · rintro ⟨tid', lane', hphase', hq⟩
            rw [hphase] at hphase'
            cases hphase'
            exact hq
          · intro hq
            exact ⟨tid, lane, hphase, hq⟩
        rw [hdisc]
        by_cases hq : Queued σ.queues tid
        · -- the mark of the queued ticket is gone now
          have hrest : ∀ t, t ≠ tid → Queued σ.queues t → Function.update σ.pending tid false t = true := by
            intro t ht hqt
            rw [Function.update_of_ne ht]
            exact h.pending t hqt
          by_cases hlane : (returned && lane) = true
          · rw [if_pos hlane] at hrun
            cases hrun
            obtain ⟨hr, hl⟩ := Bool.and_eq_true_iff.1 hlane
            refine (@deduped_requeueIfLeftLane_iff
              { σ.finallyClause tid true with phase := Function.update σ.phase c .getting } tid reads c hq
              (Function.update_self ..) h.nodup h.one_board hrest).trans ?_
            constructor
            · rintro hre ⟨-, hno⟩
              exact hno ⟨hr, hl, hre⟩
            · intro hno
              by_contra hre
              exact hno ⟨hq, fun hall => hre hall.2.2⟩
          · rw [if_neg hlane] at hrun
            cases hrun
            refine iff_of_false ?_ ?_
            · exact fun hd => (deduped_finallyClause h true).1 hd hq
            · intro hno
              refine hno ⟨hq, ?_⟩
              rintro ⟨hr, hl, -⟩
              exact hlane (Bool.and_eq_true_iff.2 ⟨hr, hl⟩)
        · refine iff_of_true ?_ fun hd => hq hd.1
          have hf : Worker.Deduped
              { σ.finallyClause tid true with phase := Function.update σ.phase c .getting } :=
            (deduped_finallyClause h true).2 hq
          split at hrun
          · cases hrun
            exact deduped_requeueIfLeftLane hf
          · cases hrun
            exact hf
      · cases hrun

end Steps

/-! ## Runs -/

theorem deduped_start : Worker.start.Deduped where
  nodup := fun _ => List.nodup_nil
  one_board := by
    intro b b' t ht
    cases ht
  pending := by
    rintro t ⟨b, ht⟩
    cases ht

/-- **Queue de-duplication.** Along a run of the worker every ticket has at most one queue entry, and
    none without being pending, exactly when no `finally` clause on the way discards a ticket that is
    queued. -/
theorem queue_dedup {P : Pool} {as : List WorkerAction} {σ : Worker}
    (hrun : WorkerRun P .start as σ) :
    Run.Always (WorkerStep P) Worker.Deduped .start as ↔
      Run (Guarded (fun σ a => ¬ DiscardsQueued P σ a) (WorkerStep P)) .start as σ := by
  refine Run.always_iff_guarded ?_ ?_ hrun deduped_start
  · intro s a t t' h h'
    exact Option.some.inj (h.symm.trans h')
  · intro s a t hs hstep
    exact deduped_iff hs hstep

/-- A ticket that is worked on once: queued, claimed, finished. -/
def draftTicket : Ticket := { title := "ticket", state := .draft, createdAt := 0, updatedAt := 0 }

/-- One board, no gate. -/
def Pool.single : Pool := { board := fun _ => "board", gated := false }

/-- A database whose only ticket is `t`. -/
def Reads.of (t : Ticket) : Reads where
  ctxGet := fun _ => .ok (some ("board", t))
  boardGet := fun _ _ => .ok (some t)
  maxInflightPrs := fun _ => none
  drainActive := false
  inflightPrs := .ok 0

theorem queue_dedup_one_ticket : ∃ σ,
    WorkerRun .single .start
      [.enqueue "t-1" (.ok (some ("board", draftTicket))), .iterate 0 1 (.of draftTicket),
        .finish 0 true (.of draftTicket)] σ ∧
    Run.Always (WorkerStep .single) Worker.Deduped .start
      [.enqueue "t-1" (.ok (some ("board", draftTicket))), .iterate 0 1 (.of draftTicket),
        .finish 0 true (.of draftTicket)] := by
  have hrun : WorkerRun .single .start
      [.enqueue "t-1" (.ok (some ("board", draftTicket))), .iterate 0 1 (.of draftTicket),
        .finish 0 true (.of draftTicket)] _ :=
    .cons rfl (.cons rfl (.cons rfl (.nil _)))
  refine ⟨_, hrun, (queue_dedup hrun).2 ?_⟩
  refine .cons ⟨not_false, rfl⟩ (.cons ⟨?_, rfl⟩ (.cons ⟨?_, rfl⟩ (.nil _)))
  · rintro ⟨item, rest, before, owner, -, hpop, hget, hstale, -⟩
    cases hpop
    cases hget
    cases hstale
  · rintro ⟨tid, lane, -, ⟨b, hb⟩, -⟩
    by_cases hboard : b = "board"
    · subst hboard
      cases hb
    · simp [queuedIds, Worker.enqueue, Worker.put, Worker.start, Pool.single, hboard] at hb

/-- The ticket is refined while it is queued for `refine`; the pop-time check puts it back, the `finally`
    clause discards the mark, and the next sweep adds a second entry. -/
theorem queue_dedup_stale_rank :
    let ready := { draftTicket with state := .ready }
    let popped := (WorkerAction.enqueue "t-1" (.ok (some ("board", draftTicket)))).run .single .start
      |>.bind fun σ => (WorkerAction.iterate 0 1 (.of ready)).run .single σ
    let swept := popped.bind fun σ =>
      (WorkerAction.sweep [⟨"t-1", ready, .ok false, .ok (some ("board", ready))⟩]).run .single σ
    popped.map (fun σ => (queuedIds σ.queues "board", σ.pending "t-1")) = some (["t-1"], false) ∧
    swept.map (fun σ => queuedIds σ.queues "board") = some ["t-1", "t-1"] := by
  decide +kernel

end Runtime
end RobotsixMill
