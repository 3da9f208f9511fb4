import RobotsixMill.Runtime.QueueDedup

/-!
# `Runtime.DrainSwap` — the drain loop ends, with a best ticket in hand

The loop swaps the ticket in hand for the head of the queue while that is better ranked. The rank of an entry is
that of the time it was queued; a ticket that is taken up may rank worse by now, so that the rank in hand does not
only improve. But such an entry is put back with its present rank: either an entry that promises too much goes, or
the rank in hand improves.

- `drainMeasure_swap` — a swap decreases the number of such entries, or keeps it and improves the rank;
- `dueRank`, `Settled` — where it is to stop: a ticket that was deferred at the cap of in-flight pull requests goes by
  the rank it was put back with, which need not be the one it has now (`deferred_ticket_keeps_hand`);
- `drain_swap_ends` — the loop ends there, and no id is lost.
-/

namespace RobotsixMill
namespace Runtime
open RobotsixMill.Core Lib

section Swap

variable (table : TicketId → Option Ticket)

/-- Reads of a table of tickets that does not change. -/
def Reads.steady (reads : Reads) : Reads := { reads with boardGet := fun _ tid => .ok (table tid) }

/-- The entry in hand, once it is popped. -/
def Worker.popped (item : QueueItem) : Worker.Held := ⟨item.prio, item.stage, item.ticketId, table item.ticketId⟩

/-- The rank an entry is in the queue with. -/
def QueueItem.rank (item : QueueItem) : Nat ×ₗ Nat := toLex (item.prio, item.stage)

/-- The rank it is held with, once it is popped. -/
def heldRank (σ : Worker) (item : QueueItem) : Nat ×ₗ Nat := toLex (σ.curRank (Worker.popped table item))

/-- The entry promises a better rank than the ticket has. -/
def Optimistic (σ : Worker) (item : QueueItem) : Bool := decide (item.rank < heldRank table σ item)

/-- The entries that promise too much, and then the rank in hand. -/
def drainMeasure (board : BoardId) (item : QueueItem) (σ : Worker) : Nat ×ₗ (Nat ×ₗ Nat) :=
  toLex ((σ.queues board).countP (Optimistic table σ), heldRank table σ item)

variable {table} {σ : Worker} {board : BoardId} {item head : QueueItem} {rest : List QueueItem}

theorem betterRank_iff {rank : Nat × Nat} : Worker.betterRank head rank = true ↔ head.rank < toLex rank := by
  unfold Worker.betterRank QueueItem.rank
  rw [Prod.Lex.toLex_lt_toLex, Bool.or_eq_true, Bool.and_eq_true, decide_eq_true_iff, decide_eq_true_iff,
    decide_eq_true_iff]

/-- A better rank is a smaller key, whatever the numbers of the entries. -/
theorem key_le_of_rank_lt {other : QueueItem} (h : head.rank < other.rank) : head.key ≤ other.key := by
  unfold QueueItem.rank at h
  rw [Prod.Lex.toLex_lt_toLex] at h
  unfold QueueItem.key
  rw [Prod.Lex.toLex_le_toLex]
  rcases h with hprio | ⟨hprio, hstage⟩
  · exact .inl hprio
  · exact .inr ⟨hprio, Prod.Lex.toLex_le_toLex.2 (.inl hstage)⟩

/-- The entry the ticket in hand is put back as. -/
def backEntry (table : TicketId → Option Ticket) (σ : Worker) (item : QueueItem) : QueueItem :=
  ⟨(ofLex (heldRank table σ item)).1, (ofLex (heldRank table σ item)).2, σ.enqueueSeq + 1, item.ticketId⟩

theorem rank_backEntry : (backEntry table σ item).rank = heldRank table σ item := rfl

/-- **It promises what the ticket has.** -/
theorem heldRank_backEntry : heldRank table σ (backEntry table σ item) = heldRank table σ item := by
  unfold heldRank Worker.curRank backEntry heldRank Worker.curRank Worker.popped
  dsimp only
  by_cases hdeferred : σ.capDeferred item.ticketId = true
  · rw [if_pos hdeferred, if_pos hdeferred]
    rfl
  · rw [if_neg hdeferred, if_neg hdeferred]
    cases table item.ticketId <;> rfl

theorem optimistic_backEntry : Optimistic table σ (backEntry table σ item) = false := by
  unfold Optimistic
  rw [rank_backEntry, heldRank_backEntry]
  exact decide_eq_false (lt_irrefl _)

/-- The worker after a swap: the ticket in hand is back in the queue, and the head out of it. -/
def swapped (table : TicketId → Option Ticket) (board : BoardId) (item : QueueItem) (rest : List QueueItem)
    (σ : Worker) : Worker :=
  { σ.putBack board (ofLex (heldRank table σ item)) item.ticketId with
    queues := Function.update (σ.putBack board (ofLex (heldRank table σ item)) item.ticketId).queues board
      (rest ++ [backEntry table σ item]) }

theorem queues_swapped :
    (swapped table board item rest σ).queues board = rest ++ [backEntry table σ item] := Function.update_self _ _ _

theorem heldRank_swapped (other : QueueItem) :
    heldRank table (swapped table board item rest σ) other = heldRank table σ other := rfl

theorem optimistic_swapped : Optimistic table (swapped table board item rest σ) = Optimistic table σ := rfl

/-- **A swap decreases the measure.** -/
theorem drainMeasure_swap (hpop : popMin QueueItem.key (σ.queues board) = some (head, rest))
    (hbetter : head.rank < heldRank table σ item) :
    drainMeasure table board head (swapped table board item rest σ) < drainMeasure table board item σ := by
  unfold drainMeasure
  have hafter : (rest ++ [backEntry table σ item]).countP (Optimistic table σ) = rest.countP (Optimistic table σ) := by
    rw [List.countP_append, List.countP_singleton, optimistic_backEntry]
    rfl
  rw [queues_swapped, optimistic_swapped, hafter, ← (perm_of_popMin hpop).countP_eq, heldRank_swapped,
    Prod.Lex.toLex_lt_toLex]
  cases hopt : Optimistic table σ head with
  | true =>
    rw [List.countP_cons_of_pos hopt]
    exact .inl (Nat.lt_succ_self _)
  | false =>
    rw [List.countP_cons_of_neg (by rw [hopt]; exact Bool.false_ne_true)]
    exact .inr ⟨rfl, lt_of_le_of_lt (not_lt.1 (of_decide_eq_false hopt)) hbetter⟩

/-- One round of the loop that swaps. -/
theorem drain_swap (hpop : popMin QueueItem.key (σ.queues board) = some (head, rest))
    (hdeferred : σ.capDeferred head.ticketId = false) (hbetter : head.rank < heldRank table σ item) (reads : Reads)
    (fuel n : Nat) :
    Worker.drain (reads.steady table) board (fuel + 1) n (Worker.popped table item) σ =
      Worker.drain (reads.steady table) board fuel (n + 1) (Worker.popped table head)
        (swapped table board item rest σ) := by
  have hqueue : (σ.putBack board (σ.curRank (Worker.popped table item)) (Worker.popped table item).ticketId).queues
      board = σ.queues board ++ [backEntry table σ item] := Function.update_self _ _ _
  have hkey : head.key ≤ (backEntry table σ item).key := key_le_of_rank_lt hbetter
  have hpop' := popMin_append hpop hkey
  have hlt : Worker.betterRank head (σ.curRank (Worker.popped table item)) = true := betterRank_iff.2 hbetter
  rw [Worker.drain, hpop]
  dsimp only
  rw [if_neg (by rw [hdeferred]; exact Bool.false_ne_true), if_neg (by rw [hlt]; exact Bool.false_ne_true)]
  rw [hqueue, hpop']
  rfl

end Swap

/-- The rank a ticket has now. -/
def presentRank (table : TicketId → Option Ticket) (tid : TicketId) : Nat ×ₗ Nat :=
  toLex (prioRank (table tid), stageRank (table tid))

/-- The rank the ticket in hand goes by: that of its entry, if it was deferred at the cap or is deleted, and otherwise
    the one it has now. -/
def dueRank (table : TicketId → Option Ticket) (σ : Worker) (item : QueueItem) : Nat ×ₗ Nat :=
  if σ.capDeferred item.ticketId = true ∨ table item.ticketId = none then item.rank
  else presentRank table item.ticketId

theorem heldRank_eq (table : TicketId → Option Ticket) (σ : Worker) (item : QueueItem) :
    heldRank table σ item = dueRank table σ item := by
  unfold heldRank dueRank Worker.curRank Worker.popped presentRank QueueItem.rank
  cases σ.capDeferred item.ticketId <;> cases table item.ticketId <;> rfl

/-- Where the loop stops: at an empty queue, at a deferred head, or at one that is no better. -/
def Settled (table : TicketId → Option Ticket) (board : BoardId) (item : QueueItem) (σ : Worker) : Prop :=
  match popMin QueueItem.key (σ.queues board) with
  | none => True
  | some (head, _) => σ.capDeferred head.ticketId = true ∨ dueRank table σ item ≤ head.rank

/-- **The drain loop ends and loses nothing.** Whatever the queue holds and whichever entry was popped, there is a
    number of rounds within which it stops with an entry in hand. -/
theorem drain_swap_ends (table : TicketId → Option Ticket) (reads : Reads) (board : BoardId) (n : Nat)
    (item : QueueItem) (σ : Worker) :
    ∃ rounds item' σ',
      (∀ more, Worker.drain (reads.steady table) board (more + rounds) n (Worker.popped table item) σ =
        some (σ', .held (Worker.popped table item'))) ∧
      Settled table board item' σ' ∧
      (item'.ticketId :: queuedIds σ'.queues board).Perm (item.ticketId :: queuedIds σ.queues board) := by
  induction hm : drainMeasure table board item σ using WellFoundedLT.induction generalizing n item σ with
  | ind m ih =>
    cases hpop : popMin QueueItem.key (σ.queues board) with
    | none =>
      refine ⟨1, item, σ, fun more => ?_, ?_, List.Perm.refl _⟩
      · rw [Worker.drain, hpop]
      · unfold Settled
        rw [hpop]
        trivial
    | some found =>
      obtain ⟨head, rest⟩ := found
      by_cases hstop : σ.capDeferred head.ticketId = true ∨ dueRank table σ item ≤ head.rank
      · refine ⟨1, item, σ, fun more => ?_, ?_, List.Perm.refl _⟩
        · rw [Worker.drain, hpop]
          dsimp only
          rcases hstop with hdeferred | hrank
          · rw [if_pos hdeferred]
          · rw [← heldRank_eq] at hrank
            have hnot : Worker.betterRank head (σ.curRank (Worker.popped table item)) = false :=
              Bool.eq_false_iff.2 fun hbetter => not_lt.2 hrank (betterRank_iff.1 hbetter)
            rw [hnot]
            exact ite_self _
        · unfold Settled
          rw [hpop]
          exact hstop
      · -- a swap: the head goes on in hand
        obtain ⟨hdeferred, hrank⟩ := not_or.1 hstop
        rw [← heldRank_eq] at hrank
        have hbetter := not_le.1 hrank
        obtain ⟨rounds, item', σ', hrun, hsettled, hperm⟩ :=
          ih _ (hm ▸ drainMeasure_swap hpop hbetter) (n + 1) head (swapped table board item rest σ) rfl
        refine ⟨rounds + 1, item', σ', fun more => ?_, hsettled, hperm.trans ?_⟩
        · exact (drain_swap hpop (Bool.eq_false_iff.2 hdeferred) hbetter reads _ n).trans (hrun more)
        · have hids : (queuedIds σ.queues board).Perm (head.ticketId :: rest.map QueueItem.ticketId) :=
            ((perm_of_popMin hpop).map QueueItem.ticketId).symm
          have hback : queuedIds (swapped table board item rest σ).queues board =
              rest.map QueueItem.ticketId ++ [item.ticketId] := by
            unfold queuedIds
            rw [queues_swapped, List.map_append]
            rfl
          rw [hback]
          have hmoved : (head.ticketId :: rest.map QueueItem.ticketId ++ [item.ticketId]).Perm
              (item.ticketId :: head.ticketId :: rest.map QueueItem.ticketId) := List.perm_append_singleton _ _
          exact hmoved.trans (hids.symm.cons _)

/-- Where it would stop if every ticket went by the rank it has now. -/
def SettledAtPresent (table : TicketId → Option Ticket) (board : BoardId) (item : QueueItem) (σ : Worker) : Prop :=
  match popMin QueueItem.key (σ.queues board) with
  | none => True
  | some (head, _) => σ.capDeferred head.ticketId = true ∨ presentRank table item.ticketId ≤ head.rank

/-- `a` was put back as a `ready` ticket when the cap was reached, and is a draft again; `b` is ready. -/
def redrafted (tid : TicketId) : Option Ticket :=
  some { title := tid, state := if tid = "a" then .draft else .ready, createdAt := 0, updatedAt := 0 }

def deferredEntry : QueueItem := ⟨1, 11, 1, "a"⟩

/-- The queue behind it. -/
def behindDeferred : Worker :=
  { Worker.start with
    queues := fun _ => [⟨1, 11, 2, "b"⟩], enqueueSeq := 2, capDeferred := fun tid => decide (tid = "a") }

/-- It stays in hand, though `b` is ranked better than it is now. -/
theorem deferred_ticket_keeps_hand :
    (∀ more n, Worker.drain ((Reads.of draftTicket).steady redrafted) "board" (more + 1) n
        (Worker.popped redrafted deferredEntry) behindDeferred =
      some (behindDeferred, .held (Worker.popped redrafted deferredEntry))) ∧
    ¬ SettledAtPresent redrafted "board" deferredEntry behindDeferred := by
  have hhead : popMin QueueItem.key (behindDeferred.queues "board") = some (⟨1, 11, 2, "b"⟩, []) := by decide +kernel
  refine ⟨fun more n => ?_, ?_⟩
  · rw [Worker.drain, hhead]
    rfl
  · unfold SettledAtPresent
    rw [hhead]
    decide +kernel

end Runtime
end RobotsixMill
