import RobotsixMill.Service.Lifecycle
import Mathlib.Data.List.Induction

/-!
# `Service.History` — reading a ticket's past off its events

The bookkeeping columns of a ticket restate parts of its history: the newest event names the current
state, `paused_from` the state before the current pause, `blocked_from` the state before the current
block. `latestWhere p` is the reading they are compared with: the newest state that meets `p`.
-/

namespace RobotsixMill
namespace Service
open RobotsixMill.Core Lib

/-- The state of the newest event whose state meets `p`. -/
def latestWhere (p : State → Bool) (events : List TicketEvent) : Option State :=
  (events.reverse.find? fun e => p e.state).map TicketEvent.state

variable {p : State → Bool} {events : List TicketEvent}

@[simp] theorem latestWhere_nil : latestWhere p [] = none := rfl

theorem latestWhere_snoc (e : TicketEvent) :
    latestWhere p (events ++ [e]) = if p e.state then some e.state else latestWhere p events := by
  unfold latestWhere
  rw [List.reverse_append, List.reverse_singleton, List.singleton_append, List.find?_cons]
  cases h : p e.state with
  | true => rfl
  | false => rfl

/-- A session that appends one event: the newest reading is its state, or the old one. -/
theorem latestWhere_appendEvent (tid : TicketId) (s : State) (note : Option String)
    (now : DateTime) :
    latestWhere p (appendEvent tid events s note now) =
      if p s then some s else latestWhere p events :=
  latestWhere_snoc _

/-- Events that do not meet `p` are skipped. -/
theorem latestWhere_append_of_forall_not {post : List TicketEvent}
    (h : ∀ e ∈ post, p e.state = false) : latestWhere p (events ++ post) = latestWhere p events := by
  induction post using List.reverseRecOn with
  | nil => rw [List.append_nil]
  | append_singleton post e ih =>
      rw [← List.append_assoc, latestWhere_snoc, h e (by simp)]
      exact ih fun e' he' => h e' (List.mem_append_left _ he')

/-- A reading comes from an event after which nothing meets `p`. -/
theorem exists_split_of_latestWhere {s : State} (h : latestWhere p events = some s) :
    ∃ pre e post, events = pre ++ e :: post ∧ e.state = s ∧ p s = true ∧
      ∀ x ∈ post, p x.state = false := by
  induction events using List.reverseRecOn with
  | nil => simp at h
  | append_singleton events e ih =>
      rw [latestWhere_snoc] at h
      by_cases he : p e.state = true
      · rw [if_pos he] at h
        have hs : e.state = s := Option.some.inj h
        exact ⟨events, e, [], rfl, hs, by rw [← hs]; exact he, by simp⟩
      · rw [if_neg he] at h
        obtain ⟨pre, e', post, rfl, hs, hp, hpost⟩ := ih h
        refine ⟨pre, e', post ++ [e], by simp, hs, hp, ?_⟩
        intro x hx
        rcases List.mem_append.1 hx with hx | hx
        · exact hpost x hx
        · rw [List.mem_singleton] at hx
          subst hx
          simpa using he

/-! ## Where an auto-resume goes -/

/-- Has the ticket `[ASK_USER]` threads, and is every one of them closed? -/
def questionsAnswered (r : TicketRecord) : Bool :=
  let ask_threads := r.comments.filter isAskUserThread
  !ask_threads.isEmpty && ask_threads.all fun c => c.closedAt.isSome

/-- **When the auto-resume acts**: on a paused ticket whose questions are answered, if a target is
    known. -/
theorem autoResumeDst_eq_some {r : TicketRecord} {dst : State} :
    autoResumeDst r = some dst ↔ r.ticket.state = .awaitingUserReply ∧
      questionsAnswered r = true ∧ resumeTarget r.ticket r.events = some dst := by
  unfold autoResumeDst questionsAnswered
  by_cases hs : r.ticket.state = .awaitingUserReply
  · rw [if_neg (by simpa using hs)]
    dsimp only
    by_cases hne : r.comments.filter isAskUserThread = []
    · simp [hne]
    · by_cases hopen : (r.comments.filter isAskUserThread).any (fun c => c.closedAt.isNone) = true
      · rw [if_pos (.inr hopen)]
        obtain ⟨c, hc, hnone⟩ := List.any_eq_true.1 hopen
        constructor
        · intro h; cases h
        · rintro ⟨-, hq, -⟩
          have hsome := List.all_eq_true.1 (Bool.and_eq_true_iff.1 hq).2 c hc
          rw [Option.isNone_iff_eq_none] at hnone
          rw [hnone] at hsome
          cases hsome
      · rw [if_neg (by simp [hne, hopen])]
        have hall : (r.comments.filter isAskUserThread).all (fun c => c.closedAt.isSome) = true := by
          rw [List.all_eq_true]
          intro c hc
          by_contra hnone
          exact hopen (List.any_eq_true.2 ⟨c, hc, by simpa using hnone⟩)
        simp [hs, hne, hall]
  · rw [if_pos hs]
    simp [hs]

/-- A target recovered from the history is not the pause itself. -/
theorem resumeTarget_ne_awaiting {t : Ticket} {dst : State}
    (hp : t.pausedFrom ≠ some .awaitingUserReply) (h : resumeTarget t events = some dst) :
    dst ≠ .awaitingUserReply := by
  unfold resumeTarget at h
  cases ht : t.pausedFrom with
  | some s =>
      rw [ht] at h
      intro heq
      subst heq
      exact hp (by rw [ht]; exact h)
  | none =>
      rw [ht] at h
      obtain ⟨e, he, rfl⟩ := Option.map_eq_some_iff.1 h
      simpa using (List.mem_filter.1 (mem_of_latestBy he)).2

end Service
end RobotsixMill
