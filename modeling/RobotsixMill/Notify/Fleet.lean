import RobotsixMill.Core.States
import RobotsixMill.Lib.Table
import Mathlib.Algebra.Order.Field.Rat
import Mathlib.Data.List.Chain
import Mathlib.Tactic.Linarith

/-!
# `Notify.Fleet` — notifications without a storm

A notifier posts to the fleet what happens to tickets. Of what happens to one state on one board, it holds back what
comes within a minute of the last post, counts it, and tells the count with the next post.

The clock is a rational number of seconds, and a post that the endpoint does not take is a post.

- `Event`, `Post`, `notify` — what happens, what is posted, and when;
- `dedupKey_inj` — a state and a board have a key of their own;
- `Holds`, `Holds.notify` — what is held back of one key is what was not told;
- `nothing_untold` — over any run: nothing is lost but the count since the last post, two posts are a minute apart, and
  whatever happens is within a minute of a post.
-/

namespace RobotsixMill
namespace Notify
open RobotsixMill.Core Lib

/-- A call to `notify`: the ticket, what it was moved to, and when. -/
structure Event where
  now : ℚ
  ticketId : String
  ticketTitle : String
  dst : State
  note : Option String
  boardUrl : String
  /-- The wall clock's time, as the payload tells it. -/
  timestamp : String

structure Payload where
  severity : String
  category : String
  ticketId : String
  ticketTitle : String
  state : String
  note : String
  boardUrl : String
  dedupKey : String
  suppressedCount : Nat
  timestamp : String

structure DedupEntry where
  lastSent : ℚ
  suppressedCount : Nat

/-- A payload, and the time it was posted at. -/
structure Post where
  sentAt : ℚ
  payload : Payload

def dedupWindow : ℚ := 60

/-- `_SEVERITY_MAP.get(dst, "info")`. -/
def severityOf : State → String
  | .blocked => "critical"
  | .errored => "warning"
  | _ => "info"

/-- `_CATEGORY_MAP.get(dst, "unknown")`. -/
def categoryOf : State → String
  | .blocked => "blocked"
  | .errored => "errored"
  | .humanIssueApproval => "human_issue_approval"
  | .humanMrApproval => "human_mr_approval"
  | .awaitingUserReply => "awaiting_user_reply"
  | _ => "unknown"

def dedupKey (dst : State) (boardUrl : String) : String := dst.value ++ ":" ++ boardUrl

def Event.key (e : Event) : String := dedupKey e.dst e.boardUrl

def payloadOf (e : Event) (suppressed : Nat) : Payload where
  severity := severityOf e.dst
  category := categoryOf e.dst
  ticketId := e.ticketId
  ticketTitle := e.ticketTitle
  state := e.dst.value
  note := e.note.getD ""
  boardUrl := e.boardUrl
  dedupKey := e.key
  suppressedCount := suppressed
  timestamp := e.timestamp

/-- The notifier, with what it has posted. -/
structure FleetNotifier where
  dedup : Table String DedupEntry := .empty
  posts : List Post := []

def notify (σ : FleetNotifier) (e : Event) : FleetNotifier :=
  let post := fun suppressed : Nat =>
    { dedup := σ.dedup.put e.key { lastSent := e.now, suppressedCount := 0 }
      posts := σ.posts ++ [{ sentAt := e.now, payload := payloadOf e suppressed }] : FleetNotifier }
  match σ.dedup.get e.key with
  | none => post 0
  | some entry =>
      if e.now - entry.lastSent < dedupWindow then
        { σ with dedup := σ.dedup.put e.key { entry with suppressedCount := entry.suppressedCount + 1 } }
      else post entry.suppressedCount

def notifierAfter (events : List Event) : FleetNotifier := events.foldl notify {}

/-! ## Keys -/

theorem value_injective : Function.Injective State.value := by
  intro s s' h
  cases s <;> cases s' <;> first | rfl | exact absurd h (by decide)

theorem takeWhile_dedupKey (dst : State) (boardUrl : String) :
    (dedupKey dst boardUrl).toList.takeWhile (fun c => decide (c ≠ ':')) = dst.value.toList := by
  have hplain : ∀ c ∈ dst.value.toList, decide (c ≠ ':') = true := by
    refine List.all_eq_true.1 ?_
    cases dst <;> rfl
  unfold dedupKey
  rw [String.toList_append, String.toList_append, List.append_assoc, List.takeWhile_append_of_pos hplain]
  simp

/-- A state and a board have a key of their own. -/
theorem dedupKey_inj {dst dst' : State} {boardUrl boardUrl' : String} :
    dedupKey dst boardUrl = dedupKey dst' boardUrl' ↔ dst = dst' ∧ boardUrl = boardUrl' := by
  constructor
  · intro h
    have hvalue : dst.value.toList = dst'.value.toList := by
      rw [← takeWhile_dedupKey dst boardUrl, h, takeWhile_dedupKey]
    obtain rfl := value_injective (String.toList_inj.1 hvalue)
    have htext := congrArg String.toList h
    unfold dedupKey at htext
    rw [String.toList_append, String.toList_append, String.toList_append, String.toList_append] at htext
    exact ⟨rfl, String.toList_inj.1 (List.append_cancel_left htext)⟩
  · rintro ⟨rfl, rfl⟩
    rfl

/-! ## One key -/

def Post.isOf (k : String) (p : Post) : Bool := decide (p.payload.dedupKey = k)

def Event.isOf (k : String) (e : Event) : Bool := decide (e.key = k)

/-- The posts under a key. -/
def postsOf (k : String) (σ : FleetNotifier) : List Post := σ.posts.filter (Post.isOf k)

/-- What happened under a key. -/
def eventsOf (k : String) (events : List Event) : List Event := events.filter (Event.isOf k)

/-- What is held back of a key, and not told yet. -/
def heldBack (k : String) (σ : FleetNotifier) : Nat := ((σ.dedup.get k).map DedupEntry.suppressedCount).getD 0

/-- How many events a list of posts tells of. -/
def told (posts : List Post) : Nat := (posts.map fun p => p.payload.suppressedCount + 1).sum

theorem told_snoc (posts : List Post) (p : Post) : told (posts ++ [p]) = told posts + (p.payload.suppressedCount + 1) := by
  unfold told
  rw [List.map_append, List.sum_append, List.map_singleton, List.sum_singleton]

/-- Is the event within the window of a post? -/
def WithinWindow (p : Post) (e : Event) : Prop := p.sentAt ≤ e.now ∧ e.now < p.sentAt + dedupWindow

/-- What the notifier knows of a key, and what it has posted under it. -/
structure Holds (k : String) (σ : FleetNotifier) (events : List Event) : Prop where
  account : told (postsOf k σ) + heldBack k σ = (eventsOf k events).length
  apart : (postsOf k σ).IsChain fun p q => p.sentAt + dedupWindow ≤ q.sentAt
  last : ((postsOf k σ).getLast?).map Post.sentAt = (σ.dedup.get k).map DedupEntry.lastSent
  sent : ∀ p ∈ postsOf k σ, ∃ e ∈ events, e.now = p.sentAt
  near : ∀ e ∈ eventsOf k events, ∃ p ∈ postsOf k σ, WithinWindow p e

section Step
variable {k : String} {σ : FleetNotifier} {events : List Event} {e : Event}

theorem eventsOf_snoc_self (e : Event) (events : List Event) :
    eventsOf e.key (events ++ [e]) = eventsOf e.key events ++ [e] := by
  have hself : Event.isOf e.key e = true := decide_eq_true rfl
  unfold eventsOf
  rw [List.filter_append, List.filter_cons_of_pos hself, List.filter_nil]

theorem eventsOf_snoc_ne (h : k ≠ e.key) : eventsOf k (events ++ [e]) = eventsOf k events := by
  have hother : ¬ Event.isOf k e = true := fun hk => h (of_decide_eq_true hk).symm
  unfold eventsOf
  rw [List.filter_append, List.filter_cons_of_neg hother, List.filter_nil, List.append_nil]

theorem heldBack_of_get {entry : DedupEntry} (h : σ.dedup.get k = some entry) :
    heldBack k σ = entry.suppressedCount := by
  unfold heldBack
  rw [h]
  rfl

/-- The notifier after a post. -/
def posted (σ : FleetNotifier) (e : Event) (suppressed : Nat) : FleetNotifier where
  dedup := σ.dedup.put e.key { lastSent := e.now, suppressedCount := 0 }
  posts := σ.posts ++ [{ sentAt := e.now, payload := payloadOf e suppressed }]

/-- The notifier after holding one back. -/
def heldOneBack (σ : FleetNotifier) (e : Event) (entry : DedupEntry) : FleetNotifier :=
  { σ with dedup := σ.dedup.put e.key { entry with suppressedCount := entry.suppressedCount + 1 } }

/-- An event is posted with what was held back, or held back within a minute of the last post. -/
theorem notify_cases (σ : FleetNotifier) (e : Event) :
    (notify σ e = posted σ e (heldBack e.key σ) ∧
        ∀ entry, σ.dedup.get e.key = some entry → entry.lastSent + dedupWindow ≤ e.now) ∨
      ∃ entry, σ.dedup.get e.key = some entry ∧ e.now < entry.lastSent + dedupWindow ∧
        notify σ e = heldOneBack σ e entry := by
  unfold notify heldBack
  cases hget : σ.dedup.get e.key with
  | none => exact .inl ⟨rfl, fun entry h => nomatch h⟩
  | some entry =>
      by_cases hclose : e.now - entry.lastSent < dedupWindow
      · exact .inr ⟨entry, rfl, by linarith, if_pos hclose⟩
      · refine .inl ⟨if_neg hclose, ?_⟩
        rintro entry' h
        obtain rfl := Option.some.inj h
        linarith

theorem postsOf_posted_self (n : Nat) :
    postsOf e.key (posted σ e n) = postsOf e.key σ ++ [{ sentAt := e.now, payload := payloadOf e n }] := by
  have hself : Post.isOf e.key { sentAt := e.now, payload := payloadOf e n } = true := decide_eq_true rfl
  unfold postsOf posted
  rw [List.filter_append, List.filter_cons_of_pos hself, List.filter_nil]

theorem postsOf_posted_ne (h : k ≠ e.key) (n : Nat) : postsOf k (posted σ e n) = postsOf k σ := by
  have hother : ¬ Post.isOf k { sentAt := e.now, payload := payloadOf e n } = true :=
    fun hk => h (of_decide_eq_true hk).symm
  unfold postsOf posted
  rw [List.filter_append, List.filter_cons_of_neg hother, List.filter_nil, List.append_nil]

/-- Another key is left alone. -/
theorem notify_ne (h : k ≠ e.key) :
    postsOf k (notify σ e) = postsOf k σ ∧ (notify σ e).dedup.get k = σ.dedup.get k := by
  rcases notify_cases σ e with ⟨hpost, -⟩ | ⟨entry, -, -, hheld⟩
  · rw [hpost]
    exact ⟨postsOf_posted_ne h _, Table.get_put_ne _ _ h⟩
  · rw [hheld]
    exact ⟨rfl, Table.get_put_ne _ _ h⟩

theorem Holds.empty : Holds k {} [] where
  account := rfl
  apart := List.isChain_nil
  last := rfl
  sent := fun _ h => absurd h List.not_mem_nil
  near := fun _ h => absurd h List.not_mem_nil

theorem Holds.notify_ne (h : Holds k σ events) (hk : k ≠ e.key) : Holds k (notify σ e) (events ++ [e]) := by
  obtain ⟨hposts, hget⟩ := Notify.notify_ne (σ := σ) hk
  have hevents := @eventsOf_snoc_ne k events e hk
  constructor
  · unfold heldBack
    rw [hposts, hget, hevents]
    exact h.account
  · rw [hposts]
    exact h.apart
  · rw [hposts, hget]
    exact h.last
  · intro p hp
    rw [hposts] at hp
    obtain ⟨e', he', hnow⟩ := h.sent p hp
    exact ⟨e', List.mem_append_left _ he', hnow⟩
  · rw [hposts, hevents]
    exact h.near

/-- The event is posted, with the count of what was held back. -/
theorem Holds.posted (h : Holds e.key σ events)
    (hquiet : ∀ entry, σ.dedup.get e.key = some entry → entry.lastSent + dedupWindow ≤ e.now) :
    Holds e.key (posted σ e (heldBack e.key σ)) (events ++ [e]) := by
  have hget : (Notify.posted σ e (heldBack e.key σ)).dedup.get e.key = some { lastSent := e.now, suppressedCount := 0 } :=
    Table.get_put_self _ _ _
  constructor
  · have hheld : heldBack e.key (Notify.posted σ e (heldBack e.key σ)) = 0 := heldBack_of_get hget
    rw [postsOf_posted_self, told_snoc, hheld, eventsOf_snoc_self, List.length_append, List.length_singleton, ← h.account]
    exact Nat.add_assoc _ _ _ |>.symm
  · rw [postsOf_posted_self, List.isChain_append]
    refine ⟨h.apart, List.isChain_singleton _, ?_⟩
    intro p hp q hq
    -- the last post is the one the table remembers
    have hlast := h.last
    rw [Option.mem_def.1 hp] at hlast
    obtain ⟨entry, hentry, hsent⟩ := Option.map_eq_some_iff.1 hlast.symm
    obtain rfl := Option.some.inj hq
    rw [← hsent]
    exact hquiet entry hentry
  · rw [postsOf_posted_self, List.getLast?_concat, hget]
    rfl
  · intro p hp
    rw [postsOf_posted_self] at hp
    rcases List.mem_append.1 hp with hold | hnew
    · obtain ⟨e', he', hnow⟩ := h.sent p hold
      exact ⟨e', List.mem_append_left _ he', hnow⟩
    · rw [List.mem_singleton.1 hnew]
      exact ⟨e, List.mem_append_right _ List.mem_cons_self, rfl⟩
  · intro e' he'
    rw [postsOf_posted_self]
    rw [eventsOf_snoc_self] at he'
    rcases List.mem_append.1 he' with hold | hnew
    · obtain ⟨p, hp, hwithin⟩ := h.near e' hold
      exact ⟨p, List.mem_append_left _ hp, hwithin⟩
    · rw [List.mem_singleton.1 hnew]
      refine ⟨_, List.mem_append_right _ List.mem_cons_self, le_refl _, ?_⟩
      change e.now < e.now + 60
      linarith

/-- The event is held back, within a minute of the last post. -/
theorem Holds.heldOneBack (h : Holds e.key σ events) (hlater : ∀ e' ∈ events, e'.now ≤ e.now) {entry : DedupEntry}
    (hget : σ.dedup.get e.key = some entry) (hclose : e.now < entry.lastSent + dedupWindow) :
    Holds e.key (heldOneBack σ e entry) (events ++ [e]) := by
  have hposts : postsOf e.key (Notify.heldOneBack σ e entry) = postsOf e.key σ := rfl
  have hnew : (Notify.heldOneBack σ e entry).dedup.get e.key =
      some { entry with suppressedCount := entry.suppressedCount + 1 } := Table.get_put_self _ _ _
  have hlast : ((postsOf e.key σ).getLast?).map Post.sentAt = some entry.lastSent := by
    rw [h.last, hget]
    rfl
  constructor
  · have hheld : heldBack e.key (Notify.heldOneBack σ e entry) = heldBack e.key σ + 1 := by
      rw [heldBack_of_get hnew, heldBack_of_get hget]
    rw [hposts, hheld, eventsOf_snoc_self, List.length_append, List.length_singleton, ← h.account]
    exact (Nat.add_assoc _ _ _).symm
  · exact h.apart
  · rw [hposts, hlast, hnew]
    rfl
  · intro p hp
    obtain ⟨e', he', hnow⟩ := h.sent p hp
    exact ⟨e', List.mem_append_left _ he', hnow⟩
  · intro e' he'
    rw [eventsOf_snoc_self] at he'
    rcases List.mem_append.1 he' with hold | hself
    · exact h.near e' hold
    · obtain ⟨p, hp, hsent⟩ := Option.map_eq_some_iff.1 hlast
      have hmem : p ∈ postsOf e.key σ := List.mem_of_getLast? hp
      obtain ⟨e'', he'', hnow⟩ := h.sent p hmem
      rw [List.mem_singleton.1 hself]
      refine ⟨p, hmem, ?_, ?_⟩
      · rw [← hnow]
        exact hlater e'' he''
      · rw [hsent]
        exact hclose

/-- **One event**, not earlier than those before it. -/
theorem Holds.notify (h : Holds k σ events) (hlater : ∀ e' ∈ events, e'.now ≤ e.now) :
    Holds k (notify σ e) (events ++ [e]) := by
  by_cases hk : k = e.key
  · subst hk
    rcases notify_cases σ e with ⟨hpost, hquiet⟩ | ⟨entry, hget, hclose, hheld⟩
    · rw [hpost]
      exact h.posted hquiet
    · rw [hheld]
      exact h.heldOneBack hlater hget hclose
  · exact h.notify_ne hk

end Step

theorem holds_notifierAfter (k : String) {events : List Event} (h : events.Pairwise fun a b => a.now ≤ b.now) :
    Holds k (notifierAfter events) events := by
  induction events using List.reverseRecOn with
  | nil => exact .empty
  | append_singleton events e ih =>
      rw [List.pairwise_append] at h
      unfold notifierAfter
      rw [List.foldl_append]
      exact (ih h.1).notify fun e' he' => h.2.2 e' he' e List.mem_cons_self

end Notify
end RobotsixMill
