import RobotsixMill.Agents.AutoResume
import RobotsixMill.Service.Cascade

/-!
# `Agents.ResumeEvidence` — what the runner goes by, and the calls that do not touch it

The history of a blocked ticket tells of its block as long as the `blocked` events since the transition into it say
nothing that the transition did not say (`Told`). The event purge may cut such a history. Most calls put no ticket
into a block, add no event to one, and take no comment away: they are calm, and `calmed_call` is all the runner's
invariant needs to know about them.
-/

namespace RobotsixMill
namespace Agents
open RobotsixMill.Core Lib Service

variable {env : Env} {cfg : AutoResumeSettings}

/-! ## What the history tells -/

/-- What the event says, it says of the transition `b`, too. -/
def Tells (cfg : AutoResumeSettings) (b e : TicketEvent) : Prop :=
  blockMatches cfg (e.note.getD "") = true → blockMatches cfg (b.note.getD "") = true ∧ b.at_ ≤ e.at_

/-- The history ends with the current block, which `b` began, and every `blocked` event from before it is older. -/
def Told (cfg : AutoResumeSettings) (b : TicketEvent) (events : List TicketEvent) : Prop :=
  ∃ pre post, events = pre ++ post ∧ post ≠ [] ∧ (∀ e ∈ post, e.state = .blocked ∧ Tells cfg b e) ∧
    ∀ e ∈ pre, e.state = .blocked → ∃ e' ∈ post, e.at_ < e'.at_

section Histories

variable {b : TicketEvent} {events : List TicketEvent}

/-- The event the runner reads belongs to the current block. -/
theorem Told.latest (h : Told cfg b events) {ev : TicketEvent} (hev : latestBlockedEvent events = some ev) :
    Tells cfg b ev := by
  obtain ⟨pre, post, rfl, -, hpost, hpre⟩ := h
  obtain ⟨hmem, hstate, hlatest⟩ := latestBlockedEvent_spec hev
  rcases List.mem_append.1 hmem with hmem | hmem
  · -- an older one would not be the latest
    obtain ⟨e', he', hlt⟩ := hpre ev hmem hstate
    have hle := hlatest e' (List.mem_append_right _ he') (hpost e' he').1
    exact absurd hle (Nat.not_le.2 hlt)
  · exact (hpost ev hmem).2

/-- A transition into a block begins it. -/
theorem told_enter {e : TicketEvent} (hstate : e.state = .blocked)
    (hold : ∀ e' ∈ events, e'.state = .blocked → e'.at_ < e.at_) : Told cfg e (events ++ [e]) := by
  refine ⟨events, [e], rfl, by simp, ?_, ?_⟩
  · intro e' he'
    rw [List.mem_singleton] at he'
    subst he'
    exact ⟨hstate, fun hm => ⟨hm, Nat.le_refl _⟩⟩
  · intro e' he' hs
    exact ⟨e, List.mem_singleton_self e, hold e' he' hs⟩

/-- A note in the current block. -/
theorem Told.snoc (h : Told cfg b events) {e : TicketEvent} (hstate : e.state = .blocked)
    (htells : Tells cfg b e) : Told cfg b (events ++ [e]) := by
  obtain ⟨pre, post, rfl, hne, hpost, hpre⟩ := h
  refine ⟨pre, post ++ [e], List.append_assoc _ _ _, by simp, ?_, ?_⟩
  · intro e' he'
    rcases List.mem_append.1 he' with he' | he'
    · exact hpost e' he'
    · rw [List.mem_singleton] at he'
      subst he'
      exact ⟨hstate, htells⟩
  · intro e' he' hs
    obtain ⟨e₁, he₁, hlt⟩ := hpre e' he' hs
    exact ⟨e₁, List.mem_append_left _ he₁, hlt⟩

/-- The event purge cuts the history from behind, and never all of it. -/
theorem Told.purge {r : TicketRecord} (h : Told cfg b r.events) (cap : Nat) :
    Told cfg b (purgeEventsRecord cap r).events := by
  unfold purgeEventsRecord
  split
  · exact h
  · rename_i hcap
    obtain ⟨pre, post, hev, hne, hpost, hpre⟩ := h
    have hlen : 0 < post.length := List.length_pos_of_ne_nil hne
    rw [hev, List.drop_append]
    cases hp : pre.drop ((pre ++ post).length - cap) with
    | cons a as =>
        -- the current block is whole
        have hzero : (pre ++ post).length - cap - pre.length = 0 := by
          have hlt := congrArg List.length hp
          rw [List.length_drop, List.length_cons] at hlt
          omega
        have hsub : ∀ e ∈ a :: as, e ∈ pre := fun e he => List.mem_of_mem_drop (hp ▸ he)
        rw [hzero, List.drop_zero]
        refine ⟨{ a with prevHash := none } :: as, post, rfl, hne, hpost, ?_⟩
        intro e he hs
        rcases List.mem_cons.1 he with rfl | he
        · exact hpre a (hsub a List.mem_cons_self) hs
        · exact hpre e (hsub e (List.mem_cons_of_mem _ he)) hs
    | nil =>
        rw [List.nil_append]
        cases hq : post.drop ((pre ++ post).length - cap - pre.length) with
        | nil =>
            have hle := congrArg List.length hq
            rw [hev] at hcap
            rw [List.length_drop, List.length_nil, List.length_append] at hle
            rw [List.length_append] at hcap
            omega
        | cons a as =>
            have hsub : ∀ e ∈ a :: as, e ∈ post := fun e he => List.mem_of_mem_drop (hq ▸ he)
            refine ⟨[], { a with prevHash := none } :: as, rfl, by simp, ?_, by simp⟩
            intro e he
            rcases List.mem_cons.1 he with rfl | he
            · exact hpost a (hsub a List.mem_cons_self)
            · exact hpost e (hsub e (List.mem_cons_of_mem _ he))

end Histories

/-! ## The calls that tell the runner nothing -/

/-- The commits that put no ticket into a block, add no event to one, and lose no comment. -/
def Calm : Commit → Prop
  | .change _ _ (.transition _ dst _ _) => dst ≠ .blocked
  | .change _ _ (.redraft _ _ _) | .change _ _ (.historyNote _ _) | .change _ _ (.stepEvent _ _)
  | .change _ _ (.migrate _ _ _) => False
  | .change _ r (.comments cs) => Discussed r.comments cs
  | .copy _ _ r (.migrate _ _ cs) => cs.map Comment.body = r.comments.map Comment.body
  | .copy _ _ _ _ | .create _ _ => False
  | _ => True

theorem routine_calm : Routine Calm where
  delete _ := trivial
  unblock _ _ _ _ := trivial
  answerUnblock _ _ _ _ := trivial
  comments _ _ _ h := h

/-- The calls made of such commits. -/
def isCalm : Op → Bool
  | .create _ _ | .redraft _ _ _ | .addHistoryNote _ _ _ | .addStepEvent _ _ _ => false
  | .transition _ _ dst _ _ => !decide (dst = .blocked)
  | _ => true

theorem admits_of_isCalm {σ : Mill} {op : Op} (h : isCalm op = true) : Admits Calm env σ op := by
  cases op with
  | create svc args => cases h
  | redraft svc tid body => cases h
  | addHistoryNote svc tid note => cases h
  | addStepEvent svc tid note => cases h
  | transition svc tid dst note reason =>
      intro k r now _ _ _
      show dst ≠ .blocked
      simpa [isCalm] using h
  | migrate svc tid target note => exact fun _ _ _ _ _ _ _ _ _ _ _ hcs => hcs
  | resumeBlocked svc tid note => exact fun _ _ _ _ _ _ _ _ => trivial
  | requestChanges svc tid body author => exact fun _ _ _ _ _ => trivial
  | requestImplementationChanges svc tid body author => exact fun _ _ _ _ _ => trivial
  | markDone svc tid note author => exact fun _ _ _ _ _ _ _ _ => trivial
  | closeTracker svc tid note => exact fun _ _ _ _ => trivial
  | addComment svc tid body author pid => exact fun _ _ _ _ _ _ => trivial
  | closeThread svc cid tid => exact fun _ _ _ _ _ _ => trivial
  | answerPendingQuestion svc tid body author change =>
      refine ⟨fun _ k r _ r' now _ => ?_, fun _ _ _ _ _ _ => trivial⟩
      show State.ready ≠ .blocked
      decide
  | purgeTicketEvents svc tid => exact fun _ _ _ => trivial

theorem map_body_closeAskUserThreads (now : DateTime) (cs : List Comment) :
    (closeAskUserThreads now cs).map Comment.body = cs.map Comment.body := by
  unfold closeAskUserThreads
  rw [List.map_map]
  apply List.map_congr_left
  intro c _
  show (if isAskUserThread c && c.closedAt.isNone then { c with closedAt := some now } else c).body = c.body
  split <;> rfl

theorem discussed_refl (cs : List Comment) : Discussed cs cs := List.prefix_refl _

theorem discussed_transition {tid : TicketId} {r : TicketRecord} (now : Nat → DateTime) (dst : State)
    (note reason : Option String) :
    Discussed r.comments (transitionRecord tid now dst note reason r).comments := by
  show Discussed r.comments (if closesThreads r.ticket dst then closeAskUserThreads (now 0) r.comments
    else r.comments)
  split
  · exact discussed_of_map_body_eq (map_body_closeAskUserThreads _ _)
  · exact discussed_refl _

/-- Comments stay. -/
theorem discussed_of_calm {k : Key} {r : TicketRecord} {c : Change} (h : Calm (.change k r c)) :
    Discussed r.comments (c.apply k.2 r).comments := by
  cases c with
  | transition now dst note reason => exact discussed_transition now dst note reason
  | unblock now note => exact discussed_transition now _ _ _
  | answerUnblock now note => exact discussed_transition now _ _ _
  | resumeBlocked s now cid note eventNote =>
      show Discussed r.comments (if strip note = "" then r.comments else r.comments ++ [_])
      split
      · exact discussed_refl _
      · exact discussed_append _ _
  | requestChanges now cid body author =>
      show Discussed r.comments (if isBlank body then r.comments else r.comments ++ [_])
      split
      · exact discussed_refl _
      · exact discussed_append _ _
  | requestImplementationChanges now cid body author =>
      show Discussed r.comments (if isBlank body then r.comments else r.comments ++ [_])
      split
      · exact discussed_refl _
      · exact discussed_append _ _
  | markDone now cid note author =>
      show Discussed r.comments (if isBlank note then closeAskUserThreads (now 0) r.comments
        else closeAskUserThreads (now 0) r.comments ++ [_])
      split
      · exact discussed_of_map_body_eq (map_body_closeAskUserThreads _ _)
      · rw [Discussed, List.map_append, map_body_closeAskUserThreads]
        exact List.prefix_append _ _
  | closeTracker now note => exact discussed_refl _
  | autoResume now dst => exact discussed_refl _
  | comments cs => exact h
  | purgeEvents cap =>
      show Discussed r.comments (purgeEventsRecord cap r).comments
      rw [(purgeEventsRecord_keeps cap r).2]
      exact discussed_refl _
  | redraft now body cost => cases h
  | historyNote now note => cases h
  | stepEvent now note => cases h
  | migrate now note cs => cases h

/-- Can `resume_blocked` resume the ticket? -/
def isParked (r : TicketRecord) : Bool := decide (r.ticket.state = .blocked) && r.ticket.blockedFrom.isSome

/-- What is left of a row: it counts no fewer resumes, and is in a block only if it was, its history telling no
    more than it did. -/
structure Calmed (cfg : AutoResumeSettings) (σ₀ : Mill) (count : TicketId → Nat) (k : Key) (r : TicketRecord) :
    Prop where
  blockable : Blockable r
  counted : count k.2 ≤ priorAutoResumes r.comments
  told : isParked r = true → ∃ r₀, σ₀.records.get k = some r₀ ∧ isParked r₀ = true ∧
    ∀ b, Told cfg b r₀.events → Told cfg b r.events

theorem isParked_eq_false {r : TicketRecord} (h : r.ticket.state ≠ .blocked ∨ r.ticket.blockedFrom = none) :
    isParked r = false := by
  rcases h with h | h
  · simp [isParked, h]
  · simp [isParked, h]

/-- A calm commit leads into no block, and in one it adds no event. -/
theorem parked_of_calm (cfg : AutoResumeSettings) {k : Key} {r : TicketRecord} {c : Change} (h : Calm (.change k r c))
    (hal : c.Allowed k.2 r) (hb : Blockable r) (hp : isParked (c.apply k.2 r) = true) :
    isParked r = true ∧ ∀ b, Told cfg b r.events → Told cfg b (c.apply k.2 r).events := by
  have hno : (c.apply k.2 r).ticket.state ≠ .blocked ∨ (c.apply k.2 r).ticket.blockedFrom = none → False := by
    intro hn
    rw [isParked_eq_false hn] at hp
    cases hp
  cases c with
  | comments cs => exact ⟨hp, fun _ ht => ht⟩
  | purgeEvents cap =>
      have hp' : isParked (purgeEventsRecord cap r) = true := hp
      unfold isParked at hp'
      rw [(purgeEventsRecord_keeps cap r).1] at hp'
      exact ⟨hp', fun _ ht => ht.purge cap⟩
  | transition now dst note reason => exact (hno (.inl h)).elim
  | unblock now note => exact (hno (.inl hb.unblockDst_ne.1)).elim
  | answerUnblock now note =>
      refine (hno (.inl ?_)).elim
      show State.awaitingUserReply ≠ .blocked
      decide
  | resumeBlocked s now cid note eventNote => exact (hno (.inr rfl)).elim
  | requestChanges now cid body author =>
      refine (hno (.inl ?_)).elim
      show State.draft ≠ .blocked
      decide
  | requestImplementationChanges now cid body author =>
      refine (hno (.inl ?_)).elim
      show State.ready ≠ .blocked
      decide
  | markDone now cid note author =>
      refine (hno (.inl ?_)).elim
      show State.done ≠ .blocked
      decide
  | closeTracker now note => exact (hno (.inr rfl)).elim
  | autoResume now dst => exact (hno (.inr rfl)).elim
  | redraft now body cost => cases h
  | historyNote now note => cases h
  | stepEvent now note => cases h
  | migrate now note cs => cases h

theorem stable_calmed (σ₀ : Mill) (count : TicketId → Nat) : Stable Calm (Calmed cfg σ₀ count) where
  create k r hcond _ := by cases hcond
  change k r c hcond hal h :=
    { blockable := stable_blockable.change k r c trivial hal h.blockable
      counted := Nat.le_trans h.counted (priorAutoResumes_le (discussed_of_calm hcond))
      told := by
        intro hp
        obtain ⟨hr, hkeep⟩ := parked_of_calm cfg hcond hal h.blockable hp
        obtain ⟨r₀, hget, hr₀, htold⟩ := h.told hr
        exact ⟨r₀, hget, hr₀, fun b hb => hkeep b (htold b hb)⟩ }
  copy src dst r now note cs hcond hid h :=
    { blockable := stable_blockable.copy src dst r now note cs trivial hid h.blockable
      counted := by
        rw [hid]
        show count src.2 ≤ priorAutoResumes cs
        rw [priorAutoResumes_congr hcond]
        exact h.counted
      told := by
        intro hp
        rw [isParked_eq_false (.inr rfl)] at hp
        cases hp }

/-- **A calm call tells the runner nothing.** -/
theorem calmed_call (env : Env) {σ₀ σ : Mill} {count : TicketId → Nat} {op : Op} (hop : isCalm op = true)
    (h : σ.records.AllRows (Calmed cfg σ₀ count)) : (op.run env σ).1.records.AllRows (Calmed cfg σ₀ count) :=
  records_invariant_op routine_calm (stable_calmed σ₀ count) (admits_of_isCalm hop) h rfl

/-- Nor do the comments on deadlocks. -/
theorem calmed_escalateMembers (env : Env) {σ₀ : Mill} {count : TicketId → Nat} (board : BoardId) (note : String)
    (tids : List TicketId) (done : Mill × Nat) (h : done.1.records.AllRows (Calmed cfg σ₀ count)) :
    (escalateMembers env board note tids done).1.records.AllRows (Calmed cfg σ₀ count) := by
  induction tids generalizing done with
  | nil => exact h
  | cons tid tids ih =>
      apply ih
      have hcalm : isCalm (.addComment board tid note "blocked-auto-resume" none) = true := rfl
      have hcall := calmed_call env hcalm h
      show (escalateMember env board note done.1 tid).1.records.AllRows _
      unfold escalateMember
      dsimp only
      split
      · exact h
      · split
        · rename_i heq
          exact (congrArg Prod.fst heq) ▸ hcall
        · rename_i heq
          exact (congrArg Prod.fst heq) ▸ hcall

theorem calmed_escalateCycles (env : Env) {σ₀ : Mill} {count : TicketId → Nat} (board : BoardId)
    (comps : List (List TicketId)) (done : Mill × Nat) (h : done.1.records.AllRows (Calmed cfg σ₀ count)) :
    (escalateCycles env board comps done).1.records.AllRows (Calmed cfg σ₀ count) := by
  induction comps generalizing done with
  | nil => exact h
  | cons comp comps ih => exact ih _ (calmed_escalateMembers env board (cycleNote comp) comp done h)

end Agents
end RobotsixMill
