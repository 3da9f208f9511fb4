import RobotsixMill.Stages.HardViolations
import RobotsixMill.Lib.Runs

/-!
# `Stages.CachedVerdicts` — is a review verdict ever replayed when it is stale?

The cache has one slot for the review. Its key is a hash of the spec, the diff, the head and the reviewer's
fingerprint, one after another, and of the round counter unless it is zero. The counter moves with every
REQUEST_CHANGES round, so the key of an earlier round is not met again, until the counter is set back to zero: a pause
at the round cap and a convergence block do that without a word to the cache, and what an operator says or asks for
does not move the counter at all.

- `Consistent.check_iff` — what the slot answers for, by the pass that filled it and what came after;
- `replays_fresh_iff` — along which runs every replayed verdict is fresh;
- `repeated_poll_replays`, `replayed_after_round_cap` — a replay that is fresh, and one after a round-cap pause.
-/

namespace RobotsixMill
namespace Stages
open RobotsixMill.Core Lib

/-! ## Passes, by how far they get -/

/-- What a pass comes to: no verdict at all, the operator's answer to the last question, the outcome in the cache, or
    a verdict of the agent, with the pins checked. -/
inductive PassCourse
  | unfinished
  | answered
  | replayed (input : ReviewInput)
  | judged (input : ReviewInput) (v : ReviewVerdict)
deriving DecidableEq, Repr

variable (sha256 : String → String)

/-- The course of a pass that has looked into the cache. -/
def courseAfterLookup (p : ReviewPass) (input : ReviewInput) (cached : Option StageOutcome) : PassCourse :=
  match cached with
  | some _ => .replayed input
  | none =>
    match p.agent with
    | .transient => .unfinished
    | .failed _ => .unfinished
    | .verdict v => .judged input (p.checked v)

/-- The course of a pass. -/
def passCourse (p : ReviewPass) (st : ReviewState) : PassCourse :=
  if !p.hasClone then .unfinished
  else match p.diff with
    | .transient => .unfinished
    | .failed _ => .unfinished
    | .ok diff =>
      if isBlank diff then .unfinished
      else if (unaddressedChangeAnswer p (sha256 diff) st).1.isSome then .answered
      else courseAfterLookup p (p.input diff)
        (st.cache.check "review" (reviewInputHash sha256 (p.input diff) st.reviewRounds))

/-- The pass looks into the cache for what it knows about this diff. -/
structure LooksUp (p : ReviewPass) (st : ReviewState) (diff : String) : Prop where
  hasClone : p.hasClone = true
  hasDiff : p.diff = .ok diff
  notBlank : isBlank diff = false
  unanswered : (unaddressedChangeAnswer p (sha256 diff) st).1 = none

/-- What makes an earlier verdict stale. -/
inductive Happening
  | round | convergence | roundCap | reply | request
deriving DecidableEq, Repr

/-- The round counter after it. -/
def Happening.counter (rounds : Nat) : Happening → Nat
  | .round => rounds + 1
  | .convergence => 0
  | .roundCap => 0
  | .reply => rounds
  | .request => rounds

/-- The outcome that a pass leaves in the cache. -/
def cachedOutcome : ReviewResult → Option StageOutcome
  | .ok outcome =>
    if outcome.nextState = .blocked ∨ outcome.nextState = .awaitingUserReply then none else some outcome
  | .error _ => none

/-- What a verdict that leaves no outcome in the cache does to the ticket. -/
def happenings (v : ReviewVerdict) (result : ReviewResult) : List Happening :=
  if v.verdict = .requestChanges then
    match result with
    | .ok outcome => if outcome.nextState = .blocked then [.convergence] else [.roundCap]
    | .error _ => [.round]
  else []

variable {sha256} {p : ReviewPass} {ctx : ReviewContext} {v : ReviewVerdict} {st : ReviewState} {inputHash : String}

/-! ## What a verdict does to the cache and the counter -/

/-- The outcome goes to the cache, or the cache stays and the counter is moved by what happened. -/
structure Books (inputHash : String) (v : ReviewVerdict) (before : ReviewState) (result : ReviewResult × ReviewState) :
    Prop where
  cached : ∀ outcome, cachedOutcome result.1 = some outcome →
    result.2.cache = before.cache.update "review" inputHash outcome
  uncached : cachedOutcome result.1 = none → result.2.cache = before.cache ∧
    result.2.reviewRounds = (happenings v result.1).foldl Happening.counter before.reviewRounds

theorem cachedOutcome_of_ne {outcome : StageOutcome} (hblocked : outcome.nextState ≠ .blocked)
    (hawaiting : outcome.nextState ≠ .awaitingUserReply) : cachedOutcome (.ok outcome) = some outcome := by
  rw [cachedOutcome, if_neg]
  exact not_or.2 ⟨hblocked, hawaiting⟩

theorem ne_blocked_of_cachedOutcome {result : ReviewResult} {outcome : StageOutcome}
    (h : cachedOutcome result = some outcome) : outcome.nextState ≠ .blocked := by
  cases result with
  | error e => cases h
  | ok returned =>
      rw [cachedOutcome] at h
      split at h
      · cases h
      · rename_i hnot
        obtain rfl := Option.some.inj h
        exact fun hblocked => hnot (Or.inl hblocked)

theorem maybeCache_cache (hne : inputHash ≠ "") {outcome : StageOutcome} (hawaiting : outcome.nextState ≠ .awaitingUserReply)
    (st : ReviewState) : (maybeCache inputHash outcome st).cache = st.cache.update "review" inputHash outcome := by
  rw [maybeCache, if_pos]
  rw [Bool.and_eq_true, decide_eq_true_iff, decide_eq_true_iff]
  exact ⟨hne, hawaiting⟩

/-- A verdict whose outcome is stored. -/
theorem Books.of_cached (hne : inputHash ≠ "") {outcome : StageOutcome} (hblocked : outcome.nextState ≠ .blocked)
    (hawaiting : outcome.nextState ≠ .awaitingUserReply) {before st : ReviewState} (hcache : st.cache = before.cache) :
    Books inputHash v before (.ok outcome, maybeCache inputHash outcome st) where
  cached outcome' h := by
    rw [cachedOutcome_of_ne hblocked hawaiting] at h
    obtain rfl := Option.some.inj h
    rw [← hcache]
    exact maybeCache_cache hne hawaiting st
  uncached h := by
    rw [cachedOutcome_of_ne hblocked hawaiting] at h
    cases h

/-- A round that raises. -/
theorem Books.of_raised (hverdict : v.verdict = .requestChanges) {e : ReviewError} {before st : ReviewState}
    (hcache : st.cache = before.cache) (hrounds : st.reviewRounds = before.reviewRounds + 1) :
    Books inputHash v before (.error e, st) where
  cached outcome h := by cases h
  uncached _ := by
    refine ⟨hcache, ?_⟩
    rw [happenings, if_pos hverdict]
    exact hrounds

theorem settleAsks_books (hne : inputHash ≠ "") (hverdict : v.verdict = .requestChanges) {before st : ReviewState}
    (asks : RoutedAsks) (hcache : st.cache = before.cache) (hrounds : st.reviewRounds = before.reviewRounds + 1) :
    Books inputHash v before (settleAsks inputHash v asks st) := by
  rw [settleAsks]
  split
  · split
    · exact .of_raised hverdict hcache hrounds
    · exact .of_cached hne State.noConfusion State.noConfusion hcache
  · split
    · exact .of_cached hne State.noConfusion State.noConfusion hcache
    · split <;> exact .of_cached hne State.noConfusion State.noConfusion hcache

/-- Tickets and comments leave the cache and the counter alone. -/
theorem spawnFollowUps_keeps (asks : List ReviewAsk) (st : ReviewState) :
    (spawnFollowUps ctx asks st).2.cache = st.cache ∧ (spawnFollowUps ctx asks st).2.reviewRounds = st.reviewRounds := by
  obtain ⟨posts, followUps, h⟩ := @spawnFollowUps_writes ctx asks st
  rw [h]
  exact ⟨rfl, rfl⟩

theorem postAddressed_keeps {asks : List ReviewAsk} {st st' : ReviewState} (h : postAddressed asks st = .ok st') :
    st'.cache = st.cache ∧ st'.reviewRounds = st.reviewRounds := by
  obtain ⟨posts, rfl⟩ := postAddressed_writes h
  exact ⟨rfl, rfl⟩

theorem routeVerdict_books (hne : inputHash ≠ "") (hverdict : v.verdict = .requestChanges) {before st : ReviewState}
    (hcache : st.cache = before.cache) (hrounds : st.reviewRounds = before.reviewRounds + 1) :
    Books inputHash v before (routeVerdict ctx inputHash v st) := by
  rw [routeVerdict]
  split
  · exact .of_raised hverdict hcache hrounds
  · rename_i posted hposted
    have hkept : posted.cache = st.cache ∧ posted.reviewRounds = st.reviewRounds := by
      split at hposted
      · obtain rfl := Except.ok.inj hposted
        exact ⟨rfl, rfl⟩
      · exact postAddressed_keeps hposted
    have hspawned : ∀ asks : List ReviewAsk,
        (if asks.isEmpty then (.ok (), posted) else spawnFollowUps ctx asks posted).2.cache = before.cache ∧
          (if asks.isEmpty then (.ok (), posted) else spawnFollowUps ctx asks posted).2.reviewRounds =
            before.reviewRounds + 1 := by
      intro asks
      rw [← hcache, ← hrounds, ← hkept.1, ← hkept.2]
      split
      · exact ⟨rfl, rfl⟩
      · exact spawnFollowUps_keeps asks posted
    split
    · rename_i e st' heq
      have hboth := hspawned (routeAsks ctx.verifyClaim ctx.fileMap ctx.modifiedPaths v.requestChanges).stillOutOfScope
      rw [heq] at hboth
      exact .of_raised hverdict hboth.1 hboth.2
    · rename_i st' heq
      have hboth := hspawned (routeAsks ctx.verifyClaim ctx.fileMap ctx.modifiedPaths v.requestChanges).stillOutOfScope
      rw [heq] at hboth
      exact settleAsks_books hne hverdict _ hboth.1 hboth.2

theorem handleRoundCap_books (hne : inputHash ≠ "") (hverdict : v.verdict = .requestChanges) {before st : ReviewState}
    (hcache : st.cache = before.cache) :
    Books inputHash v before (.ok (handleRoundCap ctx inputHash v st).1, (handleRoundCap ctx inputHash v st).2) := by
  rw [handleRoundCap]
  dsimp only
  split
  · exact .of_cached hne State.noConfusion State.noConfusion hcache
  · constructor
    · intro outcome h
      cases h
    · intro _
      refine ⟨hcache, ?_⟩
      rw [happenings, if_pos hverdict]
      rfl

theorem convergence_books (hverdict : v.verdict = .requestChanges) {before st : ReviewState} (note : String)
    (hcache : st.cache = before.cache) :
    Books inputHash v before (.ok (.block note), maybeCache inputHash (.block note) (st.setRounds 0)) := by
  have hkept : (maybeCache inputHash (.block note) (st.setRounds 0)).cache = before.cache ∧
      (maybeCache inputHash (.block note) (st.setRounds 0)).reviewRounds = 0 := by
    rw [maybeCache]
    split <;> exact ⟨hcache, rfl⟩
  constructor
  · intro outcome h
    cases h
  · intro _
    refine ⟨hkept.1, ?_⟩
    rw [happenings, if_pos hverdict]
    exact hkept.2

/-- **What a verdict leaves.** -/
theorem handleReviewVerdict_books (hne : inputHash ≠ "") (ctx : ReviewContext) (v : ReviewVerdict) (st : ReviewState) :
    Books inputHash v st (handleReviewVerdict sha256 ctx inputHash v st) := by
  rw [handleReviewVerdict]
  split
  · exact .of_cached hne State.noConfusion State.noConfusion rfl
  · rename_i hverdict
    rw [handleRequestChanges]
    dsimp only
    split
    · exact handleRoundCap_books hne hverdict rfl
    · rw [detectConvergence]
      split
      · rename_i outcome st' heq
        split at heq
        · obtain ⟨hblock, rfl⟩ := Prod.mk.inj heq
          obtain rfl := Option.some.inj hblock
          exact convergence_books hverdict _ rfl
        · cases heq
      · rename_i st' heq
        split at heq
        · cases heq
        · obtain ⟨-, rfl⟩ := Prod.mk.inj heq
          exact routeVerdict_books hne hverdict rfl rfl
  · rename_i hverdict
    have hstays (st : ReviewState) (outcome : StageOutcome) (h : outcome.nextState = .awaitingUserReply) :
        maybeCache inputHash outcome st = st := by
      rw [maybeCache, if_neg]
      simp [h]
    constructor
    · intro outcome h
      cases h
    · intro _
      dsimp only
      rw [hstays _ _ rfl]
      refine ⟨rfl, ?_⟩
      rw [happenings, if_neg (by rw [hverdict]; exact Verdict.noConfusion)]
      rfl

/-! ## What a pass does -/

theorem passCourse_of_looksUp {diff : String} (h : LooksUp sha256 p st diff) : passCourse sha256 p st =
    courseAfterLookup p (p.input diff)
      (st.cache.check "review" (reviewInputHash sha256 (p.input diff) st.reviewRounds)) := by
  rw [passCourse, h.hasClone, h.hasDiff]
  dsimp only
  rw [h.notBlank, h.unanswered]
  rfl

/-- Nothing in the cache or on the counter is different. -/
def SameBooks (before after : ReviewState) : Prop :=
  after.cache = before.cache ∧ after.reviewRounds = before.reviewRounds

/-- A pass that does not look into the cache returns early, or goes back with the operator's answer. -/
theorem reviewRun_of_not_looksUp (h : ∀ diff, ¬ LooksUp sha256 p st diff) :
    (passCourse sha256 p st = .unfinished ∧ SameBooks st (reviewRun sha256 p st).2) ∨
      (passCourse sha256 p st = .answered ∧ (reviewRun sha256 p st).2.cache = st.cache ∧
        (reviewRun sha256 p st).2.reviewRounds = st.reviewRounds + 1) := by
  rw [passCourse, reviewRun]
  cases hclone : p.hasClone with
  | false => exact Or.inl ⟨rfl, rfl, rfl⟩
  | true =>
      cases hdiff : p.diff with
      | transient => exact Or.inl ⟨rfl, rfl, rfl⟩
      | failed error => exact Or.inl ⟨rfl, rfl, rfl⟩
      | ok diff =>
          dsimp only
          cases hblank : isBlank diff with
          | true => exact Or.inl ⟨rfl, rfl, rfl⟩
          | false =>
              obtain ⟨marker, hmarker⟩ := unaddressedChangeAnswer_state p (sha256 diff) st
              cases hanswer : (unaddressedChangeAnswer p (sha256 diff) st).1 with
              | none => exact absurd ⟨hclone, hdiff, hblank, hanswer⟩ (h diff)
              | some answer =>
                  have heq : unaddressedChangeAnswer p (sha256 diff) st =
                      (some answer, { st with askUserDiff := marker }) := Prod.ext hanswer hmarker
                  rw [heq]
                  exact Or.inr ⟨rfl, rfl, rfl⟩

/-- A pass that does replays what the cache has, or judges a verdict of its agent, or has none. -/
theorem reviewRun_of_looksUp {diff : String} (h : LooksUp sha256 p st diff) :
    (∃ cached, st.cache.check "review" (reviewInputHash sha256 (p.input diff) st.reviewRounds) = some cached ∧
        (reviewRun sha256 p st).1 = .ok cached ∧ SameBooks st (reviewRun sha256 p st).2) ∨
      st.cache.check "review" (reviewInputHash sha256 (p.input diff) st.reviewRounds) = none ∧
        ((passCourse sha256 p st = .unfinished ∧ SameBooks st (reviewRun sha256 p st).2) ∨
          ∃ v, passCourse sha256 p st = .judged (p.input diff) v ∧
            ∃ marker judged, judged = handleReviewVerdict sha256 p.toReviewContext
                (reviewInputHash sha256 (p.input diff) st.reviewRounds) v { st with askUserDiff := marker } ∧
              (reviewRun sha256 p st).1 = judged.1 ∧ SameBooks judged.2 (reviewRun sha256 p st).2) := by
  rw [passCourse_of_looksUp h]
  obtain ⟨marker, hmarker⟩ := unaddressedChangeAnswer_state p (sha256 diff) st
  have hanswer : unaddressedChangeAnswer p (sha256 diff) st = (none, { st with askUserDiff := marker }) :=
    Prod.ext h.unanswered hmarker
  have hrun : reviewRun sha256 p st =
      match st.cache.check "review" (reviewInputHash sha256 (p.input diff) st.reviewRounds) with
      | some cached => (.ok cached, { st with askUserDiff := marker })
      | none => reviewAfresh sha256 p (sha256 diff) (reviewInputHash sha256 (p.input diff) st.reviewRounds)
          { st with askUserDiff := marker } := by
    rw [reviewRun, h.hasClone, h.hasDiff]
    dsimp only
    rw [h.notBlank, hanswer]
    rfl
  cases hcheck : st.cache.check "review" (reviewInputHash sha256 (p.input diff) st.reviewRounds) with
  | some cached =>
      rw [hcheck] at hrun
      rw [hrun]
      exact Or.inl ⟨cached, rfl, rfl, rfl, rfl⟩
  | none =>
      rw [hcheck] at hrun
      rw [hrun]
      dsimp only [courseAfterLookup]
      rw [reviewAfresh]
      refine Or.inr ⟨rfl, ?_⟩
      cases p.agent with
      | transient => exact Or.inl ⟨rfl, rfl, rfl⟩
      | failed error => exact Or.inl ⟨rfl, rfl, rfl⟩
      | verdict v =>
          refine Or.inr ⟨p.checked v, rfl, marker, _, rfl, rfl, ?_⟩
          dsimp only
          split <;> exact ⟨rfl, rfl⟩

/-! ## The ticket, and what happens to it -/

/-- The pass that filled the slot: what it judged, and the counter before and after it. -/
structure Producer where
  input : ReviewInput
  rounds : Nat
  left : Nat
deriving DecidableEq, Repr

/-- What the stage keeps about the ticket, with the pass that filled the slot, what happened to the ticket since, and
    the input for which the last pass replayed a verdict, if it did. -/
structure ReviewedTicket where
  review : ReviewState := {}
  producer : Option Producer := none
  since : List Happening := []
  replayed : Option ReviewInput := none

/-- A review pass, an operator's reply or request for changes, the rebase that clears the slot, or anything that does
    not touch what the stage keeps: a push, an edit of the spec, a block, a resume. -/
inductive TicketEvent
  | pass (p : ReviewPass)
  | reply
  | requestImplementationChanges
  | rebase
  | elsewhere

variable (sha256)

/-- The ticket after a pass. -/
def ReviewedTicket.afterPass (t : ReviewedTicket) (p : ReviewPass) : ReviewedTicket :=
  let result := reviewRun sha256 p t.review
  match passCourse sha256 p t.review with
  | .unfinished => { t with review := result.2, replayed := none }
  | .answered => { t with review := result.2, since := t.since ++ [.round], replayed := none }
  | .replayed input => { t with review := result.2, replayed := some input }
  | .judged input v =>
    if (cachedOutcome result.1).isSome then
      { review := result.2
        producer := some { input, rounds := t.review.reviewRounds, left := result.2.reviewRounds } }
    else { t with review := result.2, since := t.since ++ happenings v result.1, replayed := none }

/-- One event. -/
def ReviewedTicket.after (t : ReviewedTicket) : TicketEvent → ReviewedTicket
  | .pass p => t.afterPass sha256 p
  | .reply => { t with since := t.since ++ [.reply], replayed := none }
  | .requestImplementationChanges => { t with since := t.since ++ [.request], replayed := none }
  | .rebase => { review := { t.review with cache := t.review.cache.invalidate "review" } }
  | .elsewhere => { t with replayed := none }

def ReviewedTicket.Step (t : ReviewedTicket) (ev : TicketEvent) (t' : ReviewedTicket) : Prop :=
  t' = t.after sha256 ev

variable {sha256}

/-- A replayed verdict is one on the same input, and nothing has happened since it was given. -/
def ReplaysFresh (t : ReviewedTicket) : Prop :=
  ∀ input, t.replayed = some input → ∃ w, t.producer = some w ∧ w.input = input ∧ t.since = []

/-- The round counter, by what happened since the slot was filled. -/
def ReviewedTicket.counter (t : ReviewedTicket) (w : Producer) : Nat := t.since.foldl Happening.counter w.left

/-- The key of an input is not the slot's by accident: another input is not written the same, and after something
    happened the counter is not what it was. -/
structure KeysApart (t : ReviewedTicket) (w : Producer) (input : ReviewInput) : Prop where
  inputs : input ≠ w.input → input.text (t.counter w) ≠ w.input.text w.rounds
  rounds : t.since ≠ [] → input = w.input → t.counter w ≠ w.rounds

variable (sha256) in
/-- The lookup of a pass finds what is fresh, or nothing. -/
def KeyHolds (t : ReviewedTicket) : TicketEvent → Prop
  | .pass p => ∀ diff w, LooksUp sha256 p t.review diff → t.producer = some w → KeysApart t w (p.input diff)
  | _ => True

/-- SHA-256, as far as the cache relies on it: no two texts have the same digest, and no digest is empty. -/
structure Digest (sha256 : String → String) : Prop where
  injective : Function.Injective sha256
  nonempty : ∀ text, sha256 text ≠ ""

variable (sha256) in
/-- The slot and the counter are as the producer and the happenings tell. -/
structure Consistent (t : ReviewedTicket) : Prop where
  slot_of_none : t.producer = none → t.review.cache "review" = none
  slot : ∀ w, t.producer = some w → ∃ state note, state ≠ .blocked ∧
    t.review.cache "review" = some ⟨reviewInputHash sha256 w.input w.rounds, some state, note⟩
  counter : ∀ w, t.producer = some w → t.review.reviewRounds = t.counter w

variable {t : ReviewedTicket}

theorem ReviewInput.text_eq_iff {i j : ReviewInput} {m n : Nat} (h : i = j) : i.text m = j.text n ↔ m = n := by
  subst h
  rw [ReviewInput.text, ReviewInput.text, String.append_right_inj]
  cases m with
  | zero => cases n <;> simp
  | succ m =>
      cases n with
      | zero => simp
      | succ n =>
          rw [if_pos (Nat.succ_pos m), if_pos (Nat.succ_pos n)]
          constructor
          · intro htext
            have hparse := parseInt_toString (m + 1)
            rw [htext, parseInt_toString] at hparse
            exact Int.ofNat.inj (Option.some.inj hparse).symm
          · intro heq
            rw [heq]

/-- The slot answers for an input exactly if it is written as the producer's was. -/
theorem Consistent.check_iff (hc : Consistent sha256 t) (hd : Digest sha256) (input : ReviewInput) :
    (∃ cached, t.review.cache.check "review" (reviewInputHash sha256 input t.review.reviewRounds) = some cached) ↔
      ∃ w, t.producer = some w ∧ input.text (t.counter w) = w.input.text w.rounds := by
  cases hw : t.producer with
  | none => simp [StageCache.check, hc.slot_of_none hw]
  | some w =>
      obtain ⟨state, note, hblocked, hslot⟩ := hc.slot w hw
      rw [StageCache.check, hslot, hc.counter w hw]
      by_cases htext : input.text (t.counter w) = w.input.text w.rounds
      · have hhash : reviewInputHash sha256 w.input w.rounds = reviewInputHash sha256 input (t.counter w) :=
          congrArg sha256 htext.symm
        refine iff_of_true ?_ ⟨w, rfl, htext⟩
        dsimp only
        rw [hhash, if_neg (not_not.2 rfl)]
        cases state <;> first | exact absurd rfl hblocked | exact ⟨_, rfl⟩
      · have hhash : reviewInputHash sha256 w.input w.rounds ≠ reviewInputHash sha256 input (t.counter w) :=
          fun heq => htext (hd.injective heq).symm
        refine iff_of_false ?_ ?_
        · dsimp only
          rw [if_pos hhash]
          rintro ⟨cached, hcached⟩
          cases hcached
        · rintro ⟨w', hw', htext'⟩
          obtain rfl := Option.some.inj hw'
          exact htext htext'

/-! ### Steps -/

theorem consistent_start : Consistent sha256 {} where
  slot_of_none _ := rfl
  slot w hw := by cases hw
  counter w hw := by cases hw

/-- The slot is the same, and the counter follows what happened. -/
theorem Consistent.of_slot {t' : ReviewedTicket} (hc : Consistent sha256 t) (hproducer : t'.producer = t.producer)
    (hcache : t'.review.cache = t.review.cache)
    (hcounter : ∀ w, t.producer = some w → t'.review.reviewRounds = t'.counter w) : Consistent sha256 t' where
  slot_of_none hnone := by
    rw [hcache]
    exact hc.slot_of_none (hproducer ▸ hnone)
  slot w hw := by
    rw [hcache]
    exact hc.slot w (hproducer ▸ hw)
  counter w hw := hcounter w (hproducer ▸ hw)

/-- What happens later moves the counter on. -/
theorem counter_append (t : ReviewedTicket) (w : Producer) (later : List Happening) :
    (t.since ++ later).foldl Happening.counter w.left = later.foldl Happening.counter (t.counter w) :=
  List.foldl_append

/-- A verdict that is stored fills the slot. -/
theorem consistent_of_stored {input : ReviewInput} {rounds : Nat} {review : ReviewState} {cache : StageCache}
    {outcome : StageOutcome} {result : ReviewResult} (hstored : cachedOutcome result = some outcome)
    (hcache : review.cache = cache.update "review" (reviewInputHash sha256 input rounds) outcome) :
    Consistent sha256 { review, producer := some { input, rounds, left := review.reviewRounds } } where
  slot_of_none h := by cases h
  slot w hw := by
    obtain rfl := Option.some.inj hw
    have hblocked := ne_blocked_of_cachedOutcome hstored
    refine ⟨outcome.nextState, outcome.note.getD "", hblocked, ?_⟩
    show review.cache "review" = _
    rw [hcache, StageCache.update, if_neg hblocked]
    rfl
  counter w hw := by
    obtain rfl := Option.some.inj hw
    rfl

theorem Consistent.afterPass (hc : Consistent sha256 t) (hd : Digest sha256) (p : ReviewPass) :
    Consistent sha256 (t.afterPass sha256 p) := by
  -- a pass that stores nothing and only moves the counter
  have hmoved (review : ReviewState) (later : List Happening) (replayed : Option ReviewInput)
      (hcache : review.cache = t.review.cache)
      (hrounds : review.reviewRounds = later.foldl Happening.counter t.review.reviewRounds) :
      Consistent sha256 { t with review, since := t.since ++ later, replayed } := by
    refine hc.of_slot rfl hcache fun w hw => ?_
    show review.reviewRounds = (t.since ++ later).foldl Happening.counter w.left
    rw [counter_append, hrounds, hc.counter w hw]
  have hsame (review : ReviewState) (replayed : Option ReviewInput) (h : SameBooks t.review review) :
      Consistent sha256 { t with review, replayed } := by
    refine hc.of_slot rfl h.1 fun w hw => ?_
    show review.reviewRounds = t.counter w
    rw [h.2, hc.counter w hw]
  rw [ReviewedTicket.afterPass]
  by_cases hlooks : ∃ diff, LooksUp sha256 p t.review diff
  · obtain ⟨diff, hlooks⟩ := hlooks
    obtain ⟨cached, hcheck, -, hbooks⟩ | ⟨-, ⟨hcourse, hbooks⟩ | ⟨v, hcourse, marker, judged, rfl, hresult, hbooks⟩⟩ :=
      reviewRun_of_looksUp hlooks
    · rw [passCourse_of_looksUp hlooks, hcheck]
      exact hsame _ _ hbooks
    · rw [hcourse]
      exact hsame _ _ hbooks
    · rw [hcourse]
      dsimp only
      have hhash : reviewInputHash sha256 (p.input diff) t.review.reviewRounds ≠ "" := hd.nonempty _
      have hwrites := @handleReviewVerdict_books sha256 _ hhash p.toReviewContext v
        { t.review with askUserDiff := marker }
      rw [hresult]
      split
      · rename_i hstored
        obtain ⟨outcome, hstored⟩ := Option.isSome_iff_exists.1 hstored
        exact consistent_of_stored hstored (hbooks.1.trans (hwrites.cached outcome hstored))
      · rename_i hnone
        obtain ⟨hcache, hrounds⟩ := hwrites.uncached (by simpa using hnone)
        exact hmoved _ _ _ (hbooks.1.trans hcache) (hbooks.2.trans hrounds)
  · obtain ⟨hcourse, hbooks⟩ | ⟨hcourse, hcache, hrounds⟩ :=
      reviewRun_of_not_looksUp fun diff h => hlooks ⟨diff, h⟩
    · rw [hcourse]
      exact hsame _ _ hbooks
    · rw [hcourse]
      exact hmoved _ _ _ hcache hrounds

theorem consistent_step (hd : Digest sha256) {ev : TicketEvent} {t' : ReviewedTicket} (hc : Consistent sha256 t)
    (hstep : ReviewedTicket.Step sha256 t ev t') : Consistent sha256 t' := by
  obtain rfl := hstep
  -- an operator's word is noted, and the counter stays
  have hnoted (happening : Happening) (h : ∀ n, Happening.counter n happening = n) :
      Consistent sha256 { t with since := t.since ++ [happening], replayed := none } := by
    refine hc.of_slot rfl rfl fun w hw => ?_
    show t.review.reviewRounds = (t.since ++ [happening]).foldl Happening.counter w.left
    rw [counter_append, hc.counter w hw]
    exact (h _).symm
  cases ev with
  | pass p => exact hc.afterPass hd p
  | reply => exact hnoted .reply fun _ => rfl
  | requestImplementationChanges => exact hnoted .request fun _ => rfl
  | rebase =>
      constructor
      · intro _
        rfl
      · intro w hw
        cases hw
      · intro w hw
        cases hw
  | elsewhere => exact hc.of_slot rfl rfl fun w hw => hc.counter w hw

/-- What a pass replays. -/
theorem replayed_afterPass (t : ReviewedTicket) (p : ReviewPass) (input : ReviewInput) :
    (t.afterPass sha256 p).replayed = some input ↔ passCourse sha256 p t.review = .replayed input := by
  rw [ReviewedTicket.afterPass]
  cases passCourse sha256 p t.review with
  | unfinished => simp
  | answered => simp
  | replayed i => simp
  | judged i v =>
      dsimp only
      split <;> simp

/-- The verdict that a pass replays is fresh exactly if the key of its input is not the slot's by accident. -/
theorem replaysFresh_afterPass_iff (hc : Consistent sha256 t) (hd : Digest sha256) (p : ReviewPass) :
    ReplaysFresh (t.afterPass sha256 p) ↔ KeyHolds sha256 t (.pass p) := by
  -- a replay leaves the producer and what happened since alone
  have hkept (input : ReviewInput) (h : passCourse sha256 p t.review = .replayed input) :
      (t.afterPass sha256 p).producer = t.producer ∧ (t.afterPass sha256 p).since = t.since := by
    rw [ReviewedTicket.afterPass, h]
    exact ⟨rfl, rfl⟩
  have hreplays {diff : String} (hlooks : LooksUp sha256 p t.review diff) {w : Producer} (hw : t.producer = some w)
      (htext : (p.input diff).text (t.counter w) = w.input.text w.rounds) :
      passCourse sha256 p t.review = .replayed (p.input diff) := by
    obtain ⟨cached, hcached⟩ := (hc.check_iff hd (p.input diff)).2 ⟨w, hw, htext⟩
    rw [passCourse_of_looksUp hlooks, hcached]
    rfl
  constructor
  · intro hfresh diff w hlooks hw
    have hmatch : (p.input diff).text (t.counter w) = w.input.text w.rounds → w.input = p.input diff ∧ t.since = [] := by
      intro htext
      have hcourse := hreplays hlooks hw htext
      obtain ⟨w', hw', hinput, hsince⟩ := hfresh _ ((replayed_afterPass t p _).2 hcourse)
      rw [(hkept _ hcourse).1, hw] at hw'
      obtain rfl := Option.some.inj hw'
      exact ⟨hinput, (hkept _ hcourse).2 ▸ hsince⟩
    constructor
    · intro hne htext
      exact hne (hmatch htext).1.symm
    · intro hsince heq hrounds
      exact hsince (hmatch ((ReviewInput.text_eq_iff heq).2 hrounds)).2
  · intro hholds input hreplayed
    have hcourse := (replayed_afterPass t p input).1 hreplayed
    rw [(hkept _ hcourse).1, (hkept _ hcourse).2]
    obtain ⟨diff, hlooks⟩ : ∃ diff, LooksUp sha256 p t.review diff := by
      by_contra hnone
      obtain ⟨hother, -⟩ | ⟨hother, -⟩ := reviewRun_of_not_looksUp fun diff h => hnone ⟨diff, h⟩
      · rw [hother] at hcourse
        cases hcourse
      · rw [hother] at hcourse
        cases hcourse
    rw [passCourse_of_looksUp hlooks] at hcourse
    cases hcheck : t.review.cache.check "review" (reviewInputHash sha256 (p.input diff) t.review.reviewRounds) with
    | none =>
        rw [hcheck, courseAfterLookup] at hcourse
        cases hagent : p.agent with
        | transient =>
            rw [hagent] at hcourse
            cases hcourse
        | failed error =>
            rw [hagent] at hcourse
            cases hcourse
        | verdict v =>
            rw [hagent] at hcourse
            cases hcourse
    | some cached =>
        rw [hcheck] at hcourse
        obtain rfl := PassCourse.replayed.inj hcourse
        obtain ⟨w, hw, htext⟩ := (hc.check_iff hd _).1 ⟨cached, hcheck⟩
        obtain ⟨hinputs, hrounds⟩ := hholds diff w hlooks hw
        have heq : p.input diff = w.input := by
          by_contra hne
          exact hinputs hne htext
        refine ⟨w, hw, heq.symm, ?_⟩
        by_contra hsince
        exact hrounds hsince heq ((ReviewInput.text_eq_iff heq).1 htext)

theorem replaysFresh_step_iff (hd : Digest sha256) {ev : TicketEvent} {t' : ReviewedTicket}
    (hc : Consistent sha256 t) (hstep : ReviewedTicket.Step sha256 t ev t') :
    ReplaysFresh t' ↔ KeyHolds sha256 t ev := by
  obtain rfl := hstep
  cases ev with
  | pass p => exact replaysFresh_afterPass_iff hc hd p
  | reply => exact iff_of_true (fun input h => by cases h) trivial
  | requestImplementationChanges => exact iff_of_true (fun input h => by cases h) trivial
  | rebase => exact iff_of_true (fun input h => by cases h) trivial
  | elsewhere => exact iff_of_true (fun input h => by cases h) trivial

/-- **When no stale verdict is replayed.** Along a run every verdict that a pass takes from the cache was given on the
    same spec, diff, head and reviewer, with no round, convergence block, pause at the cap, reply or request since,
    exactly if at each lookup another input is not written as the slot's is, and after something happened the counter
    is not what it was when the slot was filled. -/
theorem replays_fresh_iff (hd : Digest sha256) {events : List TicketEvent} {t : ReviewedTicket}
    (hrun : Lib.Run (ReviewedTicket.Step sha256) {} events t) :
    Lib.Run.Always (ReviewedTicket.Step sha256) ReplaysFresh {} events ↔
      Lib.Run (Lib.Guarded (KeyHolds sha256) (ReviewedTicket.Step sha256)) {} events t := by
  apply Lib.Run.always_iff_guarded_of_invariant (J := Consistent sha256)
  · intro s ev t t' ht ht'
    exact ht.trans ht'.symm
  · intro s ev t hs hstep
    exact consistent_step hd hs hstep
  · intro s ev t hs _ hstep
    exact replaysFresh_step_iff hd hs hstep
  · exact hrun
  · exact consistent_start
  · intro input h
    cases h

/-! ### A pause at the round cap -/

/-- A digest that shows its text. -/
def shownDigest (text : String) : String := "sha256:" ++ text

theorem digest_shownDigest : Digest shownDigest where
  injective _ _ h := (String.append_right_inj _).1 h
  nonempty text h := by
    have hlist := congrArg String.toList h
    rw [shownDigest, String.toList_append] at hlist
    cases hlist

/-- A pass over the same diff each time, on which the agent says the same. -/
def repeatedPass (verdict : Verdict) (asks : List ReviewAsk) : ReviewPass where
  reviewMaxRounds := 2
  ticketId := "t-1"
  fileMap := none
  modifiedPaths := ["src/app.py"]
  verifyClaim _ _ := false
  comments := []
  accepts _ _ := true
  followUpId _ := "t-2"
  hasClone := true
  diff := .ok "+flag"
  spec := "Add it."
  headSha := "c0ffee"
  reviewerFingerprint := ""
  actionRefs := []
  reusableWorkflowRefs := []
  approval := none
  requestsChange _ := false
  verifyActionSha _ _ := none
  shaIsOlderThan _ _ _ := none
  agent := .verdict { verdict, comments := "A finding.", requestChanges := asks }

def approvingPass : ReviewPass := repeatedPass .approve []

def objectingPass : ReviewPass :=
  repeatedPass .requestChanges [{ title := "Add a test", description := "Add a test.", filesTouched := ["src/app.py"] }]

/-- An approval, and the next poll. -/
theorem repeated_poll_replays : Lib.Run.Always (ReviewedTicket.Step shownDigest) ReplaysFresh {}
    [.pass approvingPass, .pass approvingPass] := by
  have hrun : Lib.Run (ReviewedTicket.Step shownDigest) {} [.pass approvingPass, .pass approvingPass] _ :=
    .cons rfl (.cons rfl (.nil _))
  apply (replays_fresh_iff digest_shownDigest hrun).2
  refine .cons ⟨fun diff w _ hw => (by cases hw), rfl⟩ (.cons ⟨?_, rfl⟩ (.nil _))
  intro diff w hlooks hw
  obtain rfl : ⟨approvingPass.input "+flag", 0, 0⟩ = w := Option.some.inj hw
  obtain rfl : "+flag" = diff := DiffResult.ok.inj hlooks.hasDiff
  exact ⟨fun hne => absurd rfl hne, fun hsince => absurd rfl hsince⟩

/-- Two rounds with the same finding end at the cap; the operator replies, the ticket is resumed, and the verdict of
    the first round is replayed. -/
theorem replayed_after_round_cap : ¬ ∀ (sha256 : String → String), Digest sha256 → ∀ (events : List TicketEvent)
    (t : ReviewedTicket), Lib.Run (ReviewedTicket.Step sha256) {} events t →
    Lib.Run.Always (ReviewedTicket.Step sha256) ReplaysFresh {} events := by
  intro hclaim
  have hrun : Lib.Run (ReviewedTicket.Step shownDigest) {}
      [.pass objectingPass, .pass objectingPass, .reply, .elsewhere, .pass objectingPass] _ :=
    .cons rfl (.cons rfl (.cons rfl (.cons rfl (.cons rfl (.nil _)))))
  have hfresh := hclaim _ digest_shownDigest _ _ hrun _ _ List.prefix_rfl hrun
  obtain ⟨w, -, -, hsince⟩ := hfresh (objectingPass.input "+flag") rfl
  have hsince : [Happening.roundCap, Happening.reply] = [] := hsince
  cases hsince

end Stages
end RobotsixMill
