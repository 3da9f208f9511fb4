import RobotsixMill.Stages.HardViolations
import RobotsixMill.Lib.Runs
import Mathlib.Data.List.Nodup

/-!
# `Stages.RoutedAsks` — does every ask go somewhere, and only once?

An ask of a routed verdict has one of three ends: the next implement round reads it in a comment, a ticket is made of
it, or the branch was verified to address it. Nothing records which asks have become tickets: while an ask in scope
sends the ticket back, every round makes the same tickets again. An ask without a description makes the stage raise
half way, and an ask in scope that the reviewer's comment does not mention is lost unless something is spawned.

- `eachRouted_iff` — when one verdict is routed as a whole;
- `routed_once_iff` — along which runs every verdict is, and no ask is spawned twice;
- `first_round_routed`, `follow_up_spawned_again` — one round that is, and two that spawn the same ask.
-/

namespace RobotsixMill
namespace Stages
open RobotsixMill.Core Lib

variable {sha256 : String → String} {ctx : ReviewContext} {v : ReviewVerdict} {st : ReviewState} {inputHash : String}

/-! ## One verdict -/

/-- Where an ask goes in this context. -/
def ReviewContext.route (ctx : ReviewContext) (a : ReviewAsk) : AskRoute :=
  askRoute ctx.verifyClaim ctx.fileMap ctx.modifiedPaths a

/-- The line that a comment has for an ask. -/
def askLine (a : ReviewAsk) : String := takeText 200 ((firstLine a.description).getD "")

/-- One of the comments says what the ask is. -/
def Shown (posts : List String) (a : ReviewAsk) : Prop := ∃ body ∈ posts, contains body (askLine a) = true

/-- The asks of a verdict that become tickets. -/
def ReviewContext.spawned (ctx : ReviewContext) (v : ReviewVerdict) : List ReviewAsk :=
  v.requestChanges.filter (goes ctx.verifyClaim ctx.fileMap ctx.modifiedPaths .spawned)

/-- Each ask of a verdict has its end: from `before`, the routing has this result. -/
structure EachRouted (ctx : ReviewContext) (v : ReviewVerdict) (before : ReviewState)
    (result : ReviewResult × ReviewState) : Prop where
  returns : ∃ outcome, result.1 = .ok outcome
  visible : ∀ a ∈ v.requestChanges, ctx.route a = .inScope → Shown (result.2.posts.drop before.posts.length) a
  spawned : ∃ new, result.2.followUps.map FollowUp.ask = before.followUps.map FollowUp.ask ++ new ∧
    new.Perm (ctx.spawned v)
  addressed : ∀ a ∈ v.requestChanges, ctx.route a = .addressed →
    filesInDiff ctx.modifiedPaths a = true ∧ ctx.verifyClaim a.description a.filesTouched = true
  approves : ∀ outcome, result.1 = .ok outcome → outcome.nextState = .documenting →
    v.requestChanges ≠ [] ∧ ∀ a ∈ v.requestChanges, ctx.route a ≠ .inScope

/-- What a verdict has to say so that each of its asks can be routed. -/
structure Answerable (ctx : ReviewContext) (v : ReviewVerdict) : Prop where
  described : ∀ a ∈ v.requestChanges, ctx.route a ≠ .inScope → a.description ≠ ""
  accepted : ∀ a ∈ v.requestChanges, ctx.route a = .spawned → ∀ title, followUpTitle a = some title →
    ctx.accepts title (followUpBody ctx a) = true
  /-- Beside a follow-up the comment lists the asks in scope. -/
  listed : ctx.spawned v ≠ [] → ∀ a ∈ v.requestChanges, ctx.route a = .inScope → a.description ≠ ""
  /-- Otherwise they have to be in the reviewer's own words. -/
  narrated : ctx.spawned v = [] → ∀ a ∈ v.requestChanges, ctx.route a = .inScope →
    Shown (addressedComments (v.requestChanges.filter
      (goes ctx.verifyClaim ctx.fileMap ctx.modifiedPaths .addressed)) ++ [sanitizeComments v.comments]) a

theorem stillOutOfScope_eq_nil_iff : (ctx.asksOf v).stillOutOfScope = [] ↔ ctx.spawned v = [] := by
  have hperm : (ctx.asksOf v).stillOutOfScope.Perm (ctx.spawned v) := stillOutOfScope_perm
  rw [← List.perm_nil, ← List.perm_nil]
  exact ⟨hperm.symm.trans, hperm.trans⟩

/-! ### The comment that lists the asks -/

theorem exists_of_mapM {α β : Type*} {f : α → Option β} {l : List α} {bs : List β} (h : l.mapM f = some bs) {a : α}
    (ha : a ∈ l) : ∃ b ∈ bs, f a = some b := by
  induction l generalizing bs with
  | nil => exact absurd ha List.not_mem_nil
  | cons c l ih =>
      rw [List.mapM_cons] at h
      cases hc : f c with
      | none => simp [hc] at h
      | some b =>
          cases hl : l.mapM f with
          | none => simp [hc, hl] at h
          | some cs =>
              obtain rfl : b :: cs = bs := by simpa [hc, hl] using h
              obtain rfl | ha := List.mem_cons.1 ha
              · exact ⟨b, List.mem_cons_self, hc⟩
              · obtain ⟨d, hd, hfa⟩ := ih hl ha
                exact ⟨d, List.mem_cons_of_mem b hd, hfa⟩

/-- A list of asks has the line of each. -/
theorem contains_askLines {asks : List ReviewAsk} {lines : List String} (h : askLines 200 asks = some lines)
    {a : ReviewAsk} (ha : a ∈ asks) : contains ("\n".intercalate lines) (askLine a) = true := by
  obtain ⟨line, hmem, hline⟩ := exists_of_mapM h ha
  obtain ⟨first, hfirst, rfl⟩ := Option.map_eq_some_iff.1 hline
  apply contains_intercalate hmem
  rw [askLine, hfirst]
  exact contains_append_right _ (containsChars_self _)

/-! ### The end of the routing -/

@[simp] theorem maybeCache_posts (outcome : StageOutcome) (st : ReviewState) :
    (maybeCache inputHash outcome st).posts = st.posts := by
  rw [maybeCache]
  split <;> rfl

@[simp] theorem maybeCache_followUps (outcome : StageOutcome) (st : ReviewState) :
    (maybeCache inputHash outcome st).followUps = st.followUps := by
  obtain ⟨cache, h⟩ := maybeCache_writes inputHash outcome st
  rw [h]

theorem settleAsks_followUps (asks : RoutedAsks) (st : ReviewState) :
    (settleAsks inputHash v asks st).2.followUps = st.followUps := by
  obtain ⟨rounds, cache, posts, h⟩ := settleAsks_writes inputHash v asks st
  rw [h]

/-- The comment can be made unless a follow-up stands beside an ask in scope that has no description. -/
theorem inScopeBody_isSome_iff : (∃ body, inScopeBody v (ctx.asksOf v) = some body) ↔
    (ctx.spawned v ≠ [] → ∀ a ∈ v.requestChanges, ctx.route a = .inScope → a.description ≠ "") := by
  have hmem : (∀ a ∈ (ctx.asksOf v).inScope, a.description ≠ "") ↔
      ∀ a ∈ v.requestChanges, ctx.route a = .inScope → a.description ≠ "" := by
    constructor
    · intro h a ha hroute
      exact h a (mem_inScope.2 ⟨ha, hroute⟩)
    · intro h a ha
      exact h a (mem_inScope.1 ha).1 (mem_inScope.1 ha).2
  rw [← hmem, ne_eq, ← stillOutOfScope_eq_nil_iff, inScopeBody]
  cases hstill : (ctx.asksOf v).stillOutOfScope with
  | nil => simp
  | cons b bs =>
      rw [if_neg (by simp), ← askLines_isSome_iff 200]
      cases askLines 200 (ctx.asksOf v).inScope <;> simp

/-- It says what each ask in scope is, or it is the reviewer's own comment. -/
theorem inScopeBody_shows {body : String} (h : inScopeBody v (ctx.asksOf v) = some body) :
    (ctx.spawned v = [] ∧ body = sanitizeComments v.comments) ∨
      (ctx.spawned v ≠ [] ∧ ∀ a ∈ v.requestChanges, ctx.route a = .inScope → contains body (askLine a) = true) := by
  rw [inScopeBody] at h
  split at h
  · rename_i hempty
    exact Or.inl ⟨stillOutOfScope_eq_nil_iff.1 (List.isEmpty_iff.1 hempty), (Option.some.inj h).symm⟩
  · rename_i hne
    obtain ⟨lines, hlines, rfl⟩ := Option.map_eq_some_iff.1 h
    refine Or.inr ⟨fun hnil => hne (List.isEmpty_iff.2 (stillOutOfScope_eq_nil_iff.2 hnil)), fun a ha hroute => ?_⟩
    exact contains_append_right _ (contains_askLines hlines (mem_inScope.2 ⟨ha, hroute⟩))

/-- With an ask in scope the ticket goes back to `ready`, and the comment is the last thing written. -/
theorem settleAsks_back {asks : RoutedAsks} {body : String} (hin : asks.inScope ≠ [])
    (hbody : inScopeBody v asks = some body) (st : ReviewState) :
    (∃ outcome, (settleAsks inputHash v asks st).1 = .ok outcome) ∧
      (settleAsks inputHash v asks st).2.posts = st.posts ++ [body] := by
  rw [settleAsks, if_pos (by simpa using hin), hbody]
  exact ⟨⟨_, rfl⟩, maybeCache_posts _ _⟩

theorem settleAsks_raises {asks : RoutedAsks} (hin : asks.inScope ≠ []) (hbody : inScopeBody v asks = none)
    (st : ReviewState) : (settleAsks inputHash v asks st).1 = .error .indexError := by
  rw [settleAsks, if_pos (by simpa using hin), hbody]

/-! ### The routing as a whole -/

/-- The comments of a pass that sends the ticket back. -/
theorem shown_iff {body : String} {posts new : List String} {a : ReviewAsk}
    (hbody : inScopeBody v (ctx.asksOf v) = some body) (hposts : posts = addressedComments (ctx.asksOf v).alreadyAddressed ++
      new ++ [body]) (hnew : (ctx.asksOf v).stillOutOfScope = [] → new = []) (ha : a ∈ v.requestChanges)
    (hroute : ctx.route a = .inScope) :
    Shown posts a ↔ (ctx.spawned v = [] →
      Shown (addressedComments (v.requestChanges.filter
        (goes ctx.verifyClaim ctx.fileMap ctx.modifiedPaths .addressed)) ++ [sanitizeComments v.comments]) a) := by
  obtain ⟨hnil, rfl⟩ | ⟨hne, hshows⟩ := inScopeBody_shows hbody
  · rw [hposts, hnew (stillOutOfScope_eq_nil_iff.2 hnil), List.append_nil, ReviewContext.asksOf, alreadyAddressed_eq]
    exact ⟨fun h _ => h, fun h => h hnil⟩
  · refine iff_of_true ⟨body, ?_, hshows a ha hroute⟩ (fun hnil => absurd hnil hne)
    rw [hposts]
    exact List.mem_append_right _ List.mem_cons_self

theorem routable_iff : Routable ctx v ↔
    (∀ a ∈ v.requestChanges, ctx.route a ≠ .inScope → a.description ≠ "") ∧
      ∀ a ∈ v.requestChanges, ctx.route a = .spawned → ∀ title, followUpTitle a = some title →
        ctx.accepts title (followUpBody ctx a) = true := by
  constructor
  · intro h
    refine ⟨fun a ha hroute => ?_, fun a ha hroute => (h.spawned a (mem_stillOutOfScope.2 ⟨ha, hroute⟩)).2⟩
    cases hcase : ctx.route a with
    | inScope => exact absurd hcase hroute
    | addressed => exact h.addressed a (mem_alreadyAddressed.2 ⟨ha, hcase⟩)
    | spawned => exact (h.spawned a (mem_stillOutOfScope.2 ⟨ha, hcase⟩)).1
  · rintro ⟨hdescribed, haccepted⟩
    constructor
    · intro a ha
      obtain ⟨hmem, hroute⟩ := mem_alreadyAddressed.1 ha
      exact hdescribed a hmem (by rw [ReviewContext.route, hroute]; exact AskRoute.noConfusion)
    · intro a ha
      obtain ⟨hmem, hroute⟩ := mem_stillOutOfScope.1 ha
      exact ⟨hdescribed a hmem (by rw [ReviewContext.route, hroute]; exact AskRoute.noConfusion),
        haccepted a hmem hroute⟩

/-- An addressed ask names files of the diff, and git bears its claim out. -/
theorem verified_of_addressed {a : ReviewAsk} (hroute : ctx.route a = .addressed) (hdescribed : a.description ≠ "") :
    filesInDiff ctx.modifiedPaths a = true ∧ ctx.verifyClaim a.description a.filesTouched = true := by
  rw [ReviewContext.route, askRoute] at hroute
  split at hroute
  · cases hroute
  · split at hroute
    · rename_i hboth
      obtain ⟨hfiles, hclaim⟩ := (Bool.and_eq_true _ _).mp hboth
      refine ⟨hfiles, ?_⟩
      have hsome : a.filesTouched.isEmpty = false := by
        rw [filesInDiff, Bool.and_eq_true] at hfiles
        simpa using hfiles.1
      simpa [claimStands, hsome, hdescribed] using hclaim
    · cases hroute

/-- **One verdict.** Each of its asks has its end exactly if none is left without what the routing needs of it. -/
theorem eachRouted_iff (inputHash : String) (st : ReviewState) :
    EachRouted ctx v st (routeVerdict ctx inputHash v st) ↔ Answerable ctx v := by
  by_cases hroutable : Routable ctx v
  · obtain ⟨hdescribed, haccepted⟩ := routable_iff.1 hroutable
    obtain ⟨st', hprepared, heq⟩ := routeVerdict_ok hroutable inputHash st
    obtain ⟨new, hposts, hnew⟩ := hprepared.posts
    have hfollowUps : (routeVerdict ctx inputHash v st).2.followUps.map FollowUp.ask =
        st.followUps.map FollowUp.ask ++ (ctx.asksOf v).stillOutOfScope := by
      rw [heq, settleAsks_followUps, hprepared.followUps]
    have happroves : ∀ outcome, (routeVerdict ctx inputHash v st).1 = .ok outcome → outcome.nextState = .documenting →
        v.requestChanges ≠ [] ∧ ∀ a ∈ v.requestChanges, ctx.route a ≠ .inScope := by
      intro outcome houtcome hdoc
      obtain ⟨hready, -⟩ | ⟨-, hin, hsome⟩ := routeVerdict_state houtcome
      · rw [hready] at hdoc
        cases hdoc
      · refine ⟨hsome, fun a ha hroute => ?_⟩
        have hmem : a ∈ (ctx.asksOf v).inScope := mem_inScope.2 ⟨ha, hroute⟩
        rw [hin] at hmem
        exact List.not_mem_nil hmem
    by_cases hin : (ctx.asksOf v).inScope = []
    · have hout : ∀ a ∈ v.requestChanges, ctx.route a ≠ .inScope := by
        intro a ha hroute
        have hmem : a ∈ (ctx.asksOf v).inScope := mem_inScope.2 ⟨ha, hroute⟩
        rw [hin] at hmem
        exact List.not_mem_nil hmem
      refine iff_of_true ⟨?_, ?_, ⟨_, hfollowUps, stillOutOfScope_perm⟩, ?_, happroves⟩ ⟨hdescribed, haccepted, ?_, ?_⟩
      · rw [heq]
        exact settleAsks_ok hin inputHash v st'
      · intro a ha hroute
        exact absurd hroute (hout a ha)
      · intro a ha hroute
        exact verified_of_addressed hroute (hdescribed a ha (hout a ha))
      · intro _ a ha hroute
        exact absurd hroute (hout a ha)
      · intro _ a ha hroute
        exact absurd hroute (hout a ha)
    · cases hbody : inScopeBody v (ctx.asksOf v) with
      | none =>
          refine iff_of_false (fun h => ?_) (fun h => ?_)
          · obtain ⟨outcome, houtcome⟩ := h.returns
            rw [heq, settleAsks_raises hin hbody] at houtcome
            cases houtcome
          · obtain ⟨body, hsome⟩ := inScopeBody_isSome_iff.2 h.listed
            rw [hbody] at hsome
            cases hsome
      | some body =>
          obtain ⟨hreturns, hlast⟩ := settleAsks_back hin hbody st'
          have hdrop : (routeVerdict ctx inputHash v st).2.posts.drop st.posts.length =
              addressedComments (ctx.asksOf v).alreadyAddressed ++ new ++ [body] := by
            rw [heq, hlast, hposts, List.append_assoc, List.append_assoc, List.drop_left, List.append_assoc]
          have hshown : ∀ a ∈ v.requestChanges, ctx.route a = .inScope → _ := fun a ha hroute =>
            shown_iff hbody hdrop hnew ha hroute
          constructor
          · intro h
            refine ⟨hdescribed, haccepted, inScopeBody_isSome_iff.1 ⟨body, hbody⟩, fun hnil a ha hroute => ?_⟩
            exact (hshown a ha hroute).1 (h.visible a ha hroute) hnil
          · intro h
            refine ⟨?_, fun a ha hroute => ?_, ⟨_, hfollowUps, stillOutOfScope_perm⟩, fun a ha hroute => ?_, happroves⟩
            · rw [heq]
              exact hreturns
            · exact (hshown a ha hroute).2 fun hnil => h.narrated hnil a ha hroute
            · exact verified_of_addressed hroute (hdescribed a ha (by rw [hroute]; exact AskRoute.noConfusion))
  · refine iff_of_false (fun h => ?_) (fun h => hroutable (routable_iff.2 ⟨h.described, h.accepted⟩))
    obtain ⟨outcome, houtcome⟩ := h.returns
    obtain ⟨e, he⟩ := routeVerdict_raises hroutable inputHash st
    rw [he] at houtcome
    cases houtcome

/-! ## The rounds of a ticket -/

/-- What the stage keeps about the ticket, and the last pass with the state that it began in. -/
structure ReviewHistory where
  review : ReviewState := {}
  last : Option (ReviewPass × ReviewState) := none

/-- A review pass, or what happens to the ticket between two: a resume or a rebase sets the counter, the fingerprint,
    the cache and the record of a question in any way. -/
inductive ReviewEvent
  | pass (p : ReviewPass)
  | between (reviewRounds : Nat) (fingerprint : Option String) (cache : StageCache) (askUserDiff : Option String)

/-- One event. -/
def ReviewHistory.after (sha256 : String → String) (h : ReviewHistory) : ReviewEvent → ReviewHistory
  | .pass p => { review := (reviewRun sha256 p h.review).2, last := some (p, h.review) }
  | .between reviewRounds fingerprint cache askUserDiff =>
    { review := { h.review with reviewRounds, fingerprint, cache, askUserDiff }, last := none }

def ReviewHistory.Step (sha256 : String → String) (h : ReviewHistory) (ev : ReviewEvent) (h' : ReviewHistory) : Prop :=
  h' = h.after sha256 ev

/-- A pass that routes the asks of a REQUEST_CHANGES verdict: below the round cap, and no convergence. -/
structure Routes (sha256 : String → String) (p : ReviewPass) (st : ReviewState) (v : ReviewVerdict)
    (inputHash : String) (st' : ReviewState) : Prop where
  judges : Judges sha256 p st v inputHash st'
  verdict : (p.checked v).verdict = .requestChanges
  belowCap : st.reviewRounds + 1 < p.reviewMaxRounds
  diverges : converges sha256 st (p.checked v).requestChanges = false

/-- The last pass left no ask of its verdict behind, and no two tickets are of one ask. -/
structure RoutedOnce (sha256 : String → String) (h : ReviewHistory) : Prop where
  each : ∀ p st, h.last = some (p, st) → ∀ v inputHash st', Routes sha256 p st v inputHash st' →
    EachRouted p.toReviewContext (p.checked v) st (reviewRun sha256 p st)
  once : (h.review.followUps.map FollowUp.ask).Nodup

/-- The verdict can be routed, and none of the asks that it spawns has a ticket yet. -/
def Fresh (sha256 : String → String) (h : ReviewHistory) : ReviewEvent → Prop
  | .pass p => ∀ v inputHash st', Routes sha256 p h.review v inputHash st' →
    Answerable p.toReviewContext (p.checked v) ∧
      (h.review.followUps.map FollowUp.ask ++ p.toReviewContext.spawned (p.checked v)).Nodup
  | .between _ _ _ _ => True

/-! ### What a pass writes -/

theorem handleRoundCap_followUps (st : ReviewState) : (handleRoundCap ctx inputHash v st).2.followUps = st.followUps := by
  rw [handleRoundCap]
  dsimp only
  split
  · exact maybeCache_followUps _ _
  · rfl

theorem detectConvergence_followUps (st : ReviewState) :
    (detectConvergence sha256 inputHash v st).2.followUps = st.followUps := by
  rw [detectConvergence]
  split
  · exact maybeCache_followUps _ _
  · rfl

/-- Only the routing makes tickets. -/
theorem handleReviewVerdict_followUps (h : v.verdict = .requestChanges → st.reviewRounds + 1 < ctx.reviewMaxRounds →
    converges sha256 st v.requestChanges = true) :
    (handleReviewVerdict sha256 ctx inputHash v st).2.followUps = st.followUps := by
  rw [handleReviewVerdict]
  split
  · exact maybeCache_followUps _ _
  · rename_i hverdict
    rw [handleRequestChanges]
    dsimp only
    split
    · exact handleRoundCap_followUps _
    · rename_i hcap
      have hconverges := h hverdict (not_le.1 hcap)
      have hkept := @detectConvergence_followUps sha256 v inputHash (st.setRounds (st.reviewRounds + 1))
      have hblock : (detectConvergence sha256 inputHash v (st.setRounds (st.reviewRounds + 1))).1 =
          some (.block "convergence: repeated review findings — implement stuck") := by
        rw [detectConvergence, converges_setRounds, if_pos hconverges]
      split
      · rename_i outcome st₁ heq
        rw [heq] at hkept
        exact hkept
      · rename_i st₁ heq
        rw [heq] at hblock
        cases hblock
  · exact maybeCache_followUps _ _

/-- What a pass writes is what judging its verdict writes, but for the record of a question. -/
theorem reviewRun_writes {p : ReviewPass} {st' : ReviewState} (h : Judges sha256 p st v inputHash st') :
    (reviewRun sha256 p st).2.followUps = (judge sha256 p inputHash v st').2.followUps ∧
      (reviewRun sha256 p st).2.posts = (judge sha256 p inputHash v st').2.posts := by
  obtain ⟨diff, heq⟩ := reviewRun_of_judges h
  rw [heq, reviewAfresh, h.agent]
  dsimp only
  split <;> exact ⟨rfl, rfl⟩

/-- A pass that does not get as far as judging a verdict makes no ticket. -/
theorem reviewRun_followUps_of_unjudged {p : ReviewPass}
    (h : ∀ v inputHash st', ¬ Judges sha256 p st v inputHash st') :
    (reviewRun sha256 p st).2.followUps = st.followUps := by
  rw [reviewRun]
  split
  · rfl
  · rename_i hclone
    split
    · rfl
    · rfl
    · rename_i diff hdiff
      split
      · rfl
      · rename_i hblank
        obtain ⟨marker, hmarker⟩ := unaddressedChangeAnswer_state p (sha256 diff) st
        split
        · rename_i answer st₁ hanswer
          rw [hanswer] at hmarker
          dsimp only at hmarker
          show st₁.followUps = _
          rw [hmarker]
        · rename_i st₁ hanswer
          rw [hanswer] at hmarker
          dsimp only at hmarker ⊢
          split
          · rw [hmarker]
          · rename_i hmissed
            rw [reviewAfresh]
            split
            · rw [hmarker]
            · rw [hmarker]
            · rename_i v hagent
              refine absurd ⟨?_, ⟨diff, hdiff, ?_, hanswer, rfl⟩, hmissed, hagent⟩ (h v _ st₁)
              · simpa using hclone
              · simpa using hblank

/-- One that does not route its verdict makes none either. -/
theorem reviewRun_followUps {p : ReviewPass} (h : ∀ v inputHash st', ¬ Routes sha256 p st v inputHash st') :
    (reviewRun sha256 p st).2.followUps = st.followUps := by
  by_cases hjudged : ∃ v inputHash st', Judges sha256 p st v inputHash st'
  · obtain ⟨v, inputHash, st', hjudges⟩ := hjudged
    rw [(reviewRun_writes hjudges).1]
    obtain ⟨marker, rfl⟩ := hjudges.state
    apply handleReviewVerdict_followUps
    intro hverdict hcap
    by_contra hconverges
    refine h v inputHash _ ⟨hjudges, hverdict, hcap, ?_⟩
    rw [← Bool.not_eq_true]
    exact hconverges
  · exact reviewRun_followUps_of_unjudged fun v inputHash st' hjudges => hjudged ⟨v, inputHash, st', hjudges⟩

/-- A pass routes the one verdict of its agent. -/
theorem Routes.eachRouted_iff {p : ReviewPass} {st' : ReviewState} (h : Routes sha256 p st v inputHash st') :
    EachRouted p.toReviewContext (p.checked v) st (reviewRun sha256 p st) ↔
      Answerable p.toReviewContext (p.checked v) := by
  have hstate := reviewRun_judges h.judges
  obtain ⟨hfollowUps, hposts⟩ := reviewRun_writes h.judges
  obtain ⟨marker, rfl⟩ := h.judges.state
  set start : ReviewState := { st with askUserDiff := marker }
  have hjudge : judge sha256 p inputHash v start =
      routeVerdict p.toReviewContext inputHash (p.checked v) (start.counted sha256 (p.checked v)) := by
    rw [judge, ← ReviewPass.checked, handleReviewVerdict, h.verdict]
    exact handleRequestChanges_routed (not_le.2 h.belowCap) h.diverges
  rw [hjudge] at hstate hfollowUps hposts
  rw [← Stages.eachRouted_iff inputHash (start.counted sha256 (p.checked v))]
  constructor
  · rintro ⟨hreturns, hvisible, hspawned, haddressed, happroves⟩
    rw [hstate] at hreturns happroves
    rw [hposts] at hvisible
    rw [hfollowUps] at hspawned
    exact ⟨hreturns, hvisible, hspawned, haddressed, happroves⟩
  · rintro ⟨hreturns, hvisible, hspawned, haddressed, happroves⟩
    rw [← hstate] at hreturns happroves
    rw [← hposts] at hvisible
    rw [← hfollowUps] at hspawned
    exact ⟨hreturns, hvisible, hspawned, haddressed, happroves⟩

/-! ### Runs -/

theorem routedOnce_start : RoutedOnce sha256 {} :=
  ⟨fun p st hlast => (by cases hlast), List.nodup_nil⟩

/-- One event keeps the ticket's asks routed once exactly if it is fresh. -/
theorem routedOnce_step_iff {h h' : ReviewHistory} {ev : ReviewEvent} (hh : RoutedOnce sha256 h)
    (hstep : ReviewHistory.Step sha256 h ev h') : RoutedOnce sha256 h' ↔ Fresh sha256 h ev := by
  obtain rfl := hstep
  cases ev with
  | between reviewRounds fingerprint cache askUserDiff =>
      exact iff_of_true ⟨fun p st hlast => (by cases hlast), hh.once⟩ trivial
  | pass p =>
      by_cases hroutes : ∃ v inputHash st', Routes sha256 p h.review v inputHash st'
      · constructor
        · intro h' v inputHash st' hr
          have heach := h'.each p h.review rfl v inputHash st' hr
          refine ⟨hr.eachRouted_iff.1 heach, ?_⟩
          obtain ⟨new, hnew, hperm⟩ := heach.spawned
          have honce := h'.once
          show (h.review.followUps.map FollowUp.ask ++ _).Nodup
          rw [← (hperm.append_left _).nodup_iff, ← hnew]
          exact honce
        · intro hfresh
          constructor
          · intro p' st hlast v inputHash st' hr
            obtain ⟨rfl, rfl⟩ := Prod.mk.inj (Option.some.inj hlast)
            exact hr.eachRouted_iff.2 (hfresh v inputHash st' hr).1
          · obtain ⟨v, inputHash, st', hr⟩ := hroutes
            obtain ⟨hanswerable, hnodup⟩ := hfresh v inputHash st' hr
            obtain ⟨new, hnew, hperm⟩ := (hr.eachRouted_iff.2 hanswerable).spawned
            show ((reviewRun sha256 p h.review).2.followUps.map FollowUp.ask).Nodup
            rw [hnew, (hperm.append_left _).nodup_iff]
            exact hnodup
      · have hnone : ∀ v inputHash st', ¬ Routes sha256 p h.review v inputHash st' :=
          fun v inputHash st' hr => hroutes ⟨v, inputHash, st', hr⟩
        refine iff_of_true ⟨?_, ?_⟩ (fun v inputHash st' hr => absurd hr (hnone v inputHash st'))
        · intro p' st hlast v inputHash st' hr
          obtain ⟨rfl, rfl⟩ := Prod.mk.inj (Option.some.inj hlast)
          exact absurd hr (hnone v inputHash st')
        · show ((reviewRun sha256 p h.review).2.followUps.map FollowUp.ask).Nodup
          rw [reviewRun_followUps hnone]
          exact hh.once

/-- **When every ask is routed, and once.** Along a run of passes and what happens between them, every verdict leaves
    each of its asks at one of the three ends and no ask becomes a ticket twice exactly if each routed verdict can be
    answered and spawns only asks that have no ticket yet. -/
theorem routed_once_iff {events : List ReviewEvent} {h : ReviewHistory}
    (hrun : Lib.Run (ReviewHistory.Step sha256) {} events h) :
    Lib.Run.Always (ReviewHistory.Step sha256) (RoutedOnce sha256) {} events ↔
      Lib.Run (Lib.Guarded (Fresh sha256) (ReviewHistory.Step sha256)) {} events h := by
  apply Lib.Run.always_iff_guarded
  · intro s ev t t' ht ht'
    exact ht.trans ht'.symm
  · intro s ev t hs hstep
    exact routedOnce_step_iff hs hstep
  · exact hrun
  · exact routedOnce_start

/-! ### Two rounds over the same documentation -/

/-- Something in the ticket's scope. -/
def testAsk : ReviewAsk :=
  { title := "Add a test", description := "Add a test for the parser.", filesTouched := ["src/app.py"] }

/-- Another, that the first round does not ask for. -/
def nameAsk : ReviewAsk :=
  { title := "Name the test", description := "Call the test by its case.", filesTouched := ["src/app.py"] }

/-- Something out of it. -/
def docsAsk : ReviewAsk :=
  { title := "Update the docs", description := "Describe the new flag.", filesTouched := ["docs/flags.md"] }

/-- A pass over a diff on which the agent has these asks. -/
def docsPass (diff : String) (asks : List ReviewAsk) : ReviewPass where
  reviewMaxRounds := 5
  ticketId := "t-1"
  fileMap := some ["src/app.py"]
  modifiedPaths := ["src/app.py"]
  verifyClaim _ _ := false
  comments := []
  accepts _ _ := true
  followUpId _ := "t-2"
  hasClone := true
  diff := .ok diff
  spec := "Add the flag."
  headSha := "c0ffee"
  reviewerFingerprint := ""
  actionRefs := []
  reusableWorkflowRefs := []
  approval := none
  requestsChange _ := false
  verifyActionSha _ _ := none
  shaIsOlderThan _ _ _ := none
  agent := .verdict { verdict := .requestChanges, comments := "Two findings.", requestChanges := asks }

def firstDocsPass : ReviewPass := docsPass "+flag" [testAsk, docsAsk]

def secondDocsPass : ReviewPass := docsPass "+flag\n+test" [nameAsk, docsAsk]

/-- The verdict of the first pass. -/
def docsVerdict (asks : List ReviewAsk) : ReviewVerdict :=
  { verdict := .requestChanges, comments := "Two findings.", requestChanges := asks }

/-- The first round, and the ticket as a rebase leaves it: in its second round, without a cached outcome. -/
def rebasedHistory : ReviewHistory :=
  (({} : ReviewHistory).after id (.pass firstDocsPass)).after id
    (.between 1 (some (findingsFingerprint id [testAsk, docsAsk])) (fun _ => none) none)

theorem routes_firstDocsPass : Routes id firstDocsPass {} (docsVerdict [testAsk, docsAsk])
    (reviewInputHash id (firstDocsPass.input "+flag") 0) {} := by
  refine ⟨⟨rfl, ⟨"+flag", rfl, by decide, rfl, rfl⟩, rfl, rfl⟩, rfl, by decide, rfl⟩

theorem answerable_firstDocsPass : Answerable firstDocsPass.toReviewContext (docsVerdict [testAsk, docsAsk]) where
  described := by decide
  accepted _ _ _ _ _ := rfl
  listed _ := by decide
  narrated hnil := absurd hnil (by decide)

theorem answerable_secondDocsPass : Answerable secondDocsPass.toReviewContext (docsVerdict [nameAsk, docsAsk]) where
  described := by decide
  accepted _ _ _ _ _ := rfl
  listed _ := by decide
  narrated hnil := absurd hnil (by decide)

theorem first_round_routed :
    Lib.Run.Always (ReviewHistory.Step id) (RoutedOnce id) {} [.pass firstDocsPass] := by
  have hrun : Lib.Run (ReviewHistory.Step id) {} [.pass firstDocsPass] _ := .cons rfl (.nil _)
  refine (routed_once_iff hrun).2 (.cons ⟨?_, rfl⟩ (.nil _))
  intro v inputHash st' hroutes
  obtain rfl : docsVerdict [testAsk, docsAsk] = v := AgentResult.verdict.inj hroutes.judges.agent
  exact ⟨answerable_firstDocsPass, by decide⟩

/-- The findings of the two rounds differ from their first letter on. -/
theorem findings_differ :
    strip (findingsFingerprint id [testAsk, docsAsk]) ≠ findingsFingerprint id [nameAsk, docsAsk] := by
  have hsorted : [testAsk, docsAsk].mergeSort (fun a b => decide (a.title ≤ b.title)) = [testAsk, docsAsk] :=
    List.mergeSort_of_pairwise (by decide)
  have hsorted' : [nameAsk, docsAsk].mergeSort (fun a b => decide (a.title ≤ b.title)) = [nameAsk, docsAsk] :=
    List.mergeSort_of_pairwise (by decide)
  rw [findingsFingerprint, findingsFingerprint, hsorted, hsorted']
  simp only [testAsk, nameAsk, docsAsk, List.mergeSort_singleton, List.map_cons, List.map_nil]
  decide

theorem routes_secondDocsPass : Routes id secondDocsPass rebasedHistory.review (docsVerdict [nameAsk, docsAsk])
    (reviewInputHash id (secondDocsPass.input "+flag\n+test") 1) rebasedHistory.review := by
  refine ⟨⟨rfl, ⟨"+flag\n+test", rfl, by decide, rfl, rfl⟩, rfl, rfl⟩, rfl, by decide, ?_⟩
  show (some (strip (findingsFingerprint id [testAsk, docsAsk])) ==
    some (findingsFingerprint id [nameAsk, docsAsk])) = false
  rw [beq_eq_false_iff_ne]
  exact fun heq => findings_differ (Option.some.inj heq)

/-- The second round spawns what the first has spawned. -/
theorem follow_up_spawned_again : ¬ ∀ (sha256 : String → String) (events : List ReviewEvent) (h : ReviewHistory),
    Lib.Run (ReviewHistory.Step sha256) {} events h →
    Lib.Run.Always (ReviewHistory.Step sha256) (RoutedOnce sha256) {} events := by
  intro hclaim
  have hrun : Lib.Run (ReviewHistory.Step id) {}
      [.pass firstDocsPass, .between 1 (some (findingsFingerprint id [testAsk, docsAsk])) (fun _ => none) none,
        .pass secondDocsPass] (rebasedHistory.after id (.pass secondDocsPass)) :=
    .cons rfl (.cons rfl (.cons rfl (.nil _)))
  have honce := (hclaim id _ _ hrun _ _ List.prefix_rfl hrun).once
  -- each of the two passes makes a ticket of the ask on the documentation
  obtain ⟨new, hnew, hperm⟩ := (routes_firstDocsPass.eachRouted_iff.2 answerable_firstDocsPass).spawned
  obtain ⟨new', hnew', hperm'⟩ := (routes_secondDocsPass.eachRouted_iff.2 answerable_secondDocsPass).spawned
  have hspawned : firstDocsPass.toReviewContext.spawned (docsVerdict [testAsk, docsAsk]) = [docsAsk] := by decide
  have hspawned' : secondDocsPass.toReviewContext.spawned (docsVerdict [nameAsk, docsAsk]) = [docsAsk] := by decide
  have hfirst : rebasedHistory.review.followUps.map FollowUp.ask = [docsAsk] := by
    show (reviewRun id firstDocsPass {}).2.followUps.map FollowUp.ask = [docsAsk]
    rw [hnew, ← hspawned]
    exact List.perm_singleton.1 (hspawned ▸ hperm)
  have hsecond : new' = [docsAsk] := List.perm_singleton.1 (hspawned' ▸ hperm')
  have htwice : ((reviewRun id secondDocsPass rebasedHistory.review).2.followUps.map FollowUp.ask).Nodup := honce
  rw [hnew', hfirst, hsecond] at htwice
  revert htwice
  decide

end Stages
end RobotsixMill
