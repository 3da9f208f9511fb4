import RobotsixMill.Stages.Review
import RobotsixMill.Lib.DelimitedText

/-!
# `Stages.ReviewRouting` — what a review pass does with a verdict

One lemma for each part of the stage: when it raises, which state it returns, and what it writes.

- `spawnFollowUps_ok`, `postAddressed_ok` — a part raises on an ask without a description, or when a ticket is refused;
- `routeVerdict_state` — an accepted verdict goes to `ready` or to `documenting`, and when;
- `reviewRun_judges` — a pass whose verdict is judged returns what `judge` does.
-/

namespace RobotsixMill
namespace Stages
open RobotsixMill.Core Lib

variable {sha256 : String → String} {ctx : ReviewContext}

/-! ## First lines -/

theorem firstLine_eq_none_iff {text : String} : firstLine text = none ↔ text = "" := by
  rw [firstLine, splitlines, List.head?_eq_none_iff, List.map_eq_nil_iff, splitlinesGo_eq_nil, String.toList_eq_nil_iff]
  simp

theorem mapM_eq_none_iff {α β : Type*} {f : α → Option β} {l : List α} :
    l.mapM f = none ↔ ∃ a ∈ l, f a = none := by
  induction l with
  | nil => simp
  | cons a l ih =>
      rw [List.mapM_cons]
      cases ha : f a with
      | none => simp [ha]
      | some b =>
          cases hl : l.mapM f with
          | none =>
              obtain ⟨c, hc, hfc⟩ := ih.1 hl
              simp only [bind_pure_comp, Option.bind_eq_bind, Option.bind_some, Option.map_eq_map, Option.map_none,
                true_iff]
              exact ⟨c, List.mem_cons_of_mem a hc, hfc⟩
          | some bs =>
              have hnone := mt ih.2 (by rw [hl]; simp)
              simp only [bind_pure_comp, Option.bind_eq_bind, Option.bind_some, Option.map_eq_map, Option.map_some,
                reduceCtorEq, false_iff]
              rintro ⟨c, hc, hfc⟩
              obtain rfl | hc := List.mem_cons.1 hc
              · rw [ha] at hfc
                cases hfc
              · exact hnone ⟨c, hc, hfc⟩

/-! ## The parts that can raise -/

theorem askLines_isSome_iff (limit : Nat) {asks : List ReviewAsk} :
    (askLines limit asks).isSome = true ↔ ∀ a ∈ asks, a.description ≠ "" := by
  rw [← Option.ne_none_iff_isSome, askLines, ne_eq, mapM_eq_none_iff]
  simp only [Option.map_eq_none_iff, firstLine_eq_none_iff, not_exists, not_and, ne_eq]

theorem postAddressed_ok_iff {asks : List ReviewAsk} {st : ReviewState} :
    (∃ st', postAddressed asks st = .ok st') ↔ ∀ a ∈ asks, a.description ≠ "" := by
  rw [← askLines_isSome_iff 120, postAddressed]
  cases askLines 120 asks with
  | none => simp
  | some lines => simp

/-- What the comment on the addressed asks of a verdict says, if there are any. -/
def addressedComments (asks : List ReviewAsk) : List String :=
  if asks.isEmpty then [] else ((askLines 120 asks).map (addressedComment asks)).toList

theorem postAddressed_ok {asks : List ReviewAsk} {st st' : ReviewState} (hne : asks.isEmpty = false)
    (h : postAddressed asks st = .ok st') : st' = { st with posts := st.posts ++ addressedComments asks } := by
  rw [postAddressed] at h
  split at h
  · cases h
  · rename_i lines hlines
    obtain rfl := Except.ok.inj h
    rw [addressedComments, hne, hlines]
    rfl

/-- `create` takes a ticket for the ask, and there is a first line to post. -/
def CanSpawn (ctx : ReviewContext) (a : ReviewAsk) : Prop :=
  a.description ≠ "" ∧ ∀ title, followUpTitle a = some title → ctx.accepts title (followUpBody ctx a) = true

theorem followUpTitle_isSome {a : ReviewAsk} (h : a.description ≠ "") : ∃ title, followUpTitle a = some title := by
  rw [followUpTitle]
  split
  · exact ⟨_, rfl⟩
  · cases hline : firstLine a.description with
    | none => exact absurd (firstLine_eq_none_iff.1 hline) h
    | some line => exact ⟨_, rfl⟩

/-- The tickets that are made of some asks, in their order. -/
def MadeOf (ctx : ReviewContext) (created : List FollowUp) : Prop :=
  ∀ f ∈ created, followUpTitle f.ask = some f.title ∧ f.body = followUpBody ctx f.ask

/-- Whatever happens, tickets are created for the first of the asks, and nothing else is written. -/
theorem spawnDependencyTickets_writes (asks : List ReviewAsk) (st : ReviewState) :
    ∃ created, (spawnDependencyTickets ctx asks st).2 = { st with followUps := st.followUps ++ created } ∧
      MadeOf ctx created ∧ created.map FollowUp.ask <+: asks := by
  induction asks generalizing st with
  | nil => exact ⟨[], by simp [spawnDependencyTickets], fun f hf => absurd hf List.not_mem_nil, List.prefix_rfl⟩
  | cons a asks ih =>
      rw [spawnDependencyTickets]
      split
      · exact ⟨[], by simp, fun f hf => absurd hf List.not_mem_nil, List.nil_prefix⟩
      · rename_i title htitle
        split
        · obtain ⟨created, hst, hmade, hbegins⟩ := ih { st with
            followUps := st.followUps ++ [⟨ctx.followUpId st.followUps.length, title, followUpBody ctx a, [], a⟩] }
          refine ⟨⟨ctx.followUpId st.followUps.length, title, followUpBody ctx a, [], a⟩ :: created, ?_, ?_, ?_⟩
          · dsimp only
            rw [hst, List.append_assoc]
            rfl
          · intro f hf
            obtain rfl | hf := List.mem_cons.1 hf
            · exact ⟨htitle, rfl⟩
            · exact hmade f hf
          · rw [List.map_cons]
            exact (List.prefix_cons_inj a).2 hbegins
        · exact ⟨[], by simp, fun f hf => absurd hf List.not_mem_nil, List.nil_prefix⟩

/-- What the follow-ups write: tickets and a comment. -/
theorem spawnFollowUps_writes (asks : List ReviewAsk) (st : ReviewState) :
    ∃ posts followUps, (spawnFollowUps ctx asks st).2 = { st with posts := posts, followUps := followUps } := by
  obtain ⟨created, hwrites, -, -⟩ := @spawnDependencyTickets_writes ctx asks st
  rw [spawnFollowUps]
  split
  · rename_i e st' heq
    rw [heq] at hwrites
    exact ⟨_, _, hwrites⟩
  · rename_i ids st' heq
    rw [heq] at hwrites
    obtain rfl : st' = _ := hwrites
    split <;> exact ⟨_, _, rfl⟩

theorem postAddressed_writes {asks : List ReviewAsk} {st st' : ReviewState} (h : postAddressed asks st = .ok st') :
    ∃ posts, st' = { st with posts := posts } := by
  rw [postAddressed] at h
  split at h
  · cases h
  · exact ⟨_, (Except.ok.inj h).symm⟩

/-- Caching an outcome writes the cache alone. -/
theorem maybeCache_writes (inputHash : String) (outcome : StageOutcome) (st : ReviewState) :
    ∃ cache, maybeCache inputHash outcome st = { st with cache := cache } := by
  rw [maybeCache]
  split <;> exact ⟨_, rfl⟩

/-- The end of the routing writes no fingerprint, no question and no ticket. -/
theorem settleAsks_writes (inputHash : String) (v : ReviewVerdict) (asks : RoutedAsks) (st : ReviewState) :
    ∃ rounds cache posts, (settleAsks inputHash v asks st).2 =
      { st with reviewRounds := rounds, cache := cache, posts := posts } := by
  have hcached : ∀ (outcome : StageOutcome) (st' : ReviewState) (rounds : Nat) (posts : List String),
      st' = { st with reviewRounds := rounds, posts := posts } →
      ∃ rounds cache posts, maybeCache inputHash outcome st' =
        { st with reviewRounds := rounds, cache := cache, posts := posts } := by
    rintro outcome st' rounds posts rfl
    obtain ⟨cache, hcache⟩ := maybeCache_writes inputHash outcome { st with reviewRounds := rounds, posts := posts }
    exact ⟨rounds, cache, posts, hcache⟩
  rw [settleAsks]
  split
  · split
    · exact ⟨_, _, _, rfl⟩
    · exact hcached _ _ _ _ rfl
  · split
    · exact hcached _ _ _ _ rfl
    · split <;> exact hcached _ _ _ _ rfl

/-- Every ask has become a ticket, or the stage has raised on one. -/
theorem spawnDependencyTickets_ok {asks : List ReviewAsk} {st : ReviewState} {ids : List String}
    (h : (spawnDependencyTickets ctx asks st).1 = .ok ids) :
    ∃ created, (spawnDependencyTickets ctx asks st).2 = { st with followUps := st.followUps ++ created } ∧
      MadeOf ctx created ∧ created.map FollowUp.ask = asks ∧ ids = created.map FollowUp.id := by
  induction asks generalizing st ids with
  | nil =>
      obtain rfl := Except.ok.inj h
      exact ⟨[], by simp [spawnDependencyTickets], fun f hf => absurd hf List.not_mem_nil, rfl, rfl⟩
  | cons a asks ih =>
      rw [spawnDependencyTickets] at h ⊢
      split at h
      · cases h
      · rename_i title htitle
        split at h
        · rename_i haccepts
          dsimp only at h
          set st₁ : ReviewState := { st with
            followUps := st.followUps ++ [⟨ctx.followUpId st.followUps.length, title, followUpBody ctx a, [], a⟩] }
          cases hrest : (spawnDependencyTickets ctx asks st₁).1 with
          | error e =>
              rw [hrest] at h
              cases h
          | ok rest =>
              rw [hrest] at h
              obtain rfl := Except.ok.inj h
              obtain ⟨created, hst, hmade, hasks, hids⟩ := ih hrest
              refine ⟨⟨ctx.followUpId st.followUps.length, title, followUpBody ctx a, [], a⟩ :: created, ?_, ?_, ?_, ?_⟩
              · rw [if_pos haccepts]
                dsimp only
                rw [hst, List.append_assoc]
                rfl
              · intro f hf
                obtain rfl | hf := List.mem_cons.1 hf
                · exact ⟨htitle, rfl⟩
                · exact hmade f hf
              · rw [List.map_cons, hasks]
              · rw [List.map_cons, hids]
        · cases h

theorem spawnDependencyTickets_isOk_iff (asks : List ReviewAsk) (st : ReviewState) :
    (∃ ids, (spawnDependencyTickets ctx asks st).1 = .ok ids) ↔
      ∀ a ∈ asks, ∃ title, followUpTitle a = some title ∧ ctx.accepts title (followUpBody ctx a) = true := by
  induction asks generalizing st with
  | nil => simp [spawnDependencyTickets]
  | cons a asks ih =>
      rw [spawnDependencyTickets, List.forall_mem_cons]
      split
      · rename_i htitle
        simp [htitle]
      · rename_i title htitle
        split
        · rename_i haccepts
          rw [← ih { st with
            followUps := st.followUps ++ [⟨ctx.followUpId st.followUps.length, title, followUpBody ctx a, [], a⟩] }]
          dsimp only
          constructor
          · rintro ⟨ids, hids⟩
            refine ⟨⟨title, htitle, haccepts⟩, ?_⟩
            cases hrest : (spawnDependencyTickets ctx asks { st with
              followUps := st.followUps ++ [⟨ctx.followUpId st.followUps.length, title, followUpBody ctx a, [], a⟩] }).1 with
            | error e =>
                rw [hrest] at hids
                cases hids
            | ok rest => exact ⟨rest, rfl⟩
          · rintro ⟨-, rest, hrest⟩
            rw [hrest]
            exact ⟨_, rfl⟩
        · rename_i hrefused
          simp only [reduceCtorEq, exists_const, false_iff, not_and]
          rintro ⟨title', htitle', haccepts⟩
          rw [htitle] at htitle'
          obtain rfl := Option.some.inj htitle'
          exact absurd haccepts hrefused

theorem spawnFollowUps_ok_iff {asks : List ReviewAsk} (st : ReviewState) :
    (spawnFollowUps ctx asks st).1 = .ok () ↔ ∀ a ∈ asks, CanSpawn ctx a := by
  have hspawn := @spawnDependencyTickets_isOk_iff ctx asks st
  have hlines : (asks.mapM fun a => firstLine a.description) = none ↔ ∃ a ∈ asks, a.description = "" := by
    rw [mapM_eq_none_iff]
    simp only [firstLine_eq_none_iff]
  rw [spawnFollowUps]
  constructor
  · intro h
    split at h
    · cases h
    · rename_i ids st' hok
      dsimp only at h
      split at h
      · cases h
      · rename_i lines hsome
        have hall := hspawn.1 ⟨ids, by rw [hok]⟩
        intro a ha
        obtain ⟨title, htitle, haccepts⟩ := hall a ha
        refine ⟨fun hempty => ?_, fun title' htitle' => ?_⟩
        · rw [hlines.2 ⟨a, ha, hempty⟩] at hsome
          cases hsome
        · rw [htitle] at htitle'
          obtain rfl := Option.some.inj htitle'
          exact haccepts
  · intro hall
    obtain ⟨ids, hids⟩ := hspawn.2 fun a ha =>
      (followUpTitle_isSome (hall a ha).1).imp fun title htitle => ⟨htitle, (hall a ha).2 title htitle⟩
    split
    · rename_i e st' herror
      rw [herror] at hids
      cases hids
    · dsimp only
      split
      · rename_i hnone
        obtain ⟨a, ha, hempty⟩ := hlines.1 hnone
        exact absurd hempty (hall a ha).1
      · rfl

/-- Every ask has become a ticket, in order; beside them there is one new comment. -/
theorem spawnFollowUps_ok {asks : List ReviewAsk} {st st' : ReviewState} (h : spawnFollowUps ctx asks st = (.ok (), st')) :
    st'.followUps.map FollowUp.ask = st.followUps.map FollowUp.ask ++ asks ∧
      ∃ body, st' = { st with followUps := st'.followUps, posts := st.posts ++ [body] } := by
  rw [spawnFollowUps] at h
  split at h
  · cases h
  · rename_i ids st₁ hspawn
    dsimp only at h
    split at h
    · cases h
    · obtain ⟨created, hst, -, hasks, -⟩ := spawnDependencyTickets_ok (congrArg Prod.fst hspawn)
      rw [hspawn] at hst
      dsimp only at hst
      subst hst
      obtain rfl := (Prod.mk.inj h).2
      refine ⟨?_, _, rfl⟩
      show ((st.followUps ++ created).map _).map FollowUp.ask = _
      rw [List.map_map, ← hasks, ← List.map_append]
      apply List.map_congr_left
      intro f _
      show FollowUp.ask (if f.id ∈ ids then _ else f) = f.ask
      split <;> rfl

/-! ## The routing of a verdict -/

section Route

variable {inputHash : String} {v : ReviewVerdict} {st : ReviewState}

/-- The lists of the verdict's asks. -/
def ReviewContext.asksOf (ctx : ReviewContext) (v : ReviewVerdict) : RoutedAsks :=
  routeAsks ctx.verifyClaim ctx.fileMap ctx.modifiedPaths v.requestChanges

/-- Routing the asks raises on none of them. -/
structure Routable (ctx : ReviewContext) (v : ReviewVerdict) : Prop where
  addressed : ∀ a ∈ (ctx.asksOf v).alreadyAddressed, a.description ≠ ""
  spawned : ∀ a ∈ (ctx.asksOf v).stillOutOfScope, CanSpawn ctx a

/-- What the comments and the tickets before the final outcome write. -/
structure Prepared (ctx : ReviewContext) (v : ReviewVerdict) (st st' : ReviewState) : Prop where
  followUps : st'.followUps.map FollowUp.ask = st.followUps.map FollowUp.ask ++ (ctx.asksOf v).stillOutOfScope
  posts : ∃ new, st'.posts = st.posts ++ addressedComments (ctx.asksOf v).alreadyAddressed ++ new ∧
    ((ctx.asksOf v).stillOutOfScope = [] → new = [])
  reviewRounds : st'.reviewRounds = st.reviewRounds
  fingerprint : st'.fingerprint = st.fingerprint
  cache : st'.cache = st.cache

theorem routeVerdict_ok (h : Routable ctx v) (inputHash : String) (st : ReviewState) :
    ∃ st', Prepared ctx v st st' ∧ routeVerdict ctx inputHash v st = settleAsks inputHash v (ctx.asksOf v) st' := by
  set posted : ReviewState := { st with posts := st.posts ++ addressedComments (ctx.asksOf v).alreadyAddressed }
    with hposted
  -- first the comment on the addressed asks
  have hfirst : (if (ctx.asksOf v).alreadyAddressed.isEmpty then .ok st
      else postAddressed (ctx.asksOf v).alreadyAddressed st) = (Except.ok posted : Except ReviewError ReviewState) := by
    split
    · rename_i hempty
      rw [hposted, addressedComments, if_pos hempty, List.append_nil]
    · rename_i hne
      obtain ⟨st₁, hst₁⟩ := postAddressed_ok_iff.2 h.addressed
      rw [hst₁, postAddressed_ok (by simpa using hne) hst₁]
  -- then the tickets
  obtain ⟨st₂, hsecond, hasks, new, hst₂, hnone⟩ : ∃ st₂,
      (if (ctx.asksOf v).stillOutOfScope.isEmpty then (.ok (), posted)
        else spawnFollowUps ctx (ctx.asksOf v).stillOutOfScope posted) = (.ok (), st₂) ∧
      st₂.followUps.map FollowUp.ask = st.followUps.map FollowUp.ask ++ (ctx.asksOf v).stillOutOfScope ∧
      ∃ new, st₂ = { posted with followUps := st₂.followUps, posts := posted.posts ++ new } ∧
        ((ctx.asksOf v).stillOutOfScope = [] → new = []) := by
    split
    · rename_i hempty
      refine ⟨posted, rfl, ?_, [], by simp, fun _ => rfl⟩
      rw [List.isEmpty_iff.1 hempty, List.append_nil]
    · rename_i hne
      have hok := (spawnFollowUps_ok_iff posted).2 h.spawned
      obtain ⟨hasks, body, hst₂⟩ := spawnFollowUps_ok (Prod.ext hok rfl)
      exact ⟨_, Prod.ext hok rfl, hasks, [body], hst₂, fun hnil => absurd (List.isEmpty_iff.2 hnil) hne⟩
  refine ⟨st₂, ⟨hasks, ⟨new, by rw [hst₂], hnone⟩, by rw [hst₂], by rw [hst₂], by rw [hst₂]⟩, ?_⟩
  rw [routeVerdict]
  rw [ReviewContext.asksOf] at hfirst hsecond ⊢
  rw [hfirst]
  dsimp only
  rw [hsecond]

/-- Otherwise the stage raises. -/
theorem routeVerdict_raises (h : ¬ Routable ctx v) (inputHash : String) (st : ReviewState) :
    ∃ e, (routeVerdict ctx inputHash v st).1 = .error e := by
  rw [routeVerdict]
  split
  · exact ⟨_, rfl⟩
  · rename_i st₁ hfirst
    split
    · exact ⟨_, rfl⟩
    · rename_i st₂ hsecond
      exfalso
      apply h
      constructor
      · intro a ha
        have hne : (ctx.asksOf v).alreadyAddressed.isEmpty = false := by
          rw [← Bool.not_eq_true, List.isEmpty_iff]
          exact List.ne_nil_of_mem ha
        rw [ReviewContext.asksOf] at hne
        rw [hne] at hfirst
        exact postAddressed_ok_iff.1 ⟨st₁, hfirst⟩ a ha
      · intro a ha
        have hne : (ctx.asksOf v).stillOutOfScope.isEmpty = false := by
          rw [← Bool.not_eq_true, List.isEmpty_iff]
          exact List.ne_nil_of_mem ha
        rw [ReviewContext.asksOf] at hne
        rw [hne] at hsecond
        exact (spawnFollowUps_ok_iff st₁).1 (congrArg Prod.fst hsecond) a ha

/-- What is settled last. -/
theorem settleAsks_state {asks : RoutedAsks} {outcome : StageOutcome}
    (h : (settleAsks inputHash v asks st).1 = .ok outcome) :
    (outcome.nextState = .ready ∧
        (asks.inScope ≠ [] ∨ (asks.inScope = [] ∧ asks.stillOutOfScope = [] ∧ asks.alreadyAddressed = []))) ∨
      (outcome.nextState = .documenting ∧ asks.inScope = [] ∧
        (asks.stillOutOfScope ≠ [] ∨ asks.alreadyAddressed ≠ [])) := by
  rw [settleAsks] at h
  split at h
  · rename_i hin
    split at h
    · cases h
    · obtain rfl := Except.ok.inj h
      exact Or.inl ⟨rfl, Or.inl (by simpa using hin)⟩
  · rename_i hin
    have hin : asks.inScope = [] := by simpa using hin
    split at h
    · rename_i hstill
      obtain rfl := Except.ok.inj h
      exact Or.inr ⟨rfl, hin, Or.inl (by simpa using hstill)⟩
    · rename_i hstill
      split at h
      · rename_i halready
        obtain rfl := Except.ok.inj h
        exact Or.inr ⟨rfl, hin, Or.inr (by simpa using halready)⟩
      · rename_i halready
        obtain rfl := Except.ok.inj h
        exact Or.inl ⟨rfl, Or.inr ⟨hin, by simpa using hstill, by simpa using halready⟩⟩

/-- Without an ask in scope nothing is left to raise. -/
theorem settleAsks_ok {asks : RoutedAsks} (h : asks.inScope = []) (inputHash : String) (v : ReviewVerdict)
    (st : ReviewState) :
    ∃ outcome, (settleAsks inputHash v asks st).1 = .ok outcome := by
  rw [settleAsks, h]
  split
  · rename_i hne
    cases hne
  · split
    · exact ⟨_, rfl⟩
    · split <;> exact ⟨_, rfl⟩

/-- An ask that is in none of the lists does not exist. -/
theorem requestChanges_eq_nil (hin : (ctx.asksOf v).inScope = []) (hstill : (ctx.asksOf v).stillOutOfScope = [])
    (halready : (ctx.asksOf v).alreadyAddressed = []) : v.requestChanges = [] := by
  rw [List.eq_nil_iff_forall_not_mem]
  intro a ha
  cases hroute : askRoute ctx.verifyClaim ctx.fileMap ctx.modifiedPaths a with
  | inScope =>
      have hmem := mem_inScope.2 ⟨ha, hroute⟩
      rw [ReviewContext.asksOf] at hin
      rw [hin] at hmem
      exact List.not_mem_nil hmem
  | addressed =>
      have hmem := mem_alreadyAddressed.2 ⟨ha, hroute⟩
      rw [ReviewContext.asksOf] at halready
      rw [halready] at hmem
      exact List.not_mem_nil hmem
  | spawned =>
      have hmem := mem_stillOutOfScope.2 ⟨ha, hroute⟩
      rw [ReviewContext.asksOf] at hstill
      rw [hstill] at hmem
      exact List.not_mem_nil hmem

/-- **The outcome of a routed verdict**: with an ask in scope, or without any ask, the ticket goes back to `ready`;
    otherwise it is approved. -/
theorem routeVerdict_state {outcome : StageOutcome} (h : (routeVerdict ctx inputHash v st).1 = .ok outcome) :
    (outcome.nextState = .ready ∧ ((ctx.asksOf v).inScope ≠ [] ∨ v.requestChanges = [])) ∨
      (outcome.nextState = .documenting ∧ (ctx.asksOf v).inScope = [] ∧ v.requestChanges ≠ []) := by
  have hroutable : Routable ctx v := by
    by_contra hnot
    obtain ⟨e, he⟩ := routeVerdict_raises hnot inputHash st
    rw [he] at h
    cases h
  obtain ⟨st', -, heq⟩ := routeVerdict_ok hroutable inputHash st
  rw [heq] at h
  obtain ⟨hready, hin | ⟨hin, hstill, halready⟩⟩ | ⟨hdoc, hin, hsome⟩ := settleAsks_state h
  · exact Or.inl ⟨hready, Or.inl hin⟩
  · exact Or.inl ⟨hready, Or.inr (requestChanges_eq_nil hin hstill halready)⟩
  · refine Or.inr ⟨hdoc, hin, fun hnil => ?_⟩
    have hroutes : ctx.asksOf v = ⟨[], [], []⟩ := by
      rw [ReviewContext.asksOf, hnil, routeAsks]
      cases ctx.fileMap <;> rfl
    rw [hroutes] at hsome
    obtain hsome | hsome := hsome <;> exact hsome rfl

end Route

/-! ## REQUEST_CHANGES, and a pass -/

section Pass

variable {inputHash : String} {v : ReviewVerdict} {st : ReviewState}

theorem handleRoundCap_state : (handleRoundCap ctx inputHash v st).1.nextState =
    if (roundCapDirectives ctx v).1.isEmpty && (roundCapDirectives ctx v).2.isEmpty then .documenting
    else .awaitingUserReply := by
  rw [handleRoundCap]
  split <;> rfl

/-- The round is the last. -/
theorem handleRequestChanges_cap (h : ctx.reviewMaxRounds ≤ st.reviewRounds + 1) :
    (handleRequestChanges sha256 ctx inputHash v st).1 =
      .ok (handleRoundCap ctx inputHash v (st.setRounds (st.reviewRounds + 1))).1 := by
  rw [handleRequestChanges]
  dsimp only
  rw [if_pos h]

theorem converges_setRounds (st : ReviewState) (n : Nat) (asks : List ReviewAsk) :
    converges sha256 (st.setRounds n) asks = converges sha256 st asks := rfl

/-- The findings are those of the round before. -/
theorem handleRequestChanges_converged (hcap : ¬ ctx.reviewMaxRounds ≤ st.reviewRounds + 1)
    (h : converges sha256 st v.requestChanges = true) :
    (handleRequestChanges sha256 ctx inputHash v st).1 =
      .ok (.block "convergence: repeated review findings — implement stuck") := by
  rw [handleRequestChanges]
  dsimp only
  rw [if_neg hcap, detectConvergence, if_pos (by rw [converges_setRounds, h])]

/-- The state in which the asks of a verdict are routed. -/
def ReviewState.counted (sha256 : String → String) (st : ReviewState) (v : ReviewVerdict) : ReviewState :=
  { st with
    reviewRounds := st.reviewRounds + 1
    fingerprint := some (findingsFingerprint sha256 v.requestChanges) }

theorem handleRequestChanges_routed (hcap : ¬ ctx.reviewMaxRounds ≤ st.reviewRounds + 1)
    (h : converges sha256 st v.requestChanges = false) :
    handleRequestChanges sha256 ctx inputHash v st = routeVerdict ctx inputHash v (st.counted sha256 v) := by
  rw [handleRequestChanges]
  dsimp only
  rw [if_neg hcap, detectConvergence, if_neg (by rw [converges_setRounds, h]; decide)]
  rfl

/-- A pass that gets as far as judging a verdict: there is a diff, no answer of the operator is outstanding, and the
    cache has no outcome for the input. -/
structure Judges (sha256 : String → String) (p : ReviewPass) (st : ReviewState) (v : ReviewVerdict)
    (inputHash : String) (st' : ReviewState) : Prop where
  hasClone : p.hasClone = true
  diff : ∃ diff, p.diff = .ok diff ∧ isBlank diff = false ∧
    unaddressedChangeAnswer p (sha256 diff) st = (none, st') ∧
    inputHash = reviewInputHash sha256 (p.input diff) st'.reviewRounds
  missed : st'.cache.check "review" inputHash = none
  agent : p.agent = .verdict v

/-- The record of a question is used up; nothing else changes before the verdict is judged. -/
theorem unaddressedChangeAnswer_state (p : ReviewPass) (diffHash : String) (st : ReviewState) :
    ∃ marker, (unaddressedChangeAnswer p diffHash st).2 = { st with askUserDiff := marker } := by
  rw [unaddressedChangeAnswer]
  split
  · exact ⟨st.askUserDiff, rfl⟩
  · dsimp only
    split
    · exact ⟨none, rfl⟩
    · split <;> exact ⟨none, rfl⟩

theorem Judges.state {p : ReviewPass} {st' : ReviewState} (h : Judges sha256 p st v inputHash st') :
    ∃ marker, st' = { st with askUserDiff := marker } := by
  obtain ⟨diff, -, -, hanswer, -⟩ := h.diff
  obtain ⟨marker, hmarker⟩ := unaddressedChangeAnswer_state p (sha256 diff) st
  rw [hanswer] at hmarker
  exact ⟨marker, hmarker⟩

theorem reviewRun_of_judges {p : ReviewPass} {st' : ReviewState} (h : Judges sha256 p st v inputHash st') :
    ∃ diff, reviewRun sha256 p st = reviewAfresh sha256 p (sha256 diff) inputHash st' := by
  obtain ⟨diff, hdiff, hblank, hanswer, hhash⟩ := h.diff
  refine ⟨diff, ?_⟩
  rw [reviewRun, h.hasClone, hdiff]
  dsimp only
  rw [hblank, hanswer]
  dsimp only
  rw [← hhash, h.missed]
  rfl

theorem reviewRun_judges {p : ReviewPass} {st' : ReviewState} (h : Judges sha256 p st v inputHash st') :
    (reviewRun sha256 p st).1 = (judge sha256 p inputHash v st').1 := by
  obtain ⟨diff, heq⟩ := reviewRun_of_judges h
  rw [heq, reviewAfresh, h.agent]

end Pass

end Stages
end RobotsixMill
