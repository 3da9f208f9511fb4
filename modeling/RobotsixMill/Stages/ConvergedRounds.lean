import RobotsixMill.Stages.CachedVerdicts

/-!
# `Stages.ConvergedRounds` — when are the findings those of the round before?

`_detect_convergence` hashes the asks of a verdict, their fields one after another and the asks sorted by title, and
compares the hash with the one on file. The file is written by every round that asks for changes and does not
converge; no approval, block or pause removes it.

- `findingsText_eq_of_sameAsks` — the same asks, in any order, have one text if no two of them share a title;
- `RoundLedger` — a ticket's rounds, with the asks of the round before and those whose hash is on file;
- `converged_iff` — along which runs a round is blocked exactly if it repeats the round before.
-/

namespace RobotsixMill
namespace Stages
open RobotsixMill.Core Lib

/-! ## Findings -/

/-- The text of an ask, as it is hashed. -/
def askText (a : ReviewAsk) : String :=
  a.title ++ a.description ++ String.join (a.filesTouched.mergeSort fun f g => decide (f ≤ g))

/-- The order in which the asks are hashed. -/
def titleLe (a b : ReviewAsk) : Bool := decide (a.title ≤ b.title)

/-- The text that is hashed. -/
def findingsText (asks : List ReviewAsk) : String :=
  String.join ((asks.mergeSort titleLe).map askText)

theorem findingsFingerprint_eq (sha256 : String → String) (asks : List ReviewAsk) :
    findingsFingerprint sha256 asks = sha256 (findingsText asks) := rfl

/-- Two asks with the same title, description and files. -/
structure SaysSame (a b : ReviewAsk) : Prop where
  title : a.title = b.title
  description : a.description = b.description
  files : ∀ f, f ∈ a.filesTouched ↔ f ∈ b.filesTouched

/-- Two lists with the same asks. -/
structure SameAsks (asks others : List ReviewAsk) : Prop where
  left : ∀ a ∈ asks, ∃ b ∈ others, SaysSame a b
  right : ∀ b ∈ others, ∃ a ∈ asks, SaysSame a b

/-- A list sorted by a key has its keys in order. -/
theorem pairwise_mergeSort_key {α : Type} (key : α → String) (l : List α) :
    (l.mergeSort fun a b => decide (key a ≤ key b)).Pairwise fun a b => key a ≤ key b := by
  have hpairwise := @List.pairwise_mergeSort α (fun a b => decide (key a ≤ key b))
    (fun a b c hab hbc => decide_eq_true (String.le_trans (of_decide_eq_true hab) (of_decide_eq_true hbc)))
    (fun a b => by simpa using String.le_total (key a) (key b)) l
  exact hpairwise.imp fun h => of_decide_eq_true h

/-- Sorting forgets the order of what has no duplicates. -/
theorem mergeSort_eq_of_mem_iff {l l' : List String} (hl : l.Nodup) (hl' : l'.Nodup) (h : ∀ f, f ∈ l ↔ f ∈ l') :
    l.mergeSort (fun f g => decide (f ≤ g)) = l'.mergeSort fun f g => decide (f ≤ g) := by
  have hperm : l.Perm l' := (List.perm_ext_iff_of_nodup hl hl').2 h
  refine List.Perm.eq_of_pairwise ?_ (pairwise_mergeSort_key id l) (pairwise_mergeSort_key id l') ?_
  · exact fun a b _ _ hab hba => String.le_antisymm hab hba
  · exact ((List.mergeSort_perm l _).trans hperm).trans (List.mergeSort_perm l' _).symm

/-- An ask, with its files in order. -/
def ReviewAsk.canonical (a : ReviewAsk) : String × String × List String :=
  (a.title, a.description, a.filesTouched.mergeSort fun f g => decide (f ≤ g))

theorem canonical_eq {a b : ReviewAsk} (ha : a.filesTouched.Nodup) (hb : b.filesTouched.Nodup) (h : SaysSame a b) :
    a.canonical = b.canonical := by
  rw [ReviewAsk.canonical, ReviewAsk.canonical, h.title, h.description, mergeSort_eq_of_mem_iff ha hb h.files]

/-- **The order in which asks are listed does not matter**, as long as the titles tell them apart. -/
theorem findingsText_eq_of_sameAsks {asks others : List ReviewAsk} (hsame : SameAsks asks others)
    (htitles : (asks.map ReviewAsk.title).Nodup) (htitles' : (others.map ReviewAsk.title).Nodup)
    (hfiles : ∀ a ∈ asks, a.filesTouched.Nodup) (hfiles' : ∀ b ∈ others, b.filesTouched.Nodup) :
    findingsText asks = findingsText others := by
  have hfst : ∀ l : List ReviewAsk, (l.map ReviewAsk.canonical).map Prod.fst = l.map ReviewAsk.title :=
    fun l => List.map_map
  have hnodup : ∀ l : List ReviewAsk, (l.map ReviewAsk.title).Nodup → (l.map ReviewAsk.canonical).Nodup := by
    intro l hl
    rw [← hfst] at hl
    exact hl.of_map _
  have hmem : ∀ key, key ∈ asks.map ReviewAsk.canonical ↔ key ∈ others.map ReviewAsk.canonical := by
    intro key
    constructor
    · intro hkey
      obtain ⟨a, ha, rfl⟩ := List.mem_map.1 hkey
      obtain ⟨b, hb, hab⟩ := hsame.left a ha
      exact List.mem_map.2 ⟨b, hb, (canonical_eq (hfiles a ha) (hfiles' b hb) hab).symm⟩
    · intro hkey
      obtain ⟨b, hb, rfl⟩ := List.mem_map.1 hkey
      obtain ⟨a, ha, hab⟩ := hsame.right b hb
      exact List.mem_map.2 ⟨a, ha, canonical_eq (hfiles a ha) (hfiles' b hb) hab⟩
  have hsorted : ∀ l : List ReviewAsk,
      ((l.mergeSort titleLe).map ReviewAsk.canonical).Pairwise fun a b => a.1 ≤ b.1 := by
    intro l
    rw [List.pairwise_map]
    exact pairwise_mergeSort_key ReviewAsk.title l
  have hperm : ∀ l : List ReviewAsk,
      ((l.mergeSort titleLe).map ReviewAsk.canonical).Perm (l.map ReviewAsk.canonical) :=
    fun l => (List.mergeSort_perm l _).map _
  have hcanonical : (asks.mergeSort titleLe).map ReviewAsk.canonical =
      (others.mergeSort titleLe).map ReviewAsk.canonical := by
    refine List.Perm.eq_of_pairwise ?_ (hsorted asks) (hsorted others)
      (((hperm asks).trans ?_).trans (hperm others).symm)
    · intro a b ha hb hle hge
      have ha' := (hperm asks).subset ha
      have hb' := (hmem b).2 ((hperm others).subset hb)
      exact List.inj_on_of_nodup_map (by rw [hfst]; exact htitles) ha' hb' (String.le_antisymm hle hge)
    · exact (List.perm_ext_iff_of_nodup (hnodup _ htitles) (hnodup _ htitles')).2 hmem
  have htext : ∀ l : List ReviewAsk, l.map askText =
      (l.map ReviewAsk.canonical).map fun key => key.1 ++ key.2.1 ++ String.join key.2.2 := by
    intro l
    rw [List.map_map]
    exact List.map_congr_left fun a _ => rfl
  rw [findingsText, findingsText, htext, htext, hcanonical]

/-! ## Rounds -/

/-- SHA-256 without collisions; its digests are written without white space. -/
structure HexDigest where
  hash : String → String
  injective : Function.Injective hash
  stripped : ∀ text, strip (hash text) = hash text

/-- A round asks for changes: that is its verdict, and it is not the last round, which ends in a pause or with the
    human who merges. -/
def asksForChanges (ctx : ReviewContext) (st : ReviewState) (v : ReviewVerdict) : Bool :=
  decide (v.verdict = .requestChanges) && decide (st.reviewRounds + 1 < ctx.reviewMaxRounds)

/-- What a converged round is blocked with. -/
def convergenceBlock : StageOutcome := .block "convergence: repeated review findings — implement stuck"

/-- The ticket goes back to the implementer, or the pass raises: no approval, no block, no pause. -/
def staysInEpisode : ReviewResult → Bool
  | .ok outcome => decide (outcome.nextState = .ready)
  | .error _ => true

/-- What the stage keeps about the ticket, the asks of the round directly before, if that asked for changes and nothing
    has ended its episode, and the asks whose hash is on file. -/
structure RoundLedger where
  review : ReviewState := {}
  previous : Option (List ReviewAsk) := none
  filed : Option (List ReviewAsk) := none

/-- A review pass; an approval, a block or a pause elsewhere, and the resume from it; or anything else that touches the
    counter or the cache. -/
inductive RoundEvent
  | pass (p : ReviewPass)
  | interruption
  | elsewhere (reviewRounds : Nat) (cache : StageCache)

section Rounds

variable (d : HexDigest)

/-- The ledger after a pass. An answer of the operator goes back without a verdict; so does what the cache replays. -/
def RoundLedger.afterPass (t : RoundLedger) (p : ReviewPass) : RoundLedger :=
  let result := reviewRun d.hash p t.review
  match passCourse d.hash p t.review with
  | .unfinished => { t with review := result.2, previous := if staysInEpisode result.1 then t.previous else none }
  | .replayed _ => { t with review := result.2, previous := if staysInEpisode result.1 then t.previous else none }
  | .answered => { t with review := result.2, previous := none }
  | .judged _ v =>
    if asksForChanges p.toReviewContext t.review v && !converges d.hash t.review v.requestChanges then
      { review := result.2
        previous := if staysInEpisode result.1 then some v.requestChanges else none
        filed := some v.requestChanges }
    else { t with review := result.2, previous := none }

/-- One event. -/
def RoundLedger.after (t : RoundLedger) : RoundEvent → RoundLedger
  | .pass p => t.afterPass d p
  | .interruption => { t with previous := none }
  | .elsewhere reviewRounds cache => { t with review := { t.review with reviewRounds, cache } }

def RoundLedger.Step (t : RoundLedger) (ev : RoundEvent) (t' : RoundLedger) : Prop := t' = t.after d ev

/-- The round repeats the one before: both ask for changes, in one episode, and for the same ones. -/
def Repeats (t : RoundLedger) (ctx : ReviewContext) (v : ReviewVerdict) : Prop :=
  asksForChanges ctx t.review v = true ∧ v.requestChanges ≠ [] ∧
    ∃ asks, t.previous = some asks ∧ asks ≠ [] ∧ SameAsks v.requestChanges asks

/-- Each round is blocked as converged if and only if it repeats the one before. -/
def ConvergesRightly (t : RoundLedger) : RoundEvent → Prop
  | .pass p => ∀ input v, passCourse d.hash p t.review = .judged input v →
      ((reviewRun d.hash p t.review).1 = .ok convergenceBlock ↔ Repeats t p.toReviewContext v)
  | .interruption => True
  | .elsewhere _ _ => True

/-- The texts of the findings tell what the rounds before said. -/
structure TextsTell (t : RoundLedger) (v : ReviewVerdict) : Prop where
  /-- A round without an ask does not follow one without a text. -/
  asked : ∀ asks, t.previous = some asks → v.requestChanges = [] → findingsText [] ≠ findingsText asks
  /-- Different asks of an episode do not run together to the same text. -/
  apart : ∀ asks, t.previous = some asks → findingsText v.requestChanges = findingsText asks →
    SameAsks v.requestChanges asks
  /-- The same asks are not listed to another text, in another order or another number of times. -/
  ordered : ∀ asks, t.previous = some asks → SameAsks v.requestChanges asks →
    findingsText v.requestChanges = findingsText asks
  /-- An episode does not begin with the text that an earlier one left. -/
  afresh : ∀ asks, t.previous = none → t.filed = some asks → findingsText v.requestChanges ≠ findingsText asks

/-- A round that asks for changes finds the texts telling. -/
def FindingsTell (t : RoundLedger) : RoundEvent → Prop
  | .pass p => ∀ input v, passCourse d.hash p t.review = .judged input v →
      asksForChanges p.toReviewContext t.review v = true → TextsTell t v
  | .interruption => True
  | .elsewhere _ _ => True

/-! ### What a verdict does to the hash on file -/

variable {sha256 : String → String} {ctx : ReviewContext} {inputHash : String} {v : ReviewVerdict} {st : ReviewState}

theorem maybeCache_fingerprint (outcome : StageOutcome) : (maybeCache inputHash outcome st).fingerprint =
    st.fingerprint := by
  obtain ⟨cache, h⟩ := maybeCache_writes inputHash outcome st
  rw [h]

theorem settleAsks_fingerprint (asks : RoutedAsks) : (settleAsks inputHash v asks st).2.fingerprint =
    st.fingerprint := by
  obtain ⟨rounds, cache, posts, h⟩ := settleAsks_writes inputHash v asks st
  rw [h]

theorem spawnFollowUps_fingerprint (asks : List ReviewAsk) : (spawnFollowUps ctx asks st).2.fingerprint =
    st.fingerprint := by
  obtain ⟨posts, followUps, h⟩ := @spawnFollowUps_writes ctx asks st
  rw [h]

theorem postAddressed_fingerprint {asks : List ReviewAsk} {st' : ReviewState} (h : postAddressed asks st = .ok st') :
    st'.fingerprint = st.fingerprint := by
  obtain ⟨posts, rfl⟩ := postAddressed_writes h
  rfl

theorem routeVerdict_fingerprint : (routeVerdict ctx inputHash v st).2.fingerprint = st.fingerprint := by
  rw [routeVerdict]
  split
  · rfl
  · rename_i posted hposted
    have hkept : posted.fingerprint = st.fingerprint := by
      split at hposted
      · obtain rfl := Except.ok.inj hposted
        rfl
      · exact postAddressed_fingerprint hposted
    set asks := routeAsks ctx.verifyClaim ctx.fileMap ctx.modifiedPaths v.requestChanges
    have hspawned : ∀ asks : List ReviewAsk, (if asks.isEmpty then (.ok (), posted)
        else spawnFollowUps ctx asks posted).2.fingerprint = st.fingerprint := by
      intro asks
      rw [← hkept]
      split
      · rfl
      · exact spawnFollowUps_fingerprint asks
    split
    · rename_i e st' heq
      have hstate := hspawned asks.stillOutOfScope
      rw [heq] at hstate
      exact hstate
    · rename_i st' heq
      have hstate := hspawned asks.stillOutOfScope
      rw [heq] at hstate
      exact (settleAsks_fingerprint _).trans hstate

theorem handleRoundCap_fingerprint : (handleRoundCap ctx inputHash v st).2.fingerprint = st.fingerprint := by
  rw [handleRoundCap]
  dsimp only
  split
  · exact maybeCache_fingerprint _
  · rfl

/-- What a verdict comes to: it does not ask for changes, or its findings are those on file and it is blocked, or they
    are not and their hash is filed. -/
inductive RoundCase (sha256 : String → String) (ctx : ReviewContext) (st : ReviewState) (v : ReviewVerdict)
    (result : ReviewResult) (fingerprint : Option String) : Prop
  | passes (hasks : asksForChanges ctx st v = false) (hresult : result ≠ .ok convergenceBlock)
      (hfile : fingerprint = st.fingerprint)
  | blocked (hasks : asksForChanges ctx st v = true) (hconverges : converges sha256 st v.requestChanges = true)
      (hresult : result = .ok convergenceBlock) (hfile : fingerprint = st.fingerprint)
  | files (hasks : asksForChanges ctx st v = true) (hconverges : converges sha256 st v.requestChanges = false)
      (hresult : result ≠ .ok convergenceBlock)
      (hfile : fingerprint = some (findingsFingerprint sha256 v.requestChanges))

theorem handleRequestChanges_case (hverdict : v.verdict = .requestChanges) :
    RoundCase sha256 ctx st v (handleRequestChanges sha256 ctx inputHash v st).1
      (handleRequestChanges sha256 ctx inputHash v st).2.fingerprint := by
  have hasks : asksForChanges ctx st v = decide (st.reviewRounds + 1 < ctx.reviewMaxRounds) := by
    rw [asksForChanges, hverdict, decide_eq_true rfl, Bool.true_and]
  by_cases hcap : ctx.reviewMaxRounds ≤ st.reviewRounds + 1
  · refine .passes (hasks.trans (decide_eq_false (not_lt.2 hcap))) ?_ ?_
    · rw [handleRequestChanges_cap hcap]
      intro heq
      have hstate := congrArg StageOutcome.nextState (Except.ok.inj heq)
      rw [handleRoundCap_state] at hstate
      split at hstate <;> cases hstate
    · rw [handleRequestChanges]
      dsimp only
      rw [if_pos hcap]
      exact handleRoundCap_fingerprint
  · have hasks := hasks.trans (decide_eq_true (not_le.1 hcap))
    cases hconverges : converges sha256 st v.requestChanges with
    | true =>
      refine .blocked hasks hconverges (handleRequestChanges_converged hcap hconverges) ?_
      rw [handleRequestChanges]
      dsimp only
      rw [if_neg hcap, detectConvergence, if_pos (by rw [converges_setRounds, hconverges])]
      exact maybeCache_fingerprint _
    | false =>
      rw [handleRequestChanges_routed hcap hconverges]
      refine .files hasks hconverges (fun heq => ?_) routeVerdict_fingerprint
      obtain ⟨hstate, -⟩ | ⟨hstate, -⟩ := routeVerdict_state heq <;> cases hstate

theorem handleReviewVerdict_case : RoundCase sha256 ctx st v (handleReviewVerdict sha256 ctx inputHash v st).1
    (handleReviewVerdict sha256 ctx inputHash v st).2.fingerprint := by
  have hpasses : v.verdict ≠ .requestChanges → asksForChanges ctx st v = false := by
    intro hne
    rw [asksForChanges, decide_eq_false hne, Bool.false_and]
  rw [handleReviewVerdict]
  cases hverdict : v.verdict with
  | approve =>
    exact .passes (hpasses (by rw [hverdict]; exact Verdict.noConfusion)) (fun heq => (by cases heq))
      (maybeCache_fingerprint _)
  | needsDiscussion =>
    exact .passes (hpasses (by rw [hverdict]; exact Verdict.noConfusion)) (fun heq => (by cases heq))
      (maybeCache_fingerprint _)
  | requestChanges => exact handleRequestChanges_case hverdict

/-! ### What a pass does -/

/-- A pass that does not look into the cache leaves the hash on file. -/
theorem reviewRun_fingerprint_of_not_looksUp {p : ReviewPass} (h : ∀ diff, ¬ LooksUp sha256 p st diff) :
    (reviewRun sha256 p st).2.fingerprint = st.fingerprint := by
  rw [reviewRun]
  cases hclone : p.hasClone with
  | false => rfl
  | true =>
    cases hdiff : p.diff with
    | transient => rfl
    | failed error => rfl
    | ok diff =>
      dsimp only
      cases hblank : isBlank diff with
      | true => rfl
      | false =>
        obtain ⟨marker, hmarker⟩ := unaddressedChangeAnswer_state p (sha256 diff) st
        cases hanswer : (unaddressedChangeAnswer p (sha256 diff) st).1 with
        | none => exact absurd ⟨hclone, hdiff, hblank, hanswer⟩ (h diff)
        | some answer =>
          have heq : unaddressedChangeAnswer p (sha256 diff) st = (some answer, { st with askUserDiff := marker }) :=
            Prod.ext hanswer hmarker
          rw [heq]
          rfl

/-- One that does replays an outcome, or reviews afresh. -/
theorem reviewRun_looksUp {p : ReviewPass} {diff : String} (h : LooksUp sha256 p st diff) :
    ∃ marker, (∀ cached,
        st.cache.check "review" (reviewInputHash sha256 (p.input diff) st.reviewRounds) = some cached →
        reviewRun sha256 p st = (.ok cached, { st with askUserDiff := marker })) ∧
      (st.cache.check "review" (reviewInputHash sha256 (p.input diff) st.reviewRounds) = none →
        reviewRun sha256 p st = reviewAfresh sha256 p (sha256 diff)
          (reviewInputHash sha256 (p.input diff) st.reviewRounds) { st with askUserDiff := marker }) := by
  obtain ⟨marker, hmarker⟩ := unaddressedChangeAnswer_state p (sha256 diff) st
  have hanswer : unaddressedChangeAnswer p (sha256 diff) st = (none, { st with askUserDiff := marker }) :=
    Prod.ext h.unanswered hmarker
  rw [reviewRun, h.hasClone, h.hasDiff]
  dsimp only
  rw [h.notBlank, hanswer]
  refine ⟨marker, fun cached hcheck => ?_, fun hcheck => ?_⟩ <;> dsimp only <;> rw [hcheck] <;> rfl

/-- A pass that judges a verdict does with it what `_handle_review_verdict` does; the others leave the hash on file. -/
theorem reviewRun_course (p : ReviewPass) (st : ReviewState) :
    (∃ input v, passCourse sha256 p st = .judged input v ∧
      RoundCase sha256 p.toReviewContext st v (reviewRun sha256 p st).1 (reviewRun sha256 p st).2.fingerprint) ∨
    (∀ input v, passCourse sha256 p st ≠ .judged input v) ∧
      (reviewRun sha256 p st).2.fingerprint = st.fingerprint := by
  have hunjudged : ∀ course : PassCourse, passCourse sha256 p st = course → (∀ input v, course ≠ .judged input v) →
      ∀ input v, passCourse sha256 p st ≠ .judged input v := by
    intro course heq hcourse
    rw [heq]
    exact hcourse
  by_cases hlooks : ∃ diff, LooksUp sha256 p st diff
  · obtain ⟨diff, hlooks⟩ := hlooks
    have hcourse := passCourse_of_looksUp hlooks
    obtain ⟨marker, hreplayed, hafresh⟩ := reviewRun_looksUp hlooks
    cases hcheck : st.cache.check "review" (reviewInputHash sha256 (p.input diff) st.reviewRounds) with
    | some cached =>
      rw [hcheck, courseAfterLookup] at hcourse
      rw [hreplayed cached hcheck]
      exact Or.inr ⟨hunjudged _ hcourse fun _ _ => PassCourse.noConfusion, rfl⟩
    | none =>
      rw [hcheck, courseAfterLookup] at hcourse
      rw [hafresh hcheck, reviewAfresh]
      cases hagent : p.agent with
      | transient =>
        rw [hagent] at hcourse
        exact Or.inr ⟨hunjudged _ hcourse fun _ _ => PassCourse.noConfusion, rfl⟩
      | failed error =>
        rw [hagent] at hcourse
        exact Or.inr ⟨hunjudged _ hcourse fun _ _ => PassCourse.noConfusion, rfl⟩
      | verdict v =>
        rw [hagent] at hcourse
        have hround := @handleReviewVerdict_case sha256 p.toReviewContext
          (reviewInputHash sha256 (p.input diff) st.reviewRounds) (p.checked v) { st with askUserDiff := marker }
        have hmarked : ∀ judged : ReviewResult × ReviewState, ∀ asked : Bool,
            (if asked then { judged.2 with askUserDiff := some (sha256 diff) } else judged.2).fingerprint =
              judged.2.fingerprint := by
          intro judged asked
          split <;> rfl
        refine Or.inl ⟨_, _, hcourse, ?_⟩
        rw [hmarked]
        cases hround with
        | passes hasks hresult hfile => exact .passes hasks hresult hfile
        | blocked hasks hconverges hresult hfile => exact .blocked hasks hconverges hresult hfile
        | files hasks hconverges hresult hfile => exact .files hasks hconverges hresult hfile
  · rw [not_exists] at hlooks
    refine Or.inr ⟨?_, reviewRun_fingerprint_of_not_looksUp hlooks⟩
    obtain ⟨hcourse, -⟩ | ⟨hcourse, -⟩ := reviewRun_of_not_looksUp hlooks
    · exact hunjudged _ hcourse fun _ _ => PassCourse.noConfusion
    · exact hunjudged _ hcourse fun _ _ => PassCourse.noConfusion

/-! ### Runs -/

/-- The hash on file is that of the asks filed last, and these are the asks of the round before if there is one. -/
structure RoundLedger.Filed (d : HexDigest) (t : RoundLedger) : Prop where
  fingerprint : t.review.fingerprint = t.filed.map fun asks => d.hash (findingsText asks)
  previous : ∀ asks, t.previous = some asks → t.filed = some asks

variable {d : HexDigest} {t : RoundLedger}

theorem filed_start : RoundLedger.Filed d {} := ⟨rfl, fun _ h => (by cases h)⟩

/-- The hash on file is that of the findings exactly if the texts are the same. -/
theorem RoundLedger.Filed.converges_iff {t : RoundLedger} (ht : t.Filed d) {asks : List ReviewAsk} :
    converges d.hash t.review asks = true ↔
      ∃ filed, t.filed = some filed ∧ findingsText asks = findingsText filed := by
  rw [converges, ht.fingerprint, findingsFingerprint_eq]
  cases hfiled : t.filed with
  | none => exact iff_of_false Bool.false_ne_true (fun ⟨_, h, _⟩ => by cases h)
  | some filed =>
    show (some (strip (d.hash (findingsText filed))) == some (d.hash (findingsText asks))) = true ↔ _
    rw [beq_iff_eq, d.stripped, Option.some_inj, d.injective.eq_iff]
    constructor
    · exact fun h => ⟨filed, rfl, h.symm⟩
    · rintro ⟨_, heq, h⟩
      rw [Option.some_inj.1 heq]
      exact h.symm

/-- One event keeps the ledger. -/
theorem filed_step {t t' : RoundLedger} {ev : RoundEvent} (ht : t.Filed d) (hstep : t.Step d ev t') : t'.Filed d := by
  subst hstep
  cases ev with
  | interruption => exact ⟨ht.fingerprint, fun _ h => (by cases h)⟩
  | elsewhere reviewRounds cache => exact ⟨ht.fingerprint, ht.previous⟩
  | pass p =>
    have hkeeps : ∀ previous : Option (List ReviewAsk), (∀ asks, previous = some asks → t.filed = some asks) →
        (reviewRun d.hash p t.review).2.fingerprint = t.review.fingerprint →
        RoundLedger.Filed d { t with review := (reviewRun d.hash p t.review).2, previous } :=
      fun _ hprevious hsame => ⟨hsame.trans ht.fingerprint, hprevious⟩
    show (t.afterPass d p).Filed d
    rw [RoundLedger.afterPass]
    obtain ⟨input, v, hcourse, hround⟩ | ⟨hcourse, hsame⟩ := @reviewRun_course d.hash p t.review
    · rw [hcourse]
      dsimp only
      cases hround with
      | passes hasks _ hfile =>
        rw [hasks, Bool.false_and, if_neg Bool.false_ne_true]
        exact hkeeps none (fun _ h => (by cases h)) hfile
      | blocked _ hconverges _ hfile =>
        rw [hconverges, Bool.not_true, Bool.and_false, if_neg Bool.false_ne_true]
        exact hkeeps none (fun _ h => (by cases h)) hfile
      | files hasks hconverges _ hfile =>
        rw [hasks, hconverges, Bool.not_false, Bool.and_true, if_pos rfl]
        refine ⟨hfile, fun asks h => ?_⟩
        dsimp only at h ⊢
        split at h
        · exact h
        · cases h
    · have hprevious : ∀ b : Bool, ∀ asks, (if b then t.previous else none) = some asks → t.filed = some asks := by
        intro b asks h
        split at h
        · exact ht.previous asks h
        · cases h
      cases hpass : passCourse d.hash p t.review with
      | unfinished => exact hkeeps _ (hprevious _) hsame
      | replayed input => exact hkeeps _ (hprevious _) hsame
      | answered => exact hkeeps none (fun _ h => (by cases h)) hsame
      | judged input v => exact absurd hpass (hcourse input v)

/-- What a judged pass comes to. -/
theorem blocked_iff (ht : t.Filed d) {p : ReviewPass} {input : ReviewInput}
    (h : passCourse d.hash p t.review = .judged input v) :
    (reviewRun d.hash p t.review).1 = .ok convergenceBlock ↔ asksForChanges p.toReviewContext t.review v = true ∧
      ∃ filed, t.filed = some filed ∧ findingsText v.requestChanges = findingsText filed := by
  obtain ⟨input', v', hcourse, hround⟩ | ⟨hcourse, -⟩ := @reviewRun_course d.hash p t.review
  · rw [h] at hcourse
    obtain ⟨-, rfl⟩ := PassCourse.judged.inj hcourse
    rw [← ht.converges_iff]
    cases hround with
    | passes hasks hresult _ => exact iff_of_false hresult fun h => by rw [hasks] at h; exact Bool.false_ne_true h.1
    | blocked hasks hconverges hresult _ => exact iff_of_true hresult ⟨hasks, hconverges⟩
    | files _ hconverges hresult _ =>
      exact iff_of_false hresult fun h => by rw [hconverges] at h; exact Bool.false_ne_true h.2
  · exact absurd h (hcourse input v)

theorem SameAsks.ne_nil {asks others : List ReviewAsk} (h : SameAsks asks others) (hne : asks ≠ []) : others ≠ [] := by
  rintro rfl
  obtain ⟨a, ha⟩ := List.exists_mem_of_ne_nil asks hne
  obtain ⟨b, hb, -⟩ := h.left a ha
  exact List.not_mem_nil hb

theorem SameAsks.eq_nil {others : List ReviewAsk} (h : SameAsks [] others) : others = [] := by
  rw [List.eq_nil_iff_forall_not_mem]
  intro b hb
  obtain ⟨a, ha, -⟩ := h.right b hb
  exact List.not_mem_nil ha

/-- **What a round needs**: it is blocked rightly exactly if the texts tell. -/
theorem convergesRightly_iff (ht : t.Filed d) (ev : RoundEvent) : ConvergesRightly d t ev ↔ FindingsTell d t ev := by
  cases ev with
  | interruption => exact Iff.rfl
  | elsewhere reviewRounds cache => exact Iff.rfl
  | pass p =>
    show (∀ input v, _ → _) ↔ (∀ input v, _ → _)
    refine forall_congr' fun input => forall_congr' fun v => imp_congr_right fun hcourse => ?_
    rw [blocked_iff ht hcourse, Repeats]
    cases hasks : asksForChanges p.toReviewContext t.review v with
    | false =>
      have hleft : ∀ {q : Prop}, ¬ (false = true ∧ q) := fun h => Bool.false_ne_true h.1
      exact iff_of_true (iff_of_false hleft hleft) fun h => absurd h Bool.false_ne_true
    | true =>
      rw [and_iff_right rfl, and_iff_right rfl, forall_prop_of_true rfl]
      cases hprevious : t.previous with
      | some asks =>
        have hfiled : (∃ filed, t.filed = some filed ∧ findingsText v.requestChanges = findingsText filed) ↔
            findingsText v.requestChanges = findingsText asks := by
          rw [ht.previous asks hprevious]
          simp
        have hrepeats : (v.requestChanges ≠ [] ∧ ∃ asks', some asks = some asks' ∧ asks' ≠ [] ∧
            SameAsks v.requestChanges asks') ↔ v.requestChanges ≠ [] ∧ SameAsks v.requestChanges asks := by
          constructor
          · rintro ⟨hne, _, heq, -, hsame⟩
            rw [Option.some_inj.1 heq]
            exact ⟨hne, hsame⟩
          · exact fun ⟨hne, hsame⟩ => ⟨hne, asks, rfl, hsame.ne_nil hne, hsame⟩
        rw [hfiled, hrepeats]
        constructor
        · intro h
          have hsame : ∀ asks', t.previous = some asks' → asks' = asks := by
            intro asks' heq
            rw [hprevious] at heq
            exact (Option.some_inj.1 heq).symm
          refine ⟨fun asks' heq hnil htext => ?_, fun asks' heq htext => ?_, fun asks' heq hasks' => ?_,
            fun _ hnone _ => ?_⟩
          · rw [hsame asks' heq, ← hnil] at htext
            exact (h.1 htext).1 hnil
          · rw [hsame asks' heq] at htext ⊢
            exact (h.1 htext).2
          · rw [hsame asks' heq] at hasks' ⊢
            by_cases hnil : v.requestChanges = []
            · rw [hnil] at hasks' ⊢
              rw [hasks'.eq_nil]
            · exact h.2 ⟨hnil, hasks'⟩
          · rw [hprevious] at hnone
            cases hnone
        · intro h
          constructor
          · intro htext
            refine ⟨fun hnil => ?_, h.apart asks hprevious htext⟩
            rw [hnil] at htext
            exact h.asked asks hprevious hnil htext
          · exact fun hboth => h.ordered asks hprevious hboth.2
      | none =>
        have hrepeats : ¬ (v.requestChanges ≠ [] ∧ ∃ asks, none = some asks ∧ asks ≠ [] ∧
            SameAsks v.requestChanges asks) := by
          rintro ⟨-, _, heq, -⟩
          cases heq
        rw [iff_false_right hrepeats]
        constructor
        · intro h
          have hnone : ∀ asks, t.previous ≠ some asks := by
            intro asks heq
            rw [hprevious] at heq
            cases heq
          exact ⟨fun asks heq => absurd heq (hnone asks), fun asks heq => absurd heq (hnone asks),
            fun asks heq => absurd heq (hnone asks), fun asks _ hfiled heq => h ⟨asks, hfiled, heq⟩⟩
        · rintro h ⟨filed, hfiled, heq⟩
          exact h.afresh filed hprevious hfiled heq

/-- **Review convergence.** In a run of a ticket's rounds, each is blocked as converged if and only if it and the round
    directly before ask for changes in one episode, and for the same ones, exactly as long as the texts tell: in an
    episode the text is the same for the same asks, of which there are some, and for no others, and a new episode does
    not begin with the text that an earlier one left. -/
theorem converged_iff (d : HexDigest) (events : List RoundEvent) (t : RoundLedger) :
    Run (Guarded (ConvergesRightly d) (RoundLedger.Step d)) {} events t ↔
      Run (Guarded (FindingsTell d) (RoundLedger.Step d)) {} events t := by
  apply Run.guarded_congr (I := RoundLedger.Filed d)
  · exact fun s ev t hs _ hstep => filed_step hs hstep
  · exact fun s ev hs => convergesRightly_iff hs ev
  · exact filed_start

end Rounds

/-! ### An approval in between -/

/-- A digest that shows its text. -/
def shownHexDigest : HexDigest where
  hash text := "<" ++ text ++ ">"
  injective _ _ h := (String.append_right_inj _).1 ((String.append_left_inj _).1 h)
  stripped text := by
    have hlist : ("<" ++ text ++ ">").toList = '<' :: (text.toList ++ ['>']) := by
      rw [String.toList_append, String.toList_append]
      exact List.append_assoc ['<'] _ _
    have hreverse : ('<' :: (text.toList ++ ['>'])).reverse = '>' :: (text.toList.reverse ++ ['<']) := by
      simp
    have hstrip : stripChars ('<' :: (text.toList ++ ['>'])) = '<' :: (text.toList ++ ['>']) := by
      rw [stripChars, List.dropWhile_cons_of_neg (by decide), hreverse, List.dropWhile_cons_of_neg (by decide),
        ← hreverse, List.reverse_reverse]
    rw [strip, hlist, hstrip, ← hlist, String.ofList_toList]

/-- A pass over a new commit, with three rounds to go. -/
def commitPass (headSha : String) (p : ReviewPass) : ReviewPass := { p with headSha, reviewMaxRounds := 3 }

/-- A test is asked for, and later the change is approved; the ticket comes back, a test is asked for, and that is the
    round before repeated. -/
theorem converged_after_approval : ¬ ∀ (d : HexDigest) (events : List RoundEvent) (t : RoundLedger),
    Run (RoundLedger.Step d) {} events t → Run (Guarded (ConvergesRightly d) (RoundLedger.Step d)) {} events t := by
  intro hclaim
  have hrun : Run (RoundLedger.Step shownHexDigest) {}
      [.pass (commitPass "c1" objectingPass), .pass (commitPass "c2" approvingPass),
        .pass (commitPass "c3" objectingPass)] _ :=
    .cons rfl (.cons rfl (.cons rfl (.nil _)))
  cases hclaim _ _ _ hrun with
  | cons hfirst hrest =>
    cases hrest with
    | cons hsecond hrest =>
      cases hrest with
      | cons hthird _ =>
        have hfiled := filed_step (filed_step filed_start hfirst.2) hsecond.2
        have htell := (convergesRightly_iff hfiled _).1 hthird.1
        obtain rfl := hfirst.2
        obtain rfl := hsecond.2
        exact (htell _ _ rfl (by decide +kernel)).afresh _ rfl rfl rfl

end Stages
end RobotsixMill
