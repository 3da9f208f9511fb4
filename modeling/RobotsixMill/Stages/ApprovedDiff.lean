import Mathlib.Data.Set.Basic
import RobotsixMill.Forge.Reviews
import RobotsixMill.Lib.Runs
import RobotsixMill.Stages.HumanApproval

/-!
# `Stages.ApprovedDiff` — the approval behind a waived gate

A pull request that touches a sensitive path is merged once a human has approved its diff, and again without
asking after a rebase that leaves the diff as it was. The diff is remembered as a hash of its files; of a file the
listing keeps the path and not the content. The approval is looked for in the reviews; which head it was given for,
by whom, and whether it still stands is not looked at, nor is the hash forgotten when it does not.

- `waives` — the skip of the gate, on what the forge lists;
- `Covered` — a human's latest approval, still standing, is of the files the pull request has now;
- `Sound` — the steps that leave the hash and the reviews good for what the skip takes them for;
- `approval_covers_diff` — in runs of such steps the gate is waived for approved files only.
-/

namespace RobotsixMill
namespace Stages
open RobotsixMill.Core Lib Forge

/-! ## The hash -/

/-- The order of `sorted` on pairs of strings. -/
def pairLe (x y : String × String) : Bool := decide (x.1 < y.1 ∨ (x.1 = y.1 ∧ x.2 ≤ y.2))

/-- What `_compute_pr_diff_hash` hashes: the listed files have no `sha`. -/
def diffPairs (files : List PrFile) : List (String × String) :=
  (files.map fun f => (f.path, "")).mergeSort pairLe

section Hash

variable (digest : List (String × String) → String)

/-- `_compute_pr_diff_hash`; `digest` is SHA-256 of the JSON text, and `none` a listing that raises. -/
def computePrDiffHash (listing : Option (List FileItem)) : Option String :=
  listing.map fun items => digest (diffPairs (items.map prFile))

/-- What its docstring says it hashes. -/
def contentPairs (items : List FileItem) : List (String × String) :=
  (items.map fun item => (item.filename, item.sha)).mergeSort pairLe

/-! ## The history of a pull request -/

/-- A pull request, with the file that remembers the approved diff. -/
structure PrHistory where
  head : String
  /-- Oldest first. -/
  reviews : List Review := []
  /-- `approved_diff_hash.txt`. -/
  stored : Option String := none
  /-- The head it was stored at. -/
  storedAt : String := ""

/-- What one run of the skip is told. -/
structure SkipPoll where
  /-- `_auto_merge_eligible` without the gate on sensitive paths. -/
  ineligibleOtherwise : Option String := none
  /-- The listing of the files; `none` if it raises. -/
  listing : Option (List FileItem) := none
  /-- The listing of the reviews; `none` if `pr_review_status` raises. -/
  reviews : Option (List Review) := none
  inline : List InlineComment := []

/-- What the skip works on. -/
def skipContext (p : SkipPoll) : ApprovalContext where
  ineligibleOtherwise := p.ineligibleOtherwise
  diffHash := computePrDiffHash digest p.listing
  approval :=
    match p.reviews with
    | some reviews => .found (prReviewStatus reviews p.inline ((p.listing.getD []).map prFile))
    | none => .raised

/-- The skip, on the file that is stored. -/
def runSkip (σ : PrHistory) (p : SkipPoll) : Artifacts × Bool :=
  trySkipSensitivePathForApprovedDiff (skipContext digest p) { approvedDiffHashTxt := σ.stored }

/-- The gate is waived. -/
def waives (σ : PrHistory) (p : SkipPoll) : Bool := (runSkip digest σ p).2

/-- The pull request after the skip. -/
def afterSkip (σ : PrHistory) (p : SkipPoll) : PrHistory :=
  { σ with
    stored := (runSkip digest σ p).1.approvedDiffHashTxt
    storedAt :=
      if waives digest σ p ∧ σ.stored.map strip ≠ computePrDiffHash digest p.listing then σ.head else σ.storedAt }

end Hash

/-- A dismissed review stays in the list. -/
def dismissReview (id : Int) (reviews : List Review) : List Review :=
  reviews.map fun r => if r.id = id then { r with state := DISMISSED } else r

inductive PrEvent
  /-- By anyone. -/
  | push (head : String)
  | review (r : Review)
  /-- By anyone, the mill included. -/
  | dismiss (id : Int)
  | poll (p : SkipPoll)

/-! ## What an approval covers -/

/-- The paths of a pull request, each with its content. -/
def contents (items : List FileItem) : Set (String × String) :=
  { x | ∃ item ∈ items, (item.filename, item.sha) = x }

/-- The review is a human's approval, and the last word of the reviewer; comments say nothing. -/
structure Stands (reviews : List Review) (r : Review) : Prop where
  given : ∃ earlier later, reviews = earlier ++ r :: later ∧ ∀ r' ∈ later, r'.user = r.user → r'.state = COMMENTED
  human : r.human = true
  approves : r.state = APPROVED

section History

variable (digest : List (String × String) → String) (filesAt : String → List FileItem)

/-- The gate may be waived: an approval that stands was given for the files there are now. -/
def Covered (σ : PrHistory) : Prop :=
  ∃ r, Stands σ.reviews r ∧ contents (filesAt r.commitId) = contents (filesAt σ.head)

/-- One step in the history of a pull request. A review is given for the head there is; an approval or a request
    for changes can be dismissed. -/
inductive PrStep : PrHistory → PrEvent → PrHistory → Prop
  | push {σ : PrHistory} (head : String) : PrStep σ (.push head) { σ with head := head }
  | review {σ : PrHistory} (r : Review) (given : r.commitId = σ.head) (fresh : ∀ r' ∈ σ.reviews, r'.id ≠ r.id)
      (kind : r.state ∈ [APPROVED, CHANGES_REQUESTED, COMMENTED]) :
      PrStep σ (.review r) { σ with reviews := σ.reviews ++ [r] }
  | dismiss {σ : PrHistory} (id : Int) (given : ∀ r ∈ σ.reviews, r.id = id → r.state ∈ [APPROVED, CHANGES_REQUESTED]) :
      PrStep σ (.dismiss id) { σ with reviews := dismissReview id σ.reviews }
  | poll {σ : PrHistory} (p : SkipPoll) : PrStep σ (.poll p) (afterSkip digest σ p)

/-- The hash of a head. -/
def hashAt (head : String) : Option String := computePrDiffHash digest (some (filesAt head))

/-- The hash and the reviews stay good for what the skip takes them for. A push changes no content while an
    approval is the latest review, nor to what has the stored hash and is not what it was stored for; approvals are
    human; no review and no dismissal takes the last approval away the stored hash rests on, and none brings an
    approval back to the front that was given for other files or no longer stands; and the forge lists all there is,
    or fails. -/
def Sound (σ : PrHistory) (e : PrEvent) : Prop :=
  match e with
  | .push head =>
    (∀ r, latestReview σ.reviews = some r → r.state = APPROVED →
        contents (filesAt σ.head) = contents (filesAt head)) ∧
      ∀ text, σ.stored = some text → some (strip text) = hashAt digest filesAt head →
        contents (filesAt σ.storedAt) = contents (filesAt head)
  | .review r =>
    (r.state = APPROVED → r.human = true) ∧
      (σ.stored.isSome = true → r.state ≠ COMMENTED →
        (∃ r', Stands σ.reviews r' ∧ r'.user ≠ r.user ∧
            contents (filesAt r'.commitId) = contents (filesAt σ.storedAt)) ∨
          (r.state = APPROVED ∧ contents (filesAt σ.head) = contents (filesAt σ.storedAt)))
  | .dismiss id =>
    (∀ r, latestReview (dismissReview id σ.reviews) = some r → r.state = APPROVED →
        Stands (dismissReview id σ.reviews) r ∧ contents (filesAt r.commitId) = contents (filesAt σ.head)) ∧
      (σ.stored.isSome = true → ∃ r, Stands σ.reviews r ∧ r.id ≠ id ∧
        contents (filesAt r.commitId) = contents (filesAt σ.storedAt))
  | .poll p => (∀ items, p.listing = some items → items = filesAt σ.head) ∧
      ∀ reviews, p.reviews = some reviews → reviews = σ.reviews

/-- What the skip takes for granted. -/
structure Backed (σ : PrHistory) : Prop where
  latest : ∀ r, latestReview σ.reviews = some r → r.state = APPROVED →
    Stands σ.reviews r ∧ contents (filesAt r.commitId) = contents (filesAt σ.head)
  stands : σ.stored.isSome = true → ∃ r, Stands σ.reviews r ∧
    contents (filesAt r.commitId) = contents (filesAt σ.storedAt)
  same : ∀ text, σ.stored = some text → some (strip text) = hashAt digest filesAt σ.head →
    contents (filesAt σ.storedAt) = contents (filesAt σ.head)

end History

/-! ## An approval, a review more or one less -/

namespace Stands

variable {reviews : List Review} {r r' : Review}

/-- The last review is the last word of whoever gave it. -/
theorem of_last (hhuman : r.human = true) (happroves : r.state = APPROVED) : Stands (reviews ++ [r]) r :=
  ⟨⟨reviews, [], rfl, fun _ h => absurd h List.not_mem_nil⟩, hhuman, happroves⟩

/-- A comment, and a review by another reviewer, leave an approval standing. -/
theorem snoc (h : Stands reviews r) (hother : r'.user = r.user → r'.state = COMMENTED) :
    Stands (reviews ++ [r']) r := by
  obtain ⟨⟨earlier, later, rfl, hlater⟩, hhuman, happroves⟩ := h
  refine ⟨⟨earlier, later ++ [r'], by rw [List.append_assoc, List.cons_append], ?_⟩, hhuman, happroves⟩
  intro q hq huser
  rcases List.mem_append.1 hq with hq | hq
  · exact hlater q hq huser
  · obtain rfl := List.mem_singleton.1 hq
    exact hother huser

/-- So does the dismissal of another review. -/
theorem dismiss {id : Int} (h : Stands reviews r) (hid : r.id ≠ id)
    (hgiven : ∀ q ∈ reviews, q.id = id → q.state ∈ [APPROVED, CHANGES_REQUESTED]) :
    Stands (dismissReview id reviews) r := by
  obtain ⟨⟨earlier, later, rfl, hlater⟩, hhuman, happroves⟩ := h
  refine ⟨⟨dismissReview id earlier, dismissReview id later, ?_, ?_⟩, hhuman, happroves⟩
  · unfold dismissReview
    rw [List.map_append, List.map_cons, if_neg hid]
  · intro q hq huser
    obtain ⟨q', hq', rfl⟩ := List.mem_map.1 hq
    by_cases hdismissed : q'.id = id
    · -- a comment is not dismissed
      rw [if_pos hdismissed] at huser
      have hkind := hgiven q' (List.mem_append_right _ (.tail _ hq')) hdismissed
      rw [hlater q' hq' huser] at hkind
      exact absurd hkind (by decide)
    · rw [if_neg hdismissed] at huser ⊢
      exact hlater q' hq' huser

end Stands

/-! ## One step -/

section Step

variable {digest : List (String × String) → String} {filesAt : String → List FileItem} {σ τ : PrHistory}
  {e : PrEvent}

/-- What the skip of a poll can do to the file, and what it has seen then. -/
theorem afterSkip_cases (digest : List (String × String) → String) (σ : PrHistory) (p : SkipPoll) :
    (afterSkip digest σ p = σ ∧ (waives digest σ p = true →
        σ.stored.map strip = computePrDiffHash digest p.listing ∧ p.listing.isSome = true)) ∨
      ∃ reviews r, p.reviews = some reviews ∧ latestReview reviews = some r ∧ r.state = APPROVED ∧
        p.listing.isSome = true ∧
        afterSkip digest σ p = { σ with stored := computePrDiffHash digest p.listing, storedAt := σ.head } := by
  have hcomputed : (skipContext digest p).diffHash = computePrDiffHash digest p.listing := rfl
  cases skipCase (skipContext digest p) { approvedDiffHashTxt := σ.stored } with
  | held result =>
    have hwaives : waives digest σ p = false := by rw [waives, runSkip, result]
    refine .inl ⟨?_, fun h => ?_⟩
    · unfold afterSkip
      rw [hwaives, runSkip, result, if_neg (fun h => Bool.false_ne_true h.1)]
    · rw [hwaives] at h
      cases h
  | stored hash onlyPaths current same result =>
    have hmatch : σ.stored.map strip = computePrDiffHash digest p.listing := by
      rw [← hcomputed, current]
      exact same
    refine .inl ⟨?_, fun _ => ⟨hmatch, ?_⟩⟩
    · unfold afterSkip
      rw [runSkip, result, if_neg (fun h => h.2 hmatch)]
    · rw [hcomputed] at current
      cases hlisting : p.listing with
      | none =>
        rw [hlisting] at current
        cases current
      | some items => rfl
  | approved hash rs onlyPaths current other review state result =>
    have hwaives : waives digest σ p = true := by rw [waives, runSkip, result]
    have hnew : σ.stored.map strip ≠ computePrDiffHash digest p.listing := by
      rw [← hcomputed, current]
      exact other
    right
    unfold skipContext at review
    dsimp only at review
    cases hreviews : p.reviews with
    | none =>
      rw [hreviews] at review
      cases review
    | some reviews =>
      rw [hreviews] at review
      obtain rfl := Answer.found.inj review
      obtain ⟨r, hlatest, happroves⟩ := latestReview_of_approved state
      refine ⟨reviews, r, rfl, hlatest, happroves, ?_, ?_⟩
      · rw [hcomputed] at current
        cases hlisting : p.listing with
        | none =>
          rw [hlisting] at current
          cases current
        | some items => rfl
      · unfold afterSkip
        rw [hwaives, if_pos ⟨rfl, hnew⟩, runSkip, result, ← hcomputed, current]

/-- **One step.** A sound one leaves the skip with what it takes for granted. -/
theorem Backed.step (h : Backed digest filesAt σ) (hsound : Sound digest filesAt σ e)
    (hstep : PrStep digest σ e τ) : Backed digest filesAt τ := by
  cases hstep with
  | push head =>
    refine ⟨?_, h.stands, hsound.2⟩
    intro r hlatest happroves
    obtain ⟨hstands, hsame⟩ := h.latest r hlatest happroves
    exact ⟨hstands, hsame.trans (hsound.1 r hlatest happroves)⟩
  | review r given fresh kind =>
    refine ⟨?_, ?_, h.same⟩
    · intro r' hlatest happroves
      have hkept : r.state ≠ DISMISSED := by
        intro hdismissed
        rw [hdismissed] at kind
        revert kind
        decide
      obtain rfl : r = r' := Option.some.inj ((latestReview_append hkept _).symm.trans hlatest)
      exact ⟨.of_last (hsound.1 happroves) happroves, by rw [given]⟩
    · intro hstored
      by_cases hcomment : r.state = COMMENTED
      · obtain ⟨r', hstands, hsame⟩ := h.stands hstored
        exact ⟨r', hstands.snoc fun _ => hcomment, hsame⟩
      · rcases hsound.2 hstored hcomment with ⟨r', hstands, huser, hsame⟩ | ⟨happroves, hsame⟩
        · exact ⟨r', hstands.snoc fun heq => absurd heq.symm huser, hsame⟩
        · exact ⟨r, .of_last (hsound.1 happroves) happroves, by rw [given]; exact hsame⟩
  | dismiss id given =>
    refine ⟨hsound.1, ?_, h.same⟩
    intro hstored
    obtain ⟨r, hstands, hid, hsame⟩ := hsound.2 hstored
    exact ⟨r, hstands.dismiss hid given, hsame⟩
  | poll p =>
    rcases afterSkip_cases digest σ p with
      ⟨heq, -⟩ | ⟨reviews, r, hreviews, hlatest, happroves, hlisted, heq⟩
    · rw [heq]
      exact h
    · obtain rfl := hsound.2 reviews hreviews
      obtain ⟨hstands, hsame⟩ := h.latest r hlatest happroves
      rw [heq]
      exact ⟨h.latest, fun _ => ⟨r, hstands, hsame⟩, fun _ _ _ => rfl⟩

/-- What is waived then is covered. -/
theorem Backed.covered (h : Backed digest filesAt σ) {p : SkipPoll} (hsound : Sound digest filesAt σ (.poll p))
    (hwaives : waives digest σ p = true) : Covered filesAt σ := by
  rcases afterSkip_cases digest σ p with
    ⟨-, hmatch⟩ | ⟨reviews, r, hreviews, hlatest, happroves, -, -⟩
  · obtain ⟨hsame, hlisted⟩ := hmatch hwaives
    obtain ⟨items, hitems⟩ := Option.isSome_iff_exists.1 hlisted
    obtain rfl := hsound.1 items hitems
    cases hstored : σ.stored with
    | none =>
      rw [hstored, hitems] at hsame
      cases hsame
    | some text =>
      obtain ⟨r, hstands, hgiven⟩ := h.stands (by rw [hstored]; rfl)
      refine ⟨r, hstands, hgiven.trans (h.same text hstored ?_)⟩
      rw [hstored, hitems] at hsame
      exact hsame
  · obtain rfl := hsound.2 reviews hreviews
    exact ⟨r, h.latest r hlatest happroves⟩

/-- **The gate is waived for approved files only**, in every history of sound steps. -/
theorem approval_covers_diff {head : String} {l : List PrEvent}
    (hrun : Run (Guarded (Sound digest filesAt) (PrStep digest)) { head := head } l σ) {p : SkipPoll}
    (hsound : Sound digest filesAt σ (.poll p)) (hwaives : waives digest σ p = true) : Covered filesAt σ := by
  have hstart : Backed digest filesAt { head := head } :=
    ⟨fun r h => (by cases h), fun h => (by cases h), fun text h => (by cases h)⟩
  have hbacked : Backed digest filesAt σ := hrun.invariant (fun _ _ _ h hstep => h.step hstep.1 hstep.2) hstart
  exact hbacked.covered hsound hwaives

end Step

/-! ## Two contents of one path -/

/-- A hash of paths and shas that is easy to compute. -/
def PLAIN_DIGEST (pairs : List (String × String)) : String := "\n".intercalate (pairs.map fun x => x.1 ++ "@" ++ x.2)

/-- A pull request that changes a workflow, with this content. -/
def workflowOf (sha : String) : List FileItem := [{ filename := ".github/workflows/ci.yml", sha := sha }]

/-- A human approves the head `h1`. -/
def APPROVAL : Review := { id := 1, user := "alice", human := true, state := APPROVED, commitId := "h1" }

/-- The skip, with all that the forge has. -/
def fullPoll (items : List FileItem) : SkipPoll := { listing := some items, reviews := some [APPROVAL] }

/-- The hash knows the path only. -/
theorem workflow_hash (sha : String) :
    computePrDiffHash PLAIN_DIGEST (some (workflowOf sha)) = some ".github/workflows/ci.yml@" := by
  simp [computePrDiffHash, workflowOf, diffPairs, prFile, PLAIN_DIGEST]

/-- The first skip finds the approval, and remembers the diff. -/
theorem first_skip (sha : String) :
    runSkip PLAIN_DIGEST { head := "h1", reviews := [APPROVAL] } (fullPoll (workflowOf sha)) =
      ({ approvedDiffHashTxt := some ".github/workflows/ci.yml@" }, true) := by
  have hhash : (skipContext PLAIN_DIGEST (fullPoll (workflowOf sha))).diffHash = some ".github/workflows/ci.yml@" :=
    workflow_hash sha
  unfold runSkip trySkipSensitivePathForApprovedDiff
  rw [hhash]
  rfl

/-- The next one finds the hash, whatever the content is. -/
theorem second_skip (head sha : String) :
    waives PLAIN_DIGEST
      { head := head, reviews := [APPROVAL], stored := some ".github/workflows/ci.yml@", storedAt := "h1" }
      (fullPoll (workflowOf sha)) = true := by
  have hhash : (skipContext PLAIN_DIGEST (fullPoll (workflowOf sha))).diffHash = some ".github/workflows/ci.yml@" :=
    workflow_hash sha
  unfold waives runSkip trySkipSensitivePathForApprovedDiff
  rw [hhash]
  rfl

/-- The approval, and the first skip after it. -/
theorem remembered (filesAt : String → List FileItem) (sha : String) (hfiles : filesAt "h1" = workflowOf sha) :
    Run (Guarded (Sound PLAIN_DIGEST filesAt) (PrStep PLAIN_DIGEST)) { head := "h1" }
      [.review APPROVAL, .poll (fullPoll (workflowOf sha))]
      { head := "h1", reviews := [APPROVAL], stored := some ".github/workflows/ci.yml@", storedAt := "h1" } := by
  have hafter : afterSkip PLAIN_DIGEST { head := "h1", reviews := [APPROVAL] } (fullPoll (workflowOf sha)) =
      { head := "h1", reviews := [APPROVAL], stored := some ".github/workflows/ci.yml@", storedAt := "h1" } := by
    unfold afterSkip waives
    rw [first_skip]
    dsimp only
    rw [if_pos ⟨rfl, fun h => by cases h.trans (workflow_hash sha)⟩]
  refine .cons ⟨⟨fun _ => rfl, fun h => absurd h (by decide)⟩, .review APPROVAL rfl ?_ (by decide)⟩ ?_
  · intro r h
    cases h
  · refine .single ⟨⟨?_, ?_⟩, ?_⟩
    · intro items h
      rw [← Option.some.inj h]
      exact hfiles.symm
    · intro reviews h
      exact (Option.some.inj h).symm
    · rw [← hafter]
      exact .poll _

/-- The content is pushed again under another head, as by a rebase. -/
theorem rebased_diff_waived :
    waives PLAIN_DIGEST
        { head := "h2", reviews := [APPROVAL], stored := some ".github/workflows/ci.yml@", storedAt := "h1" }
        (fullPoll (workflowOf "b1")) = true ∧
      Covered (fun _ => workflowOf "b1")
        { head := "h2", reviews := [APPROVAL], stored := some ".github/workflows/ci.yml@", storedAt := "h1" } := by
  have hpush : Guarded (Sound PLAIN_DIGEST fun _ => workflowOf "b1") (PrStep PLAIN_DIGEST)
      { head := "h1", reviews := [APPROVAL], stored := some ".github/workflows/ci.yml@", storedAt := "h1" }
      (.push "h2")
      { head := "h2", reviews := [APPROVAL], stored := some ".github/workflows/ci.yml@", storedAt := "h1" } :=
    ⟨⟨fun _ _ _ => rfl, fun _ _ _ => rfl⟩, .push "h2"⟩
  have hpoll : Sound PLAIN_DIGEST (fun _ => workflowOf "b1")
      { head := "h2", reviews := [APPROVAL], stored := some ".github/workflows/ci.yml@", storedAt := "h1" }
      (.poll (fullPoll (workflowOf "b1"))) :=
    ⟨fun _ h => (Option.some.inj h).symm, fun _ h => (Option.some.inj h).symm⟩
  refine ⟨second_skip "h2" "b1", ?_⟩
  apply approval_covers_diff ((remembered (fun _ => workflowOf "b1") "b1" rfl).snoc hpush) hpoll
  exact second_skip "h2" "b1"

/-- The workflow that was approved, and another one pushed later. -/
def workflowAt (head : String) : List FileItem := if head = "h1" then workflowOf "b1" else workflowOf "b2"

/-- A path and two contents: the second is merged on the approval of the first, although a hash of paths and shas
    would tell them apart. -/
theorem unapproved_content_waived :
    ¬ ∀ (digest : List (String × String) → String) (filesAt : String → List FileItem) (head : String)
        (l : List PrEvent) (σ : PrHistory) (p : SkipPoll),
        (∀ a b, digest (contentPairs (filesAt a)) = digest (contentPairs (filesAt b)) →
          contents (filesAt a) = contents (filesAt b)) →
        Run (PrStep digest) { head := head } l σ → p.listing = some (filesAt σ.head) →
        p.reviews = some σ.reviews → waives digest σ p = true → Covered filesAt σ := by
  intro h
  have htells : ∀ a b, PLAIN_DIGEST (contentPairs (workflowAt a)) = PLAIN_DIGEST (contentPairs (workflowAt b)) →
      contents (workflowAt a) = contents (workflowAt b) := by
    intro a b heq
    have hb1 : PLAIN_DIGEST (contentPairs (workflowOf "b1")) = ".github/workflows/ci.yml@b1" := by
      simp [contentPairs, workflowOf, PLAIN_DIGEST]
    have hb2 : PLAIN_DIGEST (contentPairs (workflowOf "b2")) = ".github/workflows/ci.yml@b2" := by
      simp [contentPairs, workflowOf, PLAIN_DIGEST]
    unfold workflowAt at heq ⊢
    split at heq <;> split at heq <;> simp_all
  obtain ⟨r, hstands, hsame⟩ := h PLAIN_DIGEST workflowAt "h1"
    ([.review APPROVAL, .poll (fullPoll (workflowOf "b1"))] ++ [.push "h2"])
    { head := "h2", reviews := [APPROVAL], stored := some ".github/workflows/ci.yml@", storedAt := "h1" }
    (fullPoll (workflowOf "b2")) htells ((remembered workflowAt "b1" rfl).unguard.snoc (.push "h2")) rfl rfl
    (second_skip "h2" "b2")
  -- the approval is of the first content
  obtain ⟨⟨earlier, later, hlist, -⟩, -, -⟩ := hstands
  have hlisted : [APPROVAL] = earlier ++ r :: later := hlist
  have hmem : r ∈ [APPROVAL] := by
    rw [hlisted]
    exact List.mem_append_right earlier List.mem_cons_self
  obtain rfl := List.mem_singleton.1 hmem
  have hin : (".github/workflows/ci.yml", "b1") ∈ contents (workflowAt "h2") :=
    hsame ▸ ⟨_, List.mem_singleton.2 rfl, rfl⟩
  obtain ⟨item, hitem, heq⟩ := hin
  obtain rfl := List.mem_singleton.1 hitem
  exact absurd heq (by decide)

end Stages
end RobotsixMill
