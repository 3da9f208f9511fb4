import RobotsixMill.Core.Workspace

/-!
# `Forge.Reviews` — the files and the reviews of a pull request, as the mill sees them

`_pr_files` keeps of each changed file its path, its status and the sizes of its change. `_pr_review_status`
reduces the reviews, oldest first, to one state: that of the latest one which is not dismissed, whoever gave it.

- `prFile`, `prReviewStatus` — what is kept;
- `latestReview` — the review whose state counts, if it is not dismissed;
- `latestReview_of_approved` — an approval that is reported is that of the latest review.
-/

namespace RobotsixMill
namespace Forge
open RobotsixMill.Core Lib

/-- An item of the listing of a pull request's files. -/
structure FileItem where
  filename : String
  /-- The blob, that is, the content. -/
  sha : String
  status : String := "modified"
  additions : Int := 0
  deletions : Int := 0
deriving DecidableEq, Repr

structure PrFile where
  path : String
  status : String := "modified"
  additions : Int := 0
  deletions : Int := 0
deriving DecidableEq, Repr

/-- `_pr_files`, item by item. -/
def prFile (item : FileItem) : PrFile where
  path := item.filename
  status := item.status
  additions := item.additions
  deletions := item.deletions

/-- An item of the listing of the reviews. -/
structure Review where
  id : Int
  user : String
  /-- The user is no bot. -/
  human : Bool
  state : String
  commitId : String
  body : String := ""
deriving DecidableEq, Repr

/-- An item of the listing of the comments on lines. -/
structure InlineComment where
  body : String
  path : String := ""
  line : Option Int := none
  originalLine : Option Int := none
  reviewId : Option Int := none
deriving DecidableEq, Repr

def DISMISSED : String := "DISMISSED"
def APPROVED : String := "APPROVED"
def CHANGES_REQUESTED : String := "CHANGES_REQUESTED"
def COMMENTED : String := "COMMENTED"

/-- The latest review that is not dismissed. -/
def latestReview (reviews : List Review) : Option Review :=
  reviews.reverse.find? fun r => r.state ≠ DISMISSED

/-- The review `_pr_review_status` reports; when all are dismissed, the last one. -/
def reportedReview (reviews : List Review) : Option Review :=
  match latestReview reviews with
  | some r => some r
  | none => reviews.getLast?

/-- The state of the review a comment belongs to. -/
def reviewStateOf (reviews : List Review) (c : InlineComment) : String :=
  match reviews.reverse.find? fun r => some r.id = c.reviewId with
  | some r => r.state
  | none => COMMENTED

/-- `_pr_review_status`. -/
def prReviewStatus (reviews : List Review) (inline : List InlineComment) (files : List PrFile) : ReviewStatus where
  state := match reportedReview reviews with
    | some r => r.state
    | none => "PENDING"
  comments :=
    (reviews.filter fun r => strip r.body ≠ "").map (fun r => { body := r.body, reviewState := r.state }) ++
      inline.map fun c =>
        { body := c.body, path := c.path, line := (c.line.filter (· ≠ 0)).or c.originalLine, reviewState := reviewStateOf reviews c }
  files := files.map PrFile.path
  commitId := match reportedReview reviews with
    | some r => r.commitId
    | none => ""
  reviewId := (reportedReview reviews).map Review.id

/-! ## The reduction -/

/-- A dismissed review is reported as such, so an approval reported is the latest review not dismissed. -/
theorem latestReview_of_approved {reviews : List Review} {inline : List InlineComment} {files : List PrFile}
    (h : (prReviewStatus reviews inline files).state = APPROVED) :
    ∃ r, latestReview reviews = some r ∧ r.state = APPROVED := by
  unfold prReviewStatus reportedReview at h
  dsimp only at h
  cases hlatest : latestReview reviews with
  | some r =>
    rw [hlatest] at h
    exact ⟨r, rfl, h⟩
  | none =>
    rw [hlatest] at h
    dsimp only at h
    cases hlast : reviews.getLast? with
    | none =>
      rw [hlast] at h
      exact absurd h (by decide)
    | some r =>
      -- every review is dismissed, the last one as well
      rw [hlast] at h
      have hmem : r ∈ reviews.reverse := List.mem_reverse.2 (List.mem_of_getLast? hlast)
      have hdismissed := List.find?_eq_none.1 hlatest r hmem
      have hstate : r.state = APPROVED := h
      rw [hstate] at hdismissed
      exact absurd (by decide) hdismissed

/-- A review that is not dismissed is the latest. -/
theorem latestReview_append {r : Review} (h : r.state ≠ DISMISSED) (reviews : List Review) :
    latestReview (reviews ++ [r]) = some r := by
  unfold latestReview
  rw [List.reverse_append, List.reverse_singleton, List.singleton_append, List.find?_cons_of_pos]
  exact decide_eq_true h

end Forge
end RobotsixMill
