import RobotsixMill.Lib.Paged
import RobotsixMill.Lib.PyJson

/-!
# `Forge.Http` — requests to the forge, and what comes back

The forge holds pull requests and the files each one changes; `serve` is how it answers a request. An answer
can go wrong in any way, so the answers to come are a list in which `none` is the one the forge has and
anything else stands in its place. Code reads them in order, as it makes its requests.

- `receive` — the status checks all readers share;
- `paginatedGet` — `_paginated_get`;
- `getPr`, `prFiles` — the lookup of a branch's pull request, and the list of files it changes;
- `Obtains`, `prFilesOf_of_obtains` — an attempt gets every page, and the list is then complete.
-/

namespace RobotsixMill
namespace Forge
open Lib

/-! ## Requests and answers -/

/-- What comes back: nothing (no credentials, no connection), or a status and a body; `none` is no JSON. -/
inductive Reply
  | transportError
  | answer (status : Nat) (body : Option Json)

/-- The requests these readers make; a number is written into the path as it was received. -/
inductive Request
  | pulls (head : String)
  | pull (number : Json)
  | pullFiles (number : Json) (page : Nat)

/-- A changed file, as the forge has it. -/
structure ChangedFile where
  filename : String
  status : String := "modified"
  additions : Nat := 0
  deletions : Nat := 0
deriving DecidableEq, Repr

/-- What the forge holds. -/
structure Server where
  /-- The pull requests whose head is the branch, the last first. -/
  pulls : String → List Nat
  /-- The fields of a pull request besides its number. -/
  detail : Nat → List (String × Json) := fun _ => []
  files : Nat → List ChangedFile

/-- `per_page`. -/
def PER_PAGE : Nat := 100

def ChangedFile.json (f : ChangedFile) : Json :=
  .obj [("filename", .str f.filename), ("status", .str f.status), ("additions", .num f.additions),
    ("deletions", .num f.deletions)]

/-- How the forge answers. -/
def serve (srv : Server) : Request → Reply
  | .pulls head => .answer 200 (some (.arr ((srv.pulls head).map fun n => .obj [("number", .num n)])))
  | .pull (.num (.ofNat n)) => .answer 200 (some (.obj (srv.detail n ++ [("number", .num n)])))
  | .pullFiles (.num (.ofNat n)) page =>
    .answer 200 (some (.arr ((((srv.files n).drop (PER_PAGE * (page - 1))).take PER_PAGE).map ChangedFile.json)))
  | _ => .answer 404 none

/-- The answer to a request: the one the forge has, or what stands in its place. -/
def answerTo (srv : Server) (req : Request) (instead : Option Reply) : Reply := instead.getD (serve srv req)

/-- An answer after the 401 check, `raise_for_status` and `json()`. -/
inductive Received
  | unauthorized
  | raised
  | json (body : Json)

def receive : Reply → Received
  | .transportError => .raised
  | .answer status body =>
    if status = 401 then .unauthorized
    else if 200 ≤ status ∧ status < 300 then
      match body with
      | some j => .json j
      | none => .raised
    else .raised

/-- How a call ends: it has returned, or raised, or it is still waiting for an answer. -/
inductive Ending (α : Type)
  | waiting
  | raised
  | returned (a : α) (rest : List (Option Reply))

/-! ## Pages -/

variable (srv : Server)

/-- A page, with every item mapped. -/
def pageReply {α : Type} (request : Nat → Request) (item : Json → Option α) (page : Nat)
    (instead : Option Reply) : PageReply α :=
  match receive (answerTo srv (request page) instead) with
  | .unauthorized => .unauthorized
  | .raised => .raised
  | .json j =>
    match j.iterate.bind fun items => items.mapM item with
    | some l => .items l
    | none => .raised

/-- What `_paginated_get` gives after its last attempt; one that a 401 ends gives what it has got. -/
def settle {α : Type} (fallback : List α) : PagesEnd (Option Reply) α → Ending (List α)
  | .waiting => .waiting
  | .raised rest => .returned fallback rest
  | .done out rest => .returned out rest
  | .unauthorized out rest => .returned out rest

/-- `_paginated_get`. After a 401 a second attempt starts over. -/
def paginatedGet {α : Type} (request : Nat → Request) (item : Json → Option α) (fallback : List α)
    (answers : List (Option Reply)) : Ending (List α) :=
  let attempt := readPages PER_PAGE (pageReply srv request item) 1 []
  match attempt answers with
  | .unauthorized _ rest => settle fallback (attempt rest)
  | ending => settle fallback ending

/-! ## The pull request of a branch -/

/-- `_parse_pr_detail`. -/
structure PrDetail where
  merged : Bool
  state : Json
  url : Json
  mergeable : Json
  mergeableState : Json
  sha : Json
  number : Json
  author : Json

/-- `(j.get(key) or {}).get(inner, "")`. -/
def getInner (key inner : String) (j : Json) : Option Json := do
  let outer ← j.get key .null
  if outer.truthy then outer.get inner (.str "") else some (.str "")

def parsePrDetail (pr : Json) : Option PrDetail := do
  let mergeableState ← pr.get "mergeable_state" .null
  let mergeable ← pr.get "mergeable" .null
  let unknown := match mergeableState with
    | .null => true
    | .str s => decide (s = "unknown")
    | _ => false
  let merged ← pr.get "merged" .null
  let state ← pr.get "state" (.str "open")
  let url ← pr.get "html_url" (.str "")
  let sha ← getInner "head" "sha" pr
  let number ← pr.getItem "number"
  let author ← getInner "user" "login" pr
  some { merged := merged.truthy, state, url, mergeable := if unknown then .null else mergeable
         mergeableState, sha, number, author }

/-- An attempt of `_get_pr`; a 401 on either request gives the answers that are left. -/
def getPrAttempt (head : String) (answers : List (Option Reply)) :
    List (Option Reply) ⊕ Ending (Option PrDetail) :=
  match answers with
  | [] => .inr .waiting
  | first :: rest =>
    match receive (answerTo srv (.pulls head) first) with
    | .unauthorized => .inl rest
    | .raised => .inr .raised
    | .json items =>
      if items.truthy = false then .inr (.returned none rest)
      else match items.first.bind fun item => item.getItem "number" with
        | none => .inr .raised
        | some num =>
          match rest with
          | [] => .inr .waiting
          | second :: rest =>
            match receive (answerTo srv (.pull num) second) with
            | .unauthorized => .inl rest
            | .raised => .inr .raised
            | .json detail =>
              match parsePrDetail detail with
              | none => .inr .raised
              | some pr => .inr (.returned (some pr) rest)

/-- `_get_pr`: after two attempts that end on a 401, no pull request. -/
def getPr (head : String) (answers : List (Option Reply)) : Ending (Option PrDetail) :=
  match getPrAttempt srv head answers with
  | .inr ending => ending
  | .inl rest =>
    match getPrAttempt srv head rest with
    | .inr ending => ending
    | .inl rest => .returned none rest

/-- An entry of `pr_files`. -/
structure FileEntry where
  path : Json
  status : Json
  additions : Json
  deletions : Json

def fileEntry (item : Json) : Option FileEntry := do
  let path ← item.getItem "filename"
  let status ← item.get "status" (.str "modified")
  let additions ← item.get "additions" (.num 0)
  let deletions ← item.get "deletions" (.num 0)
  some { path, status, additions, deletions }

/-- `_pr_files`. -/
def prFilesOf (number : Json) (answers : List (Option Reply)) : Ending (List FileEntry) :=
  paginatedGet srv (.pullFiles number) fileEntry [] answers

/-- `pr_files`. -/
def prFiles (sourceBranch : String) (answers : List (Option Reply)) : Ending (List FileEntry) :=
  match getPr srv sourceBranch answers with
  | .waiting => .waiting
  | .raised => .raised
  | .returned none rest => .returned [] rest
  | .returned (some pr) rest => prFilesOf srv pr.number rest

/-! ## What a listing is made of -/

/-- A page of the files of a pull request. -/
abbrev filesPage (number : Json) : Nat → Option Reply → PageReply FileEntry :=
  pageReply srv (.pullFiles number) fileEntry

/-- The attempt that counts gets these answers: the first, or the second if the first ends on a 401. -/
def LastAttempt (number : Json) (answers last : List (Option Reply)) : Prop :=
  (∃ k r, Ends PER_PAGE (filesPage srv number) 1 answers k r ∧
    filesPage srv number (1 + k) r = .unauthorized ∧ last = answers.drop (k + 1)) ∨
  ((¬ ∃ k r, Ends PER_PAGE (filesPage srv number) 1 answers k r ∧
    filesPage srv number (1 + k) r = .unauthorized) ∧ last = answers)

/-- Every page of the files of a pull request is answered. -/
def AllPages (n : Nat) (answers : List (Option Reply)) : Prop :=
  ∀ j ≤ (srv.files n).length / PER_PAGE, answers[j]? = some none

/-- An attempt gets every page. -/
def Obtains (n : Nat) (answers : List (Option Reply)) : Prop :=
  ∃ last, LastAttempt srv (.num n) answers last ∧ AllPages srv n last

/-- The entry of a changed file. -/
def ChangedFile.entry (f : ChangedFile) : FileEntry :=
  { path := .str f.filename, status := .str f.status, additions := .num f.additions, deletions := .num f.deletions }

variable {srv}

@[simp] theorem receive_ok (j : Json) : receive (.answer 200 (some j)) = .json j := by simp [receive]

theorem fileEntry_json (f : ChangedFile) : fileEntry f.json = some f.entry := by
  simp [fileEntry, ChangedFile.json, Json.getItem, Json.get, List.lookup_cons, ChangedFile.entry]

theorem mapM_fileEntry (fs : List ChangedFile) :
    (fs.map ChangedFile.json).mapM fileEntry = some (fs.map ChangedFile.entry) := by
  induction fs with
  | nil => rfl
  | cons f fs ih =>
      rw [List.map_cons, List.mapM_cons, ih, fileEntry_json]
      rfl

/-- An answer of the forge is a page of the files. -/
theorem filesPage_none (n j : Nat) : filesPage srv (.num n) (1 + j) none =
    .items ((((srv.files n).map ChangedFile.entry).drop (PER_PAGE * j)).take PER_PAGE) := by
  have hserve : serve srv (.pullFiles (.num n) (1 + j)) = .answer 200 (some (.arr
      ((((srv.files n).drop (PER_PAGE * j)).take PER_PAGE).map ChangedFile.json))) := by
    show Reply.answer 200 _ = _
    rw [Nat.add_sub_cancel_left]
  unfold filesPage pageReply answerTo
  rw [Option.getD_none, hserve, receive_ok]
  dsimp only [Json.iterate, Option.bind_some]
  rw [mapM_fileEntry, List.map_take, List.map_drop]

/-- The attempt that counts settles the list. -/
theorem prFilesOf_eq_settle {number : Json} {answers last : List (Option Reply)}
    (h : LastAttempt srv number answers last) : prFilesOf srv number answers =
      settle [] (readPages PER_PAGE (filesPage srv number) 1 [] last) := by
  unfold prFilesOf paginatedGet
  dsimp only
  rcases h with ⟨k, r, hends, hunauthorized, rfl⟩ | ⟨hfirst, rfl⟩
  · obtain ⟨got, -, hread⟩ := readPages_of_ends hends []
    rw [hunauthorized] at hread
    rw [hread]
  · by_cases hends : ∃ k r, Ends PER_PAGE (filesPage srv number) 1 last k r
    · obtain ⟨k, r, hends⟩ := hends
      obtain ⟨got, -, hread⟩ := readPages_of_ends hends []
      rw [hread]
      cases hpage : filesPage srv number (1 + k) r with
      | unauthorized => exact absurd ⟨k, r, hends, hpage⟩ hfirst
      | raised => rfl
      | items l => rfl
    · rw [readPages_of_not_ends hends []]

/-- **Where an attempt gets every page, the list is complete.** -/
theorem prFilesOf_of_obtains {n : Nat} {answers : List (Option Reply)} (h : Obtains srv n answers) :
    ∃ rest, prFilesOf srv (.num n) answers = .returned ((srv.files n).map ChangedFile.entry) rest := by
  obtain ⟨last, hlast, hpages⟩ := h
  have hread : readPages PER_PAGE (filesPage srv (.num n)) 1 [] last =
      .done ((srv.files n).map ChangedFile.entry) (last.drop ((srv.files n).length / PER_PAGE + 1)) := by
    have hall : ∀ j ≤ ((srv.files n).map ChangedFile.entry).length / PER_PAGE, ∃ r, last[j]? = some r ∧
        filesPage srv (.num n) (1 + j) r =
          .items ((((srv.files n).map ChangedFile.entry).drop (PER_PAGE * j)).take PER_PAGE) := by
      rw [List.length_map]
      intro j hj
      exact ⟨none, hpages j hj, filesPage_none n j⟩
    have hchunks := readPages_chunks (by decide) hall []
    rwa [List.length_map, List.nil_append] at hchunks
  rw [prFilesOf_eq_settle hlast, hread]
  exact ⟨_, rfl⟩

/-- **Where the attempt that counts ends**, the list is what its pages hold, or, after an exception, empty. -/
theorem prFilesOf_of_ends {number : Json} {answers last : List (Option Reply)} {k : Nat} {r : Option Reply}
    (hlast : LastAttempt srv number answers last) (h : Ends PER_PAGE (filesPage srv number) 1 last k r) :
    ∃ files rest, prFilesOf srv number answers = .returned files rest ∧
      ∀ e, e ∈ files ↔ filesPage srv number (1 + k) r ≠ .raised ∧
        Holds (filesPage srv number) 1 last (k + 1) e := by
  obtain ⟨got, hgot, hread⟩ := readPages_of_ends h []
  -- the last page counts with those before it
  have hholds : ∀ e, Holds (filesPage srv number) 1 last (k + 1) e ↔
      e ∈ got ∨ ∃ l, filesPage srv number (1 + k) r = .items l ∧ e ∈ l := by
    intro e
    rw [hgot, holds_last h.last]
  have hended : ∃ files rest, settle [] (readPages PER_PAGE (filesPage srv number) 1 [] last) =
      .returned files rest ∧ ∀ e, e ∈ files ↔ filesPage srv number (1 + k) r ≠ .raised ∧
        Holds (filesPage srv number) 1 last (k + 1) e := by
    rw [hread]
    cases hreply : filesPage srv number (1 + k) r with
    | raised => exact ⟨[], _, rfl, by simp⟩
    | unauthorized => exact ⟨got, _, rfl, by simp [hholds, hreply]⟩
    | items l => exact ⟨got ++ l, _, rfl, by simp [hholds, hreply]⟩
  rwa [prFilesOf_eq_settle hlast]

/-- Where it does not end, the listing does not. -/
theorem prFilesOf_of_not_ends {number : Json} {answers last : List (Option Reply)}
    (hlast : LastAttempt srv number answers last)
    (h : ¬ ∃ k r, Ends PER_PAGE (filesPage srv number) 1 last k r) :
    prFilesOf srv number answers = .waiting := by
  rw [prFilesOf_eq_settle hlast, readPages_of_not_ends h []]
  rfl

theorem exists_lastAttempt (number : Json) (answers : List (Option Reply)) :
    ∃ last, LastAttempt srv number answers last := by
  by_cases h : ∃ k r, Ends PER_PAGE (filesPage srv number) 1 answers k r ∧
      filesPage srv number (1 + k) r = .unauthorized
  · obtain ⟨k, r, hends, hunauthorized⟩ := h
    exact ⟨_, .inl ⟨k, r, hends, hunauthorized, rfl⟩⟩
  · exact ⟨answers, .inr ⟨h, rfl⟩⟩

end Forge
end RobotsixMill
