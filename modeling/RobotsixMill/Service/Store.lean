import RobotsixMill.Core.EventHash
import RobotsixMill.Core.Workspace
import RobotsixMill.Core.Settings
import RobotsixMill.Lib.Table
import RobotsixMill.Lib.FirstMatch
import Mathlib.Data.List.Sort

/-!
# `Service.Store` — the state of the service and its lookups

`Mill` is everything the ticket service reads and writes: the records of all boards, the workspace
directories, and the number of clock readings taken so far. `Env` is what surrounds it: settings, clock,
the repos registry, and the answers of git and Langfuse, each an arbitrary function of the time of the
call.

A service is bound to a board (`svc`, empty when unbound). A ticket is looked up on the bound board
first and then on every candidate board (`locate`), whichever method asks.
-/

namespace RobotsixMill
namespace Service
open RobotsixMill.Core Lib

/-- Tickets are stored per board. -/
abbrev Key := BoardId × TicketId

/-- What surrounds the service. -/
structure Env where
  settings : Settings
  /-- The n-th reading of `datetime.now(UTC)`. -/
  clock : Nat → DateTime
  /-- `get_repos_config().repos` as (repo id, board id) pairs; `none` when loading it raises. -/
  repos : Option (List (String × BoardId))
  /-- The order in which `data_dir.iterdir()` lists directory names, a linear order. -/
  dirLe : BoardId → BoardId → Bool
  dirLe_trans : ∀ a b c, dirLe a b = true → dirLe b c = true → dirLe a c = true
  dirLe_total : ∀ a b, dirLe a b = true ∨ dirLe b a = true
  dirLe_antisymm : ∀ a b, dirLe a b = true → dirLe b a = true → a = b
  /-- `verify_merge_before_done`: the error text when the merge cannot be confirmed. -/
  mergeRefusal : Nat → Key → Option String → Option String
  /-- The lines `_verify_citations` appends; empty when every citation is confirmed. -/
  citationLines : Nat → Key → String → List String
  /-- `session_cost`; `none` when the call raises. -/
  sessionCost : Nat → TicketId → Option ℚ
  /-- Does the database transaction opened at this point raise before its commit? -/
  dbFails : Nat → Bool
  /-- `_extract_paths`: does a text name repository files? -/
  namesPaths : String → Bool
  /-- The first 16 hex digits of SHA-256. -/
  sha256Hex16 : String → String

/-- A mill on its own: default settings, no registered repository, no forge to ask, no traced cost. -/
def Env.standalone : Env where
  settings := {}
  clock := id
  repos := some []
  dirLe a b := decide (a ≤ b)
  dirLe_trans a b c hab hbc := by simpa using String.le_trans (by simpa using hab) (by simpa using hbc)
  dirLe_total a b := by simpa using String.le_total a b
  dirLe_antisymm a b hab hba := String.le_antisymm (by simpa using hab) (by simpa using hba)
  mergeRefusal := fun _ _ _ => none
  citationLines := fun _ _ _ => []
  sessionCost := fun _ _ => some 0
  dbFails := fun _ => false
  namesPaths := fun _ => false
  sha256Hex16 := fun _ => "e3b0c44298fc1c14"

/-- The state of the service. -/
structure Mill where
  records : Table Key TicketRecord
  workspaces : Key → Option Workspace
  ticks : Nat

/-- Nothing stored yet. -/
def Mill.empty : Mill := { records := .empty, workspaces := fun _ => none, ticks := 0 }

/-- The exceptions the service raises. -/
inductive ServiceError
  | keyError (msg : String)
  | transitionError (msg : String)
  | valueError (msg : String)
  | dbError (msg : String)
  | externalError (msg : String)
deriving DecidableEq, Repr

/-! ## Boards and lookups -/

/-- The boards that hold a record. -/
def Mill.boards (σ : Mill) : List BoardId := (σ.records.keys.map Prod.fst).eraseDups

/-- The directories on disk, as `iterdir` lists them. -/
def boardDirs (env : Env) (σ : Mill) : List BoardId :=
  σ.boards.insertionSort fun a b => env.dirLe a b = true

/-- `_collect_candidate_boards`: the bound board, the registry, the directories on disk. The default
    repo's board is listed among the directories as soon as it exists. -/
def collectCandidateBoards (env : Env) (svc : BoardId) (σ : Mill) : List BoardId :=
  let bound := if svc = "" then [] else [svc]
  let registry := ((env.repos.getD []).map Prod.snd).filter (· ≠ "")
  (bound ++ registry ++ boardDirs env σ).eraseDups

/-- Does `board` hold `tid`? -/
def Mill.hasTicket (σ : Mill) (board : BoardId) (tid : TicketId) : Bool :=
  σ.records.has (board, tid)

/-- The board `_board_for` and `get` find `tid` on: the bound one, else the first candidate. -/
def locate (env : Env) (svc : BoardId) (σ : Mill) (tid : TicketId) : Option BoardId :=
  if svc ≠ "" ∧ σ.hasTicket svc tid then some svc
  else (collectCandidateBoards env svc σ).find? fun b => σ.hasTicket b tid

/-- `get`: the record found, with its key. -/
def get (env : Env) (svc : BoardId) (σ : Mill) (tid : TicketId) : Option (Key × TicketRecord) :=
  (locate env svc σ tid).bind fun b => (σ.records.get (b, tid)).map fun r => ((b, tid), r)

/-- `_board_for`: an unknown ticket is looked up on the bound board; unbound, that raises. -/
def boardFor (env : Env) (svc : BoardId) (σ : Mill) (tid : TicketId) :
    Except ServiceError BoardId :=
  match locate env svc σ tid with
  | some b => .ok b
  | none =>
    if svc = "" then .error (.valueError s!"Ticket {tid} not found in any configured board")
    else .ok svc

/-- `_get_ticket` on the board `_board_for` names: the record, or the exception raised. -/
def fetch (env : Env) (svc : BoardId) (σ : Mill) (tid : TicketId) :
    Except ServiceError (Key × TicketRecord) :=
  match boardFor env svc σ tid with
  | .error e => .error e
  | .ok b =>
    match σ.records.get (b, tid) with
    | none => .error (.keyError tid)
    | some r => .ok ((b, tid), r)

/-- The row `get` finds. -/
def ticketOf (env : Env) (svc : BoardId) (tid : TicketId) (σ : Mill) : Option Ticket :=
  (get env svc σ tid).map fun kr => kr.2.ticket

/-- Does the call fetch a record, and does the record meet `p`? -/
def fetched (env : Env) (svc : BoardId) (σ : Mill) (tid : TicketId) (p : Key → TicketRecord → Bool) :
    Bool :=
  match fetch env svc σ tid with
  | .error _ => false
  | .ok (k, r) => p k r

theorem of_fetched_eq_false {env : Env} {svc : BoardId} {σ : Mill} {tid : TicketId}
    {p : Key → TicketRecord → Bool} {k : Key} {r : TicketRecord}
    (h : fetched env svc σ tid p = false) (hf : fetch env svc σ tid = .ok (k, r)) :
    p k r = false := by
  simpa [fetched, hf] using h

/-! ## Writing -/

/-- The clock as one database session reads it. -/
def Mill.now (σ : Mill) (env : Env) (i : Nat) : DateTime := env.clock (σ.ticks + i)

/-- Readings reserved for one session. -/
def readingsPerSession : Nat := 8

/-- The session is over: its clock readings are used up. -/
def Mill.tick (σ : Mill) : Mill := { σ with ticks := σ.ticks + readingsPerSession }

/-- Commit a record. -/
def Mill.putRecord (σ : Mill) (k : Key) (r : TicketRecord) : Mill :=
  { σ with records := σ.records.put k r }

/-- `Workspace(root, ticket_id)` creates the directory it names. -/
def Mill.workspace (σ : Mill) (k : Key) : Workspace := (σ.workspaces k).getD {}

/-- Change the directory of `k`, creating it first if need be. -/
def Mill.editWorkspace (σ : Mill) (k : Key) (f : Workspace → Workspace) : Mill :=
  { σ with workspaces := Function.update σ.workspaces k (some (f (σ.workspace k))) }

/-- Change the artifacts of `k`. -/
def Mill.editArtifacts (σ : Mill) (k : Key) (f : Artifacts → Artifacts) : Mill :=
  σ.editWorkspace k fun ws => { ws with artifacts := f ws.artifacts }

/-! ## What the lookups find -/

@[simp] theorem records_tick (σ : Mill) : σ.tick.records = σ.records := rfl
@[simp] theorem records_putRecord (σ : Mill) (k : Key) (r : TicketRecord) :
    (σ.putRecord k r).records = σ.records.put k r := rfl
@[simp] theorem records_editWorkspace (σ : Mill) (k : Key) (f : Workspace → Workspace) :
    (σ.editWorkspace k f).records = σ.records := rfl
@[simp] theorem records_editArtifacts (σ : Mill) (k : Key) (f : Artifacts → Artifacts) :
    (σ.editArtifacts k f).records = σ.records := rfl
@[simp] theorem workspaces_tick (σ : Mill) : σ.tick.workspaces = σ.workspaces := rfl
@[simp] theorem workspaces_putRecord (σ : Mill) (k : Key) (r : TicketRecord) :
    (σ.putRecord k r).workspaces = σ.workspaces := rfl

theorem hasTicket_iff {σ : Mill} {b : BoardId} {tid : TicketId} :
    σ.hasTicket b tid = true ↔ ∃ r, σ.records.get (b, tid) = some r := by
  simp [Mill.hasTicket, Table.has, Option.isSome_iff_exists]

/-- `get` and `_get_ticket` agree on every ticket `get` finds. -/
theorem fetch_of_get {env : Env} {svc : BoardId} {σ : Mill} {tid : TicketId} {k : Key}
    {r : TicketRecord} (h : get env svc σ tid = some (k, r)) :
    fetch env svc σ tid = .ok (k, r) := by
  unfold get at h
  cases hl : locate env svc σ tid with
  | none => rw [hl] at h; cases h
  | some b =>
      rw [hl] at h
      simp only [Option.bind_some, Option.map_eq_some_iff, Prod.mk.injEq] at h
      obtain ⟨r', hr, rfl, rfl⟩ := h
      simp [fetch, boardFor, hl, hr]

theorem get_of_fetch {env : Env} {svc : BoardId} {σ : Mill} {tid : TicketId} {k : Key}
    {r : TicketRecord} (h : fetch env svc σ tid = .ok (k, r)) :
    k.2 = tid ∧ σ.records.get k = some r := by
  unfold fetch at h
  split at h
  · cases h
  · split at h
    · cases h
    · rename_i hr; cases h; exact ⟨rfl, hr⟩

/-- What `_get_ticket` finds, `get` finds. -/
theorem get_eq_some_of_fetch {env : Env} {svc : BoardId} {σ : Mill} {tid : TicketId} {k : Key}
    {r : TicketRecord} (h : fetch env svc σ tid = .ok (k, r)) : get env svc σ tid = some (k, r) := by
  have hrec := (get_of_fetch h).2
  unfold fetch boardFor at h
  unfold get
  cases hl : locate env svc σ tid with
  | some b =>
      rw [hl] at h
      dsimp only at h
      cases hb : σ.records.get (b, tid) with
      | none => rw [hb] at h; cases h
      | some r₀ => rw [hb] at h; cases h; simp [hb]
  | none =>
      -- the bound board would have been found
      rw [hl] at h
      dsimp only at h
      by_cases hs : svc = ""
      · rw [if_pos hs] at h; cases h
      · rw [if_neg hs] at h
        dsimp only at h
        cases hb : σ.records.get (svc, tid) with
        | none => rw [hb] at h; cases h
        | some r₀ =>
            have hhas : σ.hasTicket svc tid = true := hasTicket_iff.2 ⟨r₀, hb⟩
            simp [locate, hs, hhas] at hl

theorem ticketOf_of_fetch {env : Env} {svc : BoardId} {σ : Mill} {tid : TicketId} {k : Key}
    {r : TicketRecord} (h : fetch env svc σ tid = .ok (k, r)) :
    ticketOf env svc tid σ = some r.ticket := by
  simp [ticketOf, get_eq_some_of_fetch h]

theorem fetch_of_ticketOf {env : Env} {svc : BoardId} {σ : Mill} {tid : TicketId} {t : Ticket}
    (h : ticketOf env svc tid σ = some t) :
    ∃ k r, fetch env svc σ tid = .ok (k, r) ∧ r.ticket = t := by
  obtain ⟨⟨k, r⟩, hget, rfl⟩ := Option.map_eq_some_iff.1 h
  exact ⟨k, r, fetch_of_get hget, rfl⟩

end Service
end RobotsixMill
