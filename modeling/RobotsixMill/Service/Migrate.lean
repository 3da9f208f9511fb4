import RobotsixMill.Service.Ops
import RobotsixMill.Lib.Ancestors

/-!
# `Service.Migrate` — moving tickets to another board

`migrate` copies a ticket (an epic: its whole subtree, `migrateEpicSubtree`) to the target board and
deletes it from the source board. The workspace directories are moved before the target transaction,
one by one; the handler around that transaction moves them back when it raises.
-/

namespace RobotsixMill
namespace Service
open RobotsixMill.Core Lib

/-- States from which a cross-board migration is safe. -/
def MIGRATABLE_STATES : List State := [.draft, .ready, .blocked, .errored]

/-- The same for epics. -/
def MIGRATABLE_EPIC_STATES : List State := MIGRATABLE_STATES ++ [.epicOpen, .epicClosed]

variable (env : Env) (svc : BoardId)

/-! ## Collecting the subtree -/

/-- The tickets of a board whose `parent_id` is `tid`. -/
def childrenOn (σ : Mill) (board : BoardId) (tid : TicketId) : List TicketId :=
  (σ.records.rows.filter fun row =>
    decide (row.1.1 = board) && decide (row.2.ticket.parentId = some tid)).map fun row => row.1.2

/-- `_collect_subtree`: the root first, then its descendants breadth-first; `none` when the search does
    not end, which only a cycle of parent links makes happen. -/
def collectSubtree (σ : Mill) (board : BoardId) (root : TicketId) : Option (List TicketId) :=
  collectBelow (childrenOn σ board) (σ.records.keys.length + 1) [root] [root]

/-! ## Workspace moves -/

/-- What is dropped from a moved directory: the clones, the cached baseline and the spawn budget. -/
def cleanMoved (ws : Workspace) : Workspace :=
  { ws with
    repo := false
    repos := false
    artifacts := { ws.artifacts with
      baselineCheckJson := none, implementSpawnCount := none, implementSpawnExhaustedJson := .absent } }

/-- Move (or create) the directory of one ticket; returns whether a source directory was moved. -/
def moveWorkspace (src dst : Key) (ws : Key → Option Workspace) :
    (Key → Option Workspace) × Bool :=
  match ws src with
  | some dir => (Function.update (Function.update ws src none) dst (some (cleanMoved dir)), true)
  | none => (Function.update ws dst (some (cleanMoved {})), false)

/-- One performed move: source, target, and whether a directory was moved. -/
abbrev WsMove := Key × Key × Bool

/-- The move loop of `_migrate_epic_subtree`. An existing target directory raises; the moves made so
    far stay. -/
def moveWorkspaces (srcBoard dstBoard : BoardId) :
    List TicketId → List WsMove → (Key → Option Workspace) →
      (Key → Option Workspace) × Except ServiceError (List WsMove)
  | [], moves, ws => (ws, .ok moves)
  | t :: ts, moves, ws =>
    if (ws (dstBoard, t)).isSome then
      (ws, .error (.valueError s!"migrate: workspace already exists at {dstBoard}/workspaces/{t}"))
    else
      let (ws', moved) := moveWorkspace (srcBoard, t) (dstBoard, t) ws
      moveWorkspaces srcBoard dstBoard ts (moves ++ [((srcBoard, t), (dstBoard, t), moved)]) ws'

/-- One step of the rollback handler. -/
def rollbackMove (m : WsMove) (ws : Key → Option Workspace) : Key → Option Workspace :=
  match m with
  | (src, dst, true) =>
    match ws dst with
    | some dir => Function.update (Function.update ws dst none) src (some dir)
    | none => ws
  | (_, dst, false) => Function.update ws dst none

/-- The rollback handler. -/
def rollbackMoves (moves : List WsMove) (ws : Key → Option Workspace) : Key → Option Workspace :=
  moves.foldl (fun ws m => rollbackMove m ws) ws

/-! ## The two transactions -/

/-- Insert the copies of `ts` into the target board, in order. `none` when a primary key clashes. -/
def insertCopies (now : Nat → DateTime) (srcBoard dstBoard : BoardId) (root : TicketId)
    (note : Option String) :
    List TicketId → CommentId → List (CommentId × CommentId) → Table Key TicketRecord →
      Option (Table Key TicketRecord)
  | [], _, _, T => some T
  | t :: ts, nextId, idMap, T =>
    match T.get (srcBoard, t), T.get (dstBoard, t) with
    | some r, none =>
      let (cs, idMap') := copyComments nextId idMap r.comments
      let text := migrationNote srcBoard dstBoard r.ticket.state (if t = root then note else none)
      insertCopies now srcBoard dstBoard root note ts (nextId + r.comments.length) idMap'
        (T.put (dstBoard, t) (migrateRecord t now text cs r))
    | _, _ => none

/-- Delete the source rows. -/
def deleteSources (srcBoard : BoardId) (ts : List TicketId) (T : Table Key TicketRecord) :
    Table Key TicketRecord :=
  ts.reverse.foldl (fun T t => T.erase (srcBoard, t)) T

/-- Insert, then delete: the part of a migration after the directories are moved. The first transaction
    is rolled back together with the directories when it raises; the second is not covered. -/
def commitMigration (srcBoard dstBoard : BoardId) (root : TicketId) (ts : List TicketId)
    (note : Option String) (moves : List WsMove) (σ : Mill) : Result Unit :=
  let inserted := if env.dbFails σ.ticks then none
    else insertCopies (σ.now env) srcBoard dstBoard root note ts (nextCommentId σ dstBoard) []
      σ.records
  match inserted with
  | none =>
    ({ σ with workspaces := rollbackMoves moves σ.workspaces }.tick,
      .error (.dbError "migrate: the target transaction failed"))
  | some T =>
    let σ₁ := { σ with records := T }.tick
    if env.dbFails σ₁.ticks then (σ₁.tick, .error (.dbError "migrate: the source transaction failed"))
    else ({ σ₁ with records := deleteSources srcBoard ts T }.tick, .ok ())

/-! ## `migrate` -/

/-- May the ticket be migrated as part of a subtree? -/
def subtreeMigratable (t : Ticket) : Bool :=
  if t.kind = .epic then decide (t.state ∈ MIGRATABLE_EPIC_STATES)
  else decide (t.state ∈ MIGRATABLE_STATES)

/-- The tickets of the subtree in a state that cannot be migrated. -/
def subtreeBlockers (σ : Mill) (board : BoardId) (ts : List TicketId) : List TicketId :=
  ts.filter fun t =>
    match σ.records.get (board, t) with
    | some r => !subtreeMigratable r.ticket
    | none => false

/-- `_migrate_epic_subtree`. -/
def migrateEpicSubtree (srcBoard dstBoard : BoardId) (root : TicketId) (note : Option String)
    (σ : Mill) : Result Unit :=
  match collectSubtree σ srcBoard root with
  | none => (σ, .error (.externalError "_collect_subtree does not return on a parent cycle"))
  | some ts =>
    let blockers := subtreeBlockers σ srcBoard ts
    let ids := ", ".intercalate blockers
    if blockers ≠ [] then
      (σ, .error (.valueError ("migrate: cannot migrate epic subtree — the following " ++
        s!"tickets are in non-migratable states: {ids}")))
    else
      match moveWorkspaces srcBoard dstBoard ts [] σ.workspaces with
      | (ws, .error e) => ({ σ with workspaces := ws }, .error e)
      | (ws, .ok moves) =>
        commitMigration env srcBoard dstBoard root ts note moves { σ with workspaces := ws }

/-- The board a target names, by board id or repo id; a later registry entry wins. -/
def knownBoard (target : String) : Option BoardId :=
  let known := ("meta", "meta") :: (env.repos.getD []).flatMap fun rc => [rc, (rc.2, rc.2)]
  List.lookup target known.reverse

/-- `migrate` of one ticket that is not an epic. -/
def migrateSingle (srcBoard dstBoard : BoardId) (tid : TicketId) (note : Option String)
    (r : TicketRecord) (σ : Mill) : Result Unit :=
  if childrenOn σ srcBoard tid ≠ [] then
    (σ, .error (.valueError s!"migrate: {tid} has child tickets — migrate or unlink them first"))
  else if r.ticket.state ∉ MIGRATABLE_STATES then
    (σ, .error (.valueError
      s!"migrate: {tid} is {r.ticket.state.value} — this state cannot be migrated"))
  else
    match moveWorkspaces srcBoard dstBoard [tid] [] σ.workspaces with
    | (ws, .error e) => ({ σ with workspaces := ws }, .error e)
    | (ws, .ok moves) =>
      commitMigration env srcBoard dstBoard tid [tid] note moves { σ with workspaces := ws }

/-- `migrate`. -/
def migrate (tid : TicketId) (target : String) (note : Option String) (σ : Mill) : Result Unit :=
  if target = "" then (σ, .error (.valueError "migrate: target board is required"))
  else
    match knownBoard env target with
    | none => (σ, .error (.valueError s!"migrate: unknown target board {reprStr target}."))
    | some dstBoard =>
      match boardFor env svc σ tid with
      | .error e => (σ, .error e)
      | .ok srcBoard =>
        if dstBoard = srcBoard then
          (σ, .error (.valueError s!"migrate: {tid} is already on board {reprStr srcBoard}"))
        else
          match σ.records.get (srcBoard, tid) with
          | none => (σ, .error (.keyError tid))
          | some r =>
            if dstBoard = "" then
              (σ, .error (.valueError "workspaces_dir_for: board_id is required."))
            else if r.ticket.kind = .epic then migrateEpicSubtree env srcBoard dstBoard tid note σ
            else migrateSingle env srcBoard dstBoard tid note r σ

end Service
end RobotsixMill
