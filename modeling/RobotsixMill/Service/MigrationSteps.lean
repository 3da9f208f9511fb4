import RobotsixMill.Service.Runs

/-!
# `Service.MigrationSteps` — where others can come in between

`create` makes the directory before it commits the row, and `migrate` moves the directories before it commits the
rows, which takes a transaction on either board. Here both are cut where other processes can act:

- `createDir`, `createRow` — `create` is one after the other (`create_eq`);
- `beginMigration`, `Migration.advance` — `migrate` is the checks and then the steps (`migrate_eq`).
-/

namespace RobotsixMill
namespace Service
open RobotsixMill.Core Lib

/-! ## `create` -/

/-- `create` up to the description it writes. -/
def createDir (env : Env) (svc : BoardId) (a : CreateArgs) (σ : Mill) : Except ServiceError Mill :=
  let board := a.boardId.getD svc
  match createRefusal env svc board a σ with
  | some e => .error e
  | none => .ok (σ.editWorkspace (board, a.id) fun ws => { ws with description := some a.description })

/-- The row of `create`. -/
def createRow (env : Env) (svc : BoardId) (a : CreateArgs) (σ : Mill) : Result Unit :=
  let board := a.boardId.getD svc
  let inherited := inheritsPriority σ board (σ.records.keys.length + 1) [] a.parentId
  match σ.records.get (board, a.id) with
  | some _ => (σ, .error (.dbError "UNIQUE constraint failed: ticket.id"))
  | none => ((σ.putRecord (board, a.id) (createRecord (σ.now env) a inherited)).tick, .ok ())

theorem inheritsPriority_editWorkspace (σ : Mill) (k : Key) (f : Workspace → Workspace) (board : BoardId) (fuel : Nat)
    (seen : List TicketId) (cur : Option TicketId) :
    inheritsPriority (σ.editWorkspace k f) board fuel seen cur = inheritsPriority σ board fuel seen cur := by
  induction fuel generalizing seen cur with
  | zero => rfl
  | succ fuel ih =>
    cases cur with
    | none => rfl
    | some cur =>
      unfold inheritsPriority
      rw [records_editWorkspace]
      simp only [ih]

/-- **`create`** is one after the other. -/
theorem create_eq (env : Env) (svc : BoardId) (a : CreateArgs) (σ : Mill) :
    create env svc a σ = match createDir env svc a σ with
      | .error e => (σ, .error e)
      | .ok σ₁ => createRow env svc a σ₁ := by
  unfold create createDir
  dsimp only
  cases createRefusal env svc (a.boardId.getD svc) a σ with
  | some e => rfl
  | none =>
    dsimp only
    unfold createRow
    dsimp only
    rw [inheritsPriority_editWorkspace, records_editWorkspace]
    rfl

/-! ## `migrate` -/

/-- What a migration does next. -/
inductive MigrationStage
  /-- These directories are still to be moved; then the copies are inserted. -/
  | moving (todo : List TicketId)
  /-- The source rows are to be deleted. -/
  | deleting

/-- A migration under way: what it has read, and the directories it has moved. -/
structure Migration where
  src : BoardId
  dst : BoardId
  root : TicketId
  tickets : List TicketId
  note : Option String
  /-- The rows as they were read. -/
  snapshot : Table Key TicketRecord
  moves : List WsMove
  stage : MigrationStage

/-- A migration goes on, or returns, or raises. -/
inductive MigrationStep
  | running (m : Migration)
  | finished (result : Except ServiceError Unit)

/-- `insertCopies`, of the rows in the snapshot. -/
def insertSnapshots (now : Nat → DateTime) (src dst : BoardId) (root : TicketId) (note : Option String)
    (snapshot : Table Key TicketRecord) :
    List TicketId → CommentId → List (CommentId × CommentId) → Table Key TicketRecord →
      Option (Table Key TicketRecord)
  | [], _, _, T => some T
  | t :: ts, nextId, idMap, T =>
    match snapshot.get (src, t), T.get (dst, t) with
    | some r, none =>
      let (cs, idMap') := copyComments nextId idMap r.comments
      let text := migrationNote src dst r.ticket.state (if t = root then note else none)
      insertSnapshots now src dst root note snapshot ts (nextId + r.comments.length) idMap'
        (T.put (dst, t) (migrateRecord t now text cs r))
    | _, _ => none

namespace Migration

/-- The checks passed. -/
def begun (src dst : BoardId) (root : TicketId) (tickets : List TicketId) (note : Option String) (σ : Mill) :
    Migration where
  src := src
  dst := dst
  root := root
  tickets := tickets
  note := note
  snapshot := σ.records
  moves := []
  stage := .moving tickets

/-- The target transaction. -/
def inserted (env : Env) (m : Migration) (σ : Mill) : Option (Table Key TicketRecord) :=
  if env.dbFails σ.ticks then none
  else insertSnapshots (σ.now env) m.src m.dst m.root m.note m.snapshot m.tickets (nextCommentId σ m.dst) [] σ.records

/-- The next directory, the target transaction or the source transaction. -/
def advance (env : Env) (m : Migration) (σ : Mill) : Mill × MigrationStep :=
  match m.stage with
  | .moving (t :: todo) =>
    if (σ.workspaces (m.dst, t)).isSome then
      (σ, .finished (.error (.valueError s!"migrate: workspace already exists at {m.dst}/workspaces/{t}")))
    else
      let (ws, moved) := moveWorkspace (m.src, t) (m.dst, t) σ.workspaces
      ({ σ with workspaces := ws },
        .running { m with moves := m.moves ++ [((m.src, t), (m.dst, t), moved)], stage := .moving todo })
  | .moving [] =>
    match m.inserted env σ with
    | none =>
      ({ σ with workspaces := rollbackMoves m.moves σ.workspaces }.tick,
        .finished (.error (.dbError "migrate: the target transaction failed")))
    | some T => ({ σ with records := T }.tick, .running { m with stage := .deleting })
  | .deleting =>
    if env.dbFails σ.ticks then
      (σ.tick, .finished (.error (.dbError "migrate: the source transaction failed")))
    else ({ σ with records := deleteSources m.src m.tickets σ.records }.tick, .finished (.ok ()))

/-- So many steps, and nothing in between; `none` when they are not enough. -/
def complete (env : Env) : Nat → Migration → Mill → Option (Result Unit)
  | 0, _, _ => none
  | n + 1, m, σ =>
    match m.advance env σ with
    | (σ', .finished result) => some (σ', result)
    | (σ', .running m') => complete env n m' σ'

end Migration

/-- `migrate` up to the directories. -/
def beginMigration (env : Env) (svc : BoardId) (tid : TicketId) (target : String) (note : Option String) (σ : Mill) :
    Except ServiceError Migration :=
  if target = "" then .error (.valueError "migrate: target board is required")
  else
    match knownBoard env target with
    | none => .error (.valueError s!"migrate: unknown target board {reprStr target}.")
    | some dst =>
      match boardFor env svc σ tid with
      | .error e => .error e
      | .ok src =>
        if dst = src then .error (.valueError s!"migrate: {tid} is already on board {reprStr src}")
        else
          match σ.records.get (src, tid) with
          | none => .error (.keyError tid)
          | some r =>
            if dst = "" then .error (.valueError "workspaces_dir_for: board_id is required.")
            else if r.ticket.kind = .epic then
              match collectSubtree σ src tid with
              | none => .error (.externalError "_collect_subtree does not return on a parent cycle")
              | some ts =>
                let blockers := subtreeBlockers σ src ts
                let ids := ", ".intercalate blockers
                if blockers ≠ [] then
                  .error (.valueError ("migrate: cannot migrate epic subtree — the following " ++
                    s!"tickets are in non-migratable states: {ids}"))
                else .ok (.begun src dst tid ts note σ)
            else if childrenOn σ src tid ≠ [] then
              .error (.valueError s!"migrate: {tid} has child tickets — migrate or unlink them first")
            else if r.ticket.state ∉ MIGRATABLE_STATES then
              .error (.valueError s!"migrate: {tid} is {r.ticket.state.value} — this state cannot be migrated")
            else .ok (.begun src dst tid [tid] note σ)

/-- What a step does to the rows. -/
theorem records_advance (env : Env) (m : Migration) (σ : Mill) : (m.advance env σ).1.records = σ.records ∨
    m.stage = .moving [] ∧ m.inserted env σ = some (m.advance env σ).1.records ∨
    m.stage = .deleting ∧ (m.advance env σ).1.records = deleteSources m.src m.tickets σ.records := by
  unfold Migration.advance
  cases hstage : m.stage with
  | deleting =>
      dsimp only
      by_cases hfail : env.dbFails σ.ticks = true
      · rw [if_pos hfail]
        exact .inl rfl
      · rw [if_neg hfail]
        exact .inr (.inr ⟨rfl, rfl⟩)
  | moving todo =>
      cases todo with
      | cons t todo =>
          dsimp only
          by_cases hthere : (σ.workspaces (m.dst, t)).isSome = true
          · rw [if_pos hthere]
            exact .inl rfl
          · rw [if_neg hthere]
            exact .inl rfl
      | nil =>
          dsimp only
          cases m.inserted env σ with
          | none => exact .inl rfl
          | some T => exact .inr (.inl ⟨rfl, rfl⟩)

/-! ### Without others in between -/

section Whole

variable {env : Env} {m : Migration} {σ : Mill}

/-- The snapshot is what the source board still holds. -/
theorem insertSnapshots_eq {now : Nat → DateTime} {src dst : BoardId} (hne : dst ≠ src) (root : TicketId)
    (note : Option String) {snapshot : Table Key TicketRecord} (ts : List TicketId) (next : CommentId)
    (idMap : List (CommentId × CommentId)) (T : Table Key TicketRecord)
    (h : ∀ t, T.get (src, t) = snapshot.get (src, t)) :
    insertSnapshots now src dst root note snapshot ts next idMap T = insertCopies now src dst root note ts next idMap T := by
  induction ts generalizing next idMap T with
  | nil => rfl
  | cons t ts ih =>
      unfold insertSnapshots insertCopies
      rw [h t]
      cases snapshot.get (src, t) with
      | none => rfl
      | some r =>
          cases T.get (dst, t) with
          | some r' => rfl
          | none =>
              apply ih
              intro t'
              have hk : (src, t') ≠ (dst, t) := fun heq => hne (congrArg Prod.fst heq).symm
              rw [Table.get_put_ne _ _ hk, h t']

/-- The source transaction. -/
theorem complete_deleting (hstage : m.stage = .deleting) :
    m.complete env 1 σ = some (if env.dbFails σ.ticks
      then (σ.tick, .error (.dbError "migrate: the source transaction failed"))
      else ({ σ with records := deleteSources m.src m.tickets σ.records }.tick, .ok ())) := by
  unfold Migration.complete Migration.advance
  rw [hstage]
  dsimp only
  by_cases hfail : env.dbFails σ.ticks = true
  · rw [if_pos hfail, if_pos hfail]
  · rw [if_neg hfail, if_neg hfail]

/-- The two transactions. -/
theorem complete_committing (hne : m.dst ≠ m.src) (hsnap : m.snapshot = σ.records) (hstage : m.stage = .moving []) :
    m.complete env 2 σ = some (commitMigration env m.src m.dst m.root m.tickets m.note m.moves σ) := by
  have hins : m.inserted env σ = if env.dbFails σ.ticks then none
      else insertCopies (σ.now env) m.src m.dst m.root m.note m.tickets (nextCommentId σ m.dst) [] σ.records := by
    unfold Migration.inserted
    rw [insertSnapshots_eq hne m.root m.note m.tickets _ _ _ fun t => by rw [hsnap]]
  unfold Migration.complete Migration.advance commitMigration
  rw [hstage]
  dsimp only
  rw [hins]
  generalize (if env.dbFails σ.ticks then none
    else insertCopies (σ.now env) m.src m.dst m.root m.note m.tickets (nextCommentId σ m.dst) [] σ.records) = rows
  cases rows with
  | none => rfl
  | some T => exact complete_deleting (m := { m with stage := .deleting }) rfl

/-- The directories and the two transactions. -/
theorem complete_moving {todo : List TicketId} (hne : m.dst ≠ m.src) (hsnap : m.snapshot = σ.records)
    (hstage : m.stage = .moving todo) :
    m.complete env (todo.length + 2) σ = some (match moveWorkspaces m.src m.dst todo m.moves σ.workspaces with
      | (ws, .error e) => ({ σ with workspaces := ws }, .error e)
      | (ws, .ok moves) => commitMigration env m.src m.dst m.root m.tickets m.note moves { σ with workspaces := ws }) := by
  induction todo generalizing m σ with
  | nil => exact complete_committing hne hsnap hstage
  | cons t todo ih =>
      rw [show (t :: todo).length + 2 = todo.length + 2 + 1 from rfl]
      unfold Migration.complete Migration.advance moveWorkspaces
      rw [hstage]
      dsimp only
      split
      · rename_i heq
        split at heq
        · rename_i hsome
          cases heq
          rw [if_pos hsome]
        · cases heq
      · rename_i heq
        split at heq
        · cases heq
        · rename_i hnone
          cases heq
          rw [if_neg hnone]
          exact ih (m := { m with
            moves := m.moves ++ [((m.src, t), (m.dst, t), (moveWorkspace (m.src, t) (m.dst, t) σ.workspaces).2)]
            stage := .moving todo }) hne hsnap rfl

/-- **A migration is its steps.** -/
theorem migrate_eq (env : Env) (svc : BoardId) (tid : TicketId) (target : String) (note : Option String) (σ : Mill) :
    some (migrate env svc tid target note σ) = match beginMigration env svc tid target note σ with
      | .error e => some (σ, .error e)
      | .ok m => m.complete env (m.tickets.length + 2) σ := by
  unfold migrate beginMigration
  by_cases htarget : target = ""
  · rw [if_pos htarget, if_pos htarget]
  rw [if_neg htarget, if_neg htarget]
  cases knownBoard env target with
  | none => rfl
  | some dst =>
      cases boardFor env svc σ tid with
      | error e => rfl
      | ok src =>
          dsimp only
          by_cases hne : dst = src
          · rw [if_pos hne, if_pos hne]
          rw [if_neg hne, if_neg hne]
          cases σ.records.get (src, tid) with
          | none => rfl
          | some r =>
              dsimp only
              by_cases hname : dst = ""
              · rw [if_pos hname, if_pos hname]
              rw [if_neg hname, if_neg hname]
              by_cases hepic : r.ticket.kind = .epic
              · rw [if_pos hepic, if_pos hepic]
                unfold migrateEpicSubtree
                cases collectSubtree σ src tid with
                | none => rfl
                | some ts =>
                    dsimp only
                    by_cases hblock : subtreeBlockers σ src ts ≠ []
                    · rw [if_pos hblock, if_pos hblock]
                    · rw [if_neg hblock, if_neg hblock]
                      exact (complete_moving (m := .begun src dst tid ts note σ) hne rfl rfl).symm
              · rw [if_neg hepic, if_neg hepic]
                unfold migrateSingle
                by_cases hchild : childrenOn σ src tid ≠ []
                · rw [if_pos hchild, if_pos hchild]
                · rw [if_neg hchild, if_neg hchild]
                  by_cases hstate : r.ticket.state ∉ MIGRATABLE_STATES
                  · rw [if_pos hstate, if_pos hstate]
                  · rw [if_neg hstate, if_neg hstate]
                    exact (complete_moving (m := .begun src dst tid [tid] note σ) hne rfl rfl).symm

end Whole

end Service
end RobotsixMill
