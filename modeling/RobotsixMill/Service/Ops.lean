import RobotsixMill.Service.Session

/-!
# `Service.Ops` — the operations of the ticket service

Each method of `TicketService` as a function on `Mill`: look the ticket up, refuse or commit the session
of `Service.Session`, and do what the method does after its commit. A method that raises returns the
state it leaves behind together with the exception.
-/

namespace RobotsixMill
namespace Service
open RobotsixMill.Core Lib

/-- The state a call leaves behind, and its exception or result. -/
abbrev Result (α : Type) := Mill × Except ServiceError α

variable (env : Env) (svc : BoardId)

/-! ## Archive purge -/

/-- `_has_active_child`, on the bound board. -/
def hasActiveChild (σ : Mill) (tid : TicketId) : Bool :=
  σ.records.rows.any fun row =>
    decide (row.1.1 = svc) && decide (row.2.ticket.parentId = some tid) &&
      !decide (row.2.ticket.state ∈ ARCHIVABLE_STATES)

/-- `delete`: the rows and the directory. -/
def Mill.delete (σ : Mill) (k : Key) : Mill :=
  { σ with
    records := σ.records.erase k
    workspaces := Function.update σ.workspaces k none }

/-- The purge loop: delete the next `excess` candidates without an active child. -/
def purgeLoop : Nat → List Key → Mill → Mill
  | 0, _, σ => σ
  | _ + 1, [], σ => σ
  | excess + 1, k :: ks, σ =>
    if hasActiveChild svc σ k.2 then purgeLoop (excess + 1) ks σ
    else purgeLoop excess ks (σ.delete k)

/-- The tickets of the bound board the purge may delete, oldest first. -/
def archivedRows (σ : Mill) : List (Key × TicketRecord) :=
  (σ.records.rows.filter fun row =>
    decide (row.1.1 = svc) && decide (row.2.ticket.state ∈ ARCHIVABLE_STATES)).insertionSort
    fun a b => a.2.ticket.createdAt ≤ b.2.ticket.createdAt

/-- `_maybe_purge_archived`; an unbound service has no database to open. -/
def maybePurgeArchived (σ : Mill) : Except ServiceError Mill :=
  let max_archived := env.settings.maxArchivedTickets
  if max_archived = 0 then .ok σ
  else if svc = "" then .error (.valueError "db._db_path: board_id is required")
  else
    let candidates := archivedRows svc σ
    if candidates.length ≤ max_archived then .ok σ
    else .ok (purgeLoop svc (candidates.length - max_archived) (candidates.map Prod.fst) σ)

/-- What a method that may have crossed the cap does after its commit. -/
def afterCommit (σ : Mill) : Result Unit :=
  match maybePurgeArchived env svc σ with
  | .error e => (σ, .error e)
  | .ok σ' => (σ', .ok ())

/-! ## `transition` and its cascade -/

/-- Does `transition` open the workspace? -/
def touchesWorkspace (t : Ticket) (dst : State) : Bool :=
  (decide (t.state = .blocked) || decide (t.state = .awaitingUserReply)) && decide (dst = .ready) ||
    decide (t.state = .ready) && decide (dst ∈ IMPLEMENT_PROGRESS_STATES)

/-- The workspace side and the commit of a transition of the record `r` stored under `k`. -/
def commitTransition (k : Key) (r : TicketRecord) (dst : State) (note blockReason : Option String)
    (σ : Mill) : Mill :=
  let σ₁ := if touchesWorkspace r.ticket dst then
      σ.editArtifacts k (transitionArtifacts r.ticket dst note) else σ
  (σ₁.putRecord k (transitionRecord k.2 (σ.now env) dst note blockReason r)).tick

/-- `transition` up to the point where it fires the unblocks; returns the targets to fire. -/
def transitionSession (tid : TicketId) (dst : State) (note blockReason : Option String) (σ : Mill) :
    Result (List TicketId) :=
  match fetch env svc σ tid with
  | .error e => (σ, .error e)
  | .ok (k, r) =>
    if transitionNoop r.ticket dst then (σ, .ok [])
    else
      match transitionRefusal tid dst r with
      | some e => (σ, .error e)
      | none =>
        let σ₁ := commitTransition env k r dst note blockReason σ
        let targets :=
          if dst ∈ UNBLOCK_TRIGGER_STATES then parseDependsOnStr r.ticket.unblocks else []
        if dst ∈ ARCHIVABLE_STATES then
          match afterCommit env svc σ₁ with
          | (σ₂, .error e) => (σ₂, .error e)
          | (σ₂, .ok ()) => (σ₂, .ok targets)
        else (σ₁, .ok targets)

/-- The note of an unblocked ticket. -/
def unblockNote (solver : TicketId) : String := s!"auto-unblocked: solver {solver} completed"

/-- One round of `_fire_unblocks`: the target's own session, unless it is missing or not blocked. An
    exception is logged and dropped. Returns the targets this completion fires in turn. -/
def unblockSession (solver tid : TicketId) (σ : Mill) : Mill × List TicketId :=
  match get env svc σ tid with
  | none => (σ, [])
  | some (_, r) =>
    if r.ticket.state ≠ .blocked then (σ, [])
    else
      match transitionSession env svc tid (unblockDst r.ticket) (some (unblockNote solver)) none σ with
      | (σ', .ok targets) => (σ', targets)
      | (σ', .error _) => (σ', [])

/-- `_fire_unblocks`, and through it `transition`, recursively. Each nested call is made for a ticket
    that has just left `blocked`, so the number of blocked tickets bounds the depth. -/
def fireUnblocks : Nat → TicketId → List TicketId → Mill → Mill
  | 0, _, _, σ => σ
  | depth + 1, solver, targets, σ =>
    targets.foldl
      (fun σ tid =>
        let (σ', nested) := unblockSession env svc solver tid σ
        fireUnblocks depth tid nested σ')
      σ

/-- How many tickets are blocked. -/
def Mill.blockedCount (σ : Mill) : Nat :=
  σ.records.count fun r => decide (r.ticket.state = .blocked)

/-- `transition`. -/
def transition (tid : TicketId) (dst : State) (note blockReason : Option String) (σ : Mill) :
    Result Unit :=
  match transitionSession env svc tid dst note blockReason σ with
  | (σ', .error e) => (σ', .error e)
  | (σ', .ok targets) => (fireUnblocks env svc (σ'.blockedCount + 1) tid targets σ', .ok ())

/-! ## `resume_blocked` -/

/-- `get_epic_context`. -/
def getEpicContext (σ : Mill) (t : Ticket) : String :=
  match t.parentId with
  | none => ""
  | some parent =>
    match get env svc σ parent with
    | none => ""
    | some (k, p) =>
      if p.ticket.kind ≠ .epic then ""
      else
        let desc := (σ.workspace k).readDescription
        if desc = "" then "" else s!"````epic-context\n{desc}\n````\n<!-- /epic-context -->"

/-- The description with the epic's context in front. -/
def effectiveSpec (σ : Mill) (k : Key) (t : Ticket) : String :=
  let spec := (σ.workspace k).readDescription
  let epic_ctx := getEpicContext env svc σ t
  if epic_ctx = "" then spec else epic_ctx ++ "\n\n" ++ spec

/-- `_compute_spec_fingerprint`. -/
def computeSpecFingerprint (σ : Mill) (k : Key) (t : Ticket) : String :=
  env.sha256Hex16 (effectiveSpec env svc σ k t)

/-- What a resume resets besides the row. -/
structure ResumePlan where
  spawnReset : Bool
  spawnHold : Bool
  ciGuardsReset : List String
  zeroDiffReset : Bool

/-- Which guards a resume to `dst` finds tripped; `note` is stripped. -/
def resumePlan (s : Settings) (currentFp : String) (dst : State) (note : String) (a : Artifacts) :
    ResumePlan :=
  let exhausted := decide (dst = .ready) && atCeiling a.implementSpawnCount s.implementMaxSpawnsPerTicket
  let held := match readSpawnExhaustionMarker a with
    | some (specFp, count) => decide (2 ≤ count) && decide (specFp = currentFp) && isBlank note
    | none => false
  { spawnReset := exhausted && !held
    spawnHold := exhausted && held
    ciGuardsReset := (resetTrippedCiFixGuards s a).2
    zeroDiffReset := decide (dst = .ready) &&
      atCeiling a.implementZeroDiffCount s.implementZeroDiffAbortThreshold }

/-- The event note of a resume. -/
def resumeNote (plan : ResumePlan) (cycles : Bool) (dst : State) (note : String) : String :=
  let guards := ", ".intercalate plan.ciGuardsReset
  s!"resumed from blocked (was blocked from {dst.value})" ++
    (if note = "" then "" else s!"; override: {note}") ++
    (if plan.spawnReset then "; spawn counter reset via resume-blocked" else "") ++
    (if plan.spawnHold then "; recurring spawn exhaustion — counter NOT reset " ++
      "(spec unchanged and no resume note); change the " ++
      "spec or resume with a note to grant a fresh budget" else "") ++
    (if cycles then "; implement-review cycle counter reset via resume-blocked " ++
      "(was at the ceiling, which blocks in preflight before any work runs)" else "") ++
    (if plan.ciGuardsReset = [] then "" else
      s!"; ci_fix guard(s) reset via resume-blocked: {guards}") ++
    (if plan.zeroDiffReset then "; zero-diff counter reset via resume-blocked" else "")

/-- The artifacts after a resume to `dst`. -/
def resumeArtifacts (s : Settings) (plan : ResumePlan) (dst : State) (note : String)
    (a : Artifacts) : Artifacts :=
  let a := (resetTrippedCiFixGuards s a).1
  let a := if plan.zeroDiffReset then
      { a with implementZeroDiffCount := some "0", implementZeroDiffPaused := false } else a
  let a := if dst = .ready then
      let a := clearStaleImplementGuard a (!isBlank note)
      let a := persistStallStateFromImplementMd { a with implementConversationState := none }
      { a with implementSummaryMd := none, referenceFilesJson := none }
    else a
  if plan.spawnReset then
    { a with
      implementSpawnCount := none
      implementSpawnStateJson := .absent
      implementSpawnAbortsJsonl := [] }
  else a

/-- The next `Comment.id` of a board. -/
def nextCommentId (σ : Mill) (board : BoardId) : CommentId :=
  σ.records.rows.foldl
    (fun m row => if row.1.1 = board then row.2.comments.foldl (fun m c => max m c.id) m else m) 0 + 1

/-- `resume_blocked`. -/
def resumeBlocked (tid : TicketId) (note : String) (σ : Mill) : Result Unit :=
  match fetch env svc σ tid with
  | .error e => (σ, .error e)
  | .ok (k, r) =>
    match resumeRefusal tid r.ticket with
    | some e => (σ, .error e)
    | none =>
      let s := env.settings
      let dst := r.ticket.blockedFrom.getD .blocked
      let text := strip note
      let plan := resumePlan s (computeSpecFingerprint env svc σ k r.ticket) dst text
        (σ.workspace k).artifacts
      let eventNote := resumeNote plan (cyclesReset s dst r.ticket) dst text
      let record := resumeRecord s tid (σ.now env) (nextCommentId σ k.1) note eventNote r
      (((σ.editArtifacts k (resumeArtifacts s plan dst text)).putRecord k record).tick, .ok ())

/-! ## `request_changes`, `redraft`, `mark_done`, `close_tracker` -/

/-- `request_changes`. -/
def requestChanges (tid : TicketId) (body author : String) (σ : Mill) : Result Unit :=
  match fetch env svc σ tid with
  | .error e => (σ, .error e)
  | .ok (k, r) =>
    match requestChangesRefusal tid r.ticket with
    | some e => (σ, .error e)
    | none =>
      let record := requestChangesRecord tid (σ.now env) (nextCommentId σ k.1) body author r
      ((σ.putRecord k record).tick, .ok ())

/-- `request_implementation_changes`. -/
def requestImplementationChanges (tid : TicketId) (body author : String) (σ : Mill) : Result Unit :=
  match fetch env svc σ tid with
  | .error e => (σ, .error e)
  | .ok (k, r) =>
    match requestImplementationChangesRefusal tid body r.ticket with
    | some e => (σ, .error e)
    | none =>
      let record :=
        requestImplementationChangesRecord tid (σ.now env) (nextCommentId σ k.1) body author r
      (((σ.putRecord k record).editArtifacts k fun a =>
        resetImplementSpawnCounter (clearStaleImplementGuard a)).tick, .ok ())

/-- `redraft`. The workspace is rewritten before the calls that may raise. -/
def redraft (tid : TicketId) (body : String) (σ : Mill) : Result Unit :=
  match fetch env svc σ tid with
  | .error e => (σ, .error e)
  | .ok (k, r) =>
    match redraftRefusal tid r.ticket with
    | some e => (σ, .error e)
    | none =>
      let σ₁ := σ.editWorkspace k fun ws =>
        { pruneClone ws with
          description := some (redraftDescription body ws.readDescription r.comments)
          artifacts := {} }
      if env.repos.isNone then (σ₁, .error (.externalError "repos config unavailable"))
      else
        match env.sessionCost σ.ticks tid with
        | none => (σ₁, .error (.externalError "session cost unavailable"))
        | some cost =>
          ((σ₁.putRecord k (redraftRecord tid (σ.now env) body cost r)).tick, .ok ())

/-- `_verify_citations`: warn about citations that cannot be confirmed. -/
def verifyCitations (k : Key) (hasRepo : Bool) (note : String) (σ : Mill) : String :=
  let warnings := env.citationLines σ.ticks k note
  if !hasRepo || isBlank note || warnings.isEmpty then note
  else String.ofList ((note.toList.reverse.dropWhile isPySpace).reverse) ++ "\n\n" ++
    "\n".intercalate warnings

/-- The merge verification of `mark_done`: skipped on a force-close and without a local clone. -/
def unmergedRefusal (k : Key) (t : Ticket) (σ : Mill) : Option String :=
  if isForceClose t || !(σ.workspace k).repo then none else env.mergeRefusal σ.ticks k t.branch

/-- `mark_done` up to the point where it fires the unblocks. -/
def markDoneSession (tid : TicketId) (note author : String) (σ : Mill) : Result (List TicketId) :=
  match fetch env svc σ tid with
  | .error e => (σ, .error e)
  | .ok (k, r) =>
    match markDoneRefusal tid r.ticket with
    | some e => (σ, .error e)
    | none =>
      let σ₁ := σ.editWorkspace k id
      match unmergedRefusal env k r.ticket σ with
      | some msg => (σ₁, .error (.transitionError msg))
      | none =>
        let finalNote := verifyCitations env k (σ.workspace k).repo (markDoneNote r note) σ
        let record := markDoneRecord tid (σ.now env) (nextCommentId σ k.1) finalNote author r
        ((σ₁.putRecord k record).tick, .ok (parseDependsOnStr r.ticket.unblocks))

/-- `mark_done`. -/
def markDone (tid : TicketId) (note author : String) (σ : Mill) : Result Unit :=
  match markDoneSession env svc tid note author σ with
  | (σ', .error e) => (σ', .error e)
  | (σ', .ok targets) => (fireUnblocks env svc (σ'.blockedCount + 1) tid targets σ', .ok ())

/-- `close_tracker`. -/
def closeTracker (tid : TicketId) (note : String) (σ : Mill) : Result Unit :=
  match fetch env svc σ tid with
  | .error e => (σ, .error e)
  | .ok (k, r) =>
    match closeTrackerRefusal tid r.ticket with
    | some e => (σ, .error e)
    | none =>
      afterCommit env svc ((σ.putRecord k (closeTrackerRecord tid (σ.now env) note r)).tick)

/-! ## Comments and auto-resume -/

/-- `_maybe_resume_awaiting_user_reply`. -/
def maybeResumeAwaitingUserReply (k : Key) (σ : Mill) : Mill :=
  match σ.records.get k with
  | none => σ
  | some r =>
    match autoResumeDst r with
    | none => σ
    | some dst =>
      ((σ.putRecord k (autoResumeRecord k.2 (σ.now env) dst r)).editArtifacts k fun a =>
        clearStaleImplementGuard a).tick

/-- Replace the comments of a record. -/
def Mill.putComments (σ : Mill) (k : Key) (r : TicketRecord) (cs : List Comment) : Mill :=
  (σ.putRecord k { r with comments := cs }).tick

/-- Set `closed_at` of the comment `cid`. -/
def setClosedAt (cid : CommentId) (closedAt : Option DateTime) (cs : List Comment) : List Comment :=
  cs.map fun c => if c.id = cid then { c with closedAt := closedAt } else c

/-- Is `parent` an open question of a paused ticket, so that a reply answers it? -/
def answersQuestion (t : Ticket) (parent : Comment) : Bool :=
  decide (t.state = .awaitingUserReply) && parent.parentId.isNone &&
    startsWith parent.body ASK_USER_MARKER && parent.closedAt.isNone

/-- Is some comment `cid` stored on the board? -/
def boardHasComment (σ : Mill) (board : BoardId) (cid : CommentId) : Bool :=
  σ.records.rows.any fun row => decide (row.1.1 = board) && row.2.comments.any fun c => c.id = cid

/-- `add_comment`. -/
def addComment (tid : TicketId) (body author : String) (parentId : Option CommentId) (σ : Mill) :
    Result Unit :=
  match fetch env svc σ tid with
  | .error e => (σ, .error e)
  | .ok (k, r) =>
    let comment : Comment :=
      { id := nextCommentId σ k.1, body := body, author := author, parentId := parentId
        createdAt := σ.now env 1 }
    match parentId with
    | none => (σ.putComments k r (r.comments ++ [comment]), .ok ())
    | some pid =>
      match r.comments.find? fun c => c.id = pid with
      | none =>
        if boardHasComment σ k.1 pid then
          (σ, .error (.valueError s!"parent comment {pid} does not belong to ticket {tid}"))
        else (σ, .error (.valueError s!"parent comment {pid} not found"))
      | some parent =>
        if answersQuestion r.ticket parent then
          let cs := setClosedAt pid (some (σ.now env 0)) r.comments ++ [comment]
          (maybeResumeAwaitingUserReply env k (σ.putComments k r cs), .ok ())
        else (σ.putComments k r (r.comments ++ [comment]), .ok ())

/-- `_board_for_comment`. -/
def boardForComment (cid : CommentId) (tid : Option TicketId) (σ : Mill) :
    Except ServiceError BoardId :=
  match tid with
  | some tid => boardFor env svc σ tid
  | none =>
    match (collectCandidateBoards env svc σ).filter fun b => boardHasComment σ b cid with
    | [board] => .ok board
    | [] =>
      if svc = "" then .error (.valueError s!"Comment {cid} not found in any configured board")
      else .ok svc
    | _ => .error (.valueError s!"Comment id {cid} is ambiguous — it exists on multiple boards")

/-- The ticket of a board that holds comment `cid`. -/
def commentOwner (σ : Mill) (board : BoardId) (cid : CommentId) : Option (Key × TicketRecord) :=
  σ.records.rows.find? fun row =>
    decide (row.1.1 = board) && row.2.comments.any fun c => c.id = cid

/-- `close_thread`. -/
def closeThread (cid : CommentId) (tid : Option TicketId) (σ : Mill) : Result Unit :=
  match boardForComment env svc cid tid σ with
  | .error e => (σ, .error e)
  | .ok board =>
    match commentOwner σ board cid with
    | none => (σ, .error (.keyError s!"comment {cid} not found"))
    | some (k, r) =>
      match r.comments.find? fun c => c.id = cid with
      | none => (σ, .error (.keyError s!"comment {cid} not found"))
      | some comment =>
        if comment.parentId.isSome then
          (σ, .error (.valueError "only top-level threads can be closed"))
        else if comment.closedAt.isSome then (σ, .error (.valueError "thread already closed"))
        else
          let cs := setClosedAt cid (some (σ.now env 0)) r.comments
          (maybeResumeAwaitingUserReply env k (σ.putComments k r cs), .ok ())

/-- The open `[ASK_USER]` thread created last. -/
def latestOpenThread (cs : List Comment) : Option Comment :=
  latestBy Comment.createdAt (openAskUserThreads cs)

/-- Can the ticket be answered? -/
def answerable (t : Ticket) : Bool :=
  decide (t.state = .awaitingUserReply) ||
    decide (t.state = .blocked) && decide (t.blockedFrom = some .awaitingUserReply)

/-- `answer_pending_question` after the thread is closed: leave `blocked`, then either go to `ready`
    or try the auto-resume. -/
def afterAnswer (k : Key) (wasBlocked : Bool) (body : String) (requiresChange : Bool) (σ : Mill) :
    Result Unit :=
  let unblocked : Result Unit :=
    if wasBlocked then
      match transition env svc k.2 .awaitingUserReply
          (some "operator answered — resuming from ask_user timeout block") none σ with
      | (σ', .error e) => (σ', .error e)
      | (σ', .ok ()) =>
        let target := if requiresChange then "ready"
          else match (get env svc σ' k.2).bind fun found => found.2.ticket.pausedFrom with
            | some s => s.value
            | none => "originating state"
        addComment env svc k.2 ("Operator answered the [ASK_USER] question — resuming " ++
          s!"from BLOCKED back to {target}.") "system" none σ'
    else (σ, .ok ())
  match unblocked with
  | (σ', .error e) => (σ', .error e)
  | (σ', .ok ()) =>
    if requiresChange then transition env svc k.2 .ready (some body) none σ'
    else (maybeResumeAwaitingUserReply env k σ', .ok ())

/-- `answer_pending_question`. -/
def answerPendingQuestion (tid : TicketId) (body author : String) (requiresChange : Bool)
    (σ : Mill) : Result Unit :=
  match fetch env svc σ tid with
  | .error e => (σ, .error e)
  | .ok (k, r) =>
    if !answerable r.ticket then
      (σ, .error (.valueError
        s!"ticket is not awaiting a user reply (currently {r.ticket.state.value})"))
    else
      match latestOpenThread r.comments with
      | none => (σ, .error (.valueError "no open [ASK_USER] thread to answer"))
      | some ask_thread =>
        let reply : Comment :=
          { id := nextCommentId σ k.1, body := body, author := author
            parentId := some ask_thread.id, createdAt := σ.now env 0 }
        let cs := setClosedAt ask_thread.id (some (σ.now env 1)) (r.comments ++ [reply])
        afterAnswer env svc k (decide (r.ticket.state = .blocked)) body requiresChange
          (σ.putComments k r cs)

/-! ## `create` -/

/-- The arguments of `create`; `id` is the id it generates. -/
structure CreateArgs where
  id : TicketId
  title : String
  description : String := ""
  source : String := SourceKind.USER
  dependsOn : Option (List TicketId) := none
  unblocks : Option (List TicketId) := none
  kind : TicketKind := .task
  parentId : Option TicketId := none
  boardId : Option BoardId := none
  priority : Bool := false
  initialState : Option State := none

/-- The state a new ticket starts in. -/
def CreateArgs.state (a : CreateArgs) : State :=
  match a.initialState, a.kind with
  | some s, _ => s
  | none, .epic => .epicOpen
  | none, .inquiry => .asked
  | none, .task => .draft

/-- Does a priority-marked ancestor on the board pass its flag on? The walk stops at a ticket seen
    before; `fuel` bounds the chain. -/
def inheritsPriority (σ : Mill) (board : BoardId) : Nat → List TicketId → Option TicketId → Bool
  | 0, _, _ => false
  | _ + 1, _, none => false
  | fuel + 1, seen, some cur =>
    if cur ∈ seen then false
    else
      match σ.records.get (board, cur) with
      | none => false
      | some p => p.ticket.priority || inheritsPriority σ board fuel (cur :: seen) p.ticket.parentId

/-- The exception `create` raises before it touches the disk. -/
def createRefusal (board : BoardId) (a : CreateArgs) (σ : Mill) : Option ServiceError :=
  if (a.kind = .inquiry ∨ a.kind = .epic) ∧ a.dependsOn.isSome then
    some (.valueError "kinds inquiry and epic do not support depends_on — they are standalone")
  else if a.id ∈ parseDependsOnStr a.dependsOn then
    some (.valueError s!"Ticket cannot depend on itself: {a.id}")
  else if board = "meta" ∧ a.source ≠ SourceKind.META ∧ a.source ≠ SourceKind.USER ∧
      env.namesPaths a.description then
    some (.valueError ("refusing to create a ticket naming repository files on " ++
      "the forge-less 'meta' board: file it on the owning repo's board instead."))
  else if board = "" then
    some (.valueError "refusing to create board-less ticket")
  else
    match a.parentId with
    | none => none
    | some parent =>
      if (get env svc σ parent).isNone then
        some (.valueError s!"parent_id {reprStr parent} does not exist")
      else none

/-- The record `create` commits. -/
def createRecord (now : Nat → DateTime) (a : CreateArgs) (inherited : Bool) : TicketRecord where
  ticket :=
    { title := a.title, state := a.state, kind := a.kind, parentId := a.parentId, source := a.source
      dependsOn := a.dependsOn, unblocks := a.unblocks, priority := a.priority || inherited
      createdAt := now 0, updatedAt := now 1 }
  events := appendEvent a.id [] a.state (some "created") (now 2)
  comments := []

/-- `create`. The description is written before the row is inserted. -/
def create (a : CreateArgs) (σ : Mill) : Result Unit :=
  let board := a.boardId.getD svc
  match createRefusal env svc board a σ with
  | some e => (σ, .error e)
  | none =>
    let k : Key := (board, a.id)
    let σ₁ := σ.editWorkspace k fun ws => { ws with description := some a.description }
    let inherited := inheritsPriority σ board (σ.records.keys.length + 1) [] a.parentId
    match σ.records.get k with
    | some _ => (σ₁, .error (.dbError "UNIQUE constraint failed: ticket.id"))
    | none => ((σ₁.putRecord k (createRecord (σ.now env) a inherited)).tick, .ok ())

/-! ## Same-state events and event retention -/

/-- `add_history_note`. -/
def addHistoryNote (tid : TicketId) (note : String) (σ : Mill) : Result Unit :=
  match fetch env svc σ tid with
  | .error e => (σ, .error e)
  | .ok (k, r) => ((σ.putRecord k (historyNoteRecord tid (σ.now env) note r)).tick, .ok ())

/-- `add_step_event`. -/
def addStepEvent (tid : TicketId) (note : String) (σ : Mill) : Result Unit :=
  match fetch env svc σ tid with
  | .error e => (σ, .error e)
  | .ok (k, r) => ((σ.putRecord k (stepEventRecord tid (σ.now env) note r)).tick, .ok ())

/-- `_maybe_purge_ticket_events`, on the bound board. -/
def maybePurgeTicketEvents (tid : TicketId) (σ : Mill) : Result Unit :=
  if env.settings.maxEventsPerTicket = 0 then (σ, .ok ())
  else if svc = "" then (σ, .error (.valueError "db._db_path: board_id is required"))
  else
    match σ.records.get (svc, tid) with
    | none => (σ, .ok ())
    | some r =>
      (σ.putRecord (svc, tid) (purgeEventsRecord env.settings.maxEventsPerTicket r), .ok ())

end Service
end RobotsixMill
