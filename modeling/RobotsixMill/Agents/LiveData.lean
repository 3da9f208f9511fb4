import RobotsixMill.Agents.FinishedTickets

/-!
# `Agents.LiveData` — what the garbage collection may remove

A pass runs beside calls of the service, and beside creations and migrations that are under way. A directory may go
when its ticket has no row, or finished long enough ago; a row when none of its children is unfinished. Four things go
wrong:

- a directory on one board belongs to a ticket of another, as in the middle of a migration, and the prunes ask the one
  board only; nor do they see the children on other boards (`overlooks`);
- between the reading and the removal, a creation or a migration commits the row (`revives`);
- the events that tell of the end were purged (`callLosesEnd`);
- a finished ticket has no event of its end from the start (`TellsEnds`).

`gc_spares_live_data` says that these are all.
-/

namespace RobotsixMill
namespace Agents
open RobotsixMill.Core Lib Service

/-! ## The data directory and those who work on it -/

/-- Work of the service that others can come in between. -/
inductive ServiceJob
  /-- The directory is made, the row not committed. -/
  | creating (svc : BoardId) (args : CreateArgs)
  | migrating (m : Migration)

namespace ServiceJob

/-- The next step; the work is done when no job is left. -/
def step (env : Env) (σ : Mill) : ServiceJob → Mill × Option ServiceJob
  | creating svc args => ((createRow env svc args σ).1, none)
  | migrating m =>
    match m.advance env σ with
    | (σ', .running m') => (σ', some (migrating m'))
    | (σ', .finished _) => (σ', none)

/-- The tickets whose rows the next step commits, each with its parent unless it is finished. -/
def commits (env : Env) (σ : Mill) : ServiceJob → List (TicketId × Option TicketId)
  | creating svc args =>
    if (σ.records.get (args.boardId.getD svc, args.id)).isSome then []
    else [(args.id, if args.state ∈ GC_TERMINAL_STATES then none else args.parentId)]
  | migrating m =>
    match m.stage, m.inserted env σ with
    | .moving [], some _ => m.tickets.map fun t => (t, (m.snapshot.get (m.src, t)).bind fun r => r.ticket.parentId)
    | _, _ => []

end ServiceJob

/-- A directory that a pass removed. -/
structure Removal where
  task : GcTask
  key : Key
  /-- Had the ticket a row, on whatever board, that was not finished, or not for long enough? -/
  live : Bool
deriving DecidableEq, Repr

/-- A row that a pass deleted. -/
structure PurgedRow where
  key : Key
  /-- Had the ticket an unfinished child, on whatever board? -/
  active : Bool
deriving DecidableEq, Repr

/-- The data directory, those at work on it, and the record of what really happened. -/
structure DataDir where
  mill : Mill
  pass : Option GcPass
  jobs : List ServiceJob
  /-- When the tickets finished. -/
  finishedAt : Key → Option DateTime
  removed : List Removal
  purged : List PurgedRow

/-- A call of the service, a creation or a migration begins, one of those goes on, a pass begins, goes on, or leaves
    a board at that because of an exception. -/
inductive DataDirAct
  | call (op : Op)
  | create (svc : BoardId) (args : CreateArgs)
  | migrate (svc : BoardId) (tid : TicketId) (target : String) (note : Option String)
  | job (i : Nat)
  | startGc
  | gc (now : DateTime) (found : List String)
  | abandonBoard

/-- Has the ticket a row that is not finished, or not for long enough? -/
def isLive (finishedAt : Key → Option DateTime) (age : Nat) (now : DateTime) (σ : Mill) (tid : TicketId) : Bool :=
  σ.records.rows.any fun row => decide (row.1.2 = tid) &&
    !(isFinished row.2 && (finishedAt row.1).any fun (t : DateTime) => isAged age now t)

/-- Has the ticket an unfinished child, on whatever board? -/
def hasActiveChildAnywhere (σ : Mill) (tid : TicketId) : Bool :=
  σ.records.rows.any fun row => decide (row.2.ticket.parentId = some tid) && !isFinished row.2

/-- When the tickets finished: it is the newest event of a row that says so first. -/
def finishedAfter (σ σ' : Mill) (finishedAt : Key → Option DateTime) (k : Key) : Option DateTime :=
  match σ'.records.get k with
  | none => none
  | some r =>
    if isFinished r then
      if (σ.records.get k).any isFinished then finishedAt k else r.events.getLast?.map TicketEvent.at_
    else none

/-- The directory that the next step of a pass removes. -/
def GcPass.removes (p : GcPass) (σ : Mill) : Option Key :=
  match p.work with
  | .removing (name :: _) => if (σ.workspaces (p.board, name)).isSome then some (p.board, name) else none
  | _ => none

/-- The row that it deletes. -/
def GcPass.purges (p : GcPass) (σ : Mill) : Option Key :=
  match p.work with
  | .deleting tid _ _ => if σ.records.has (p.board, tid) then some (p.board, tid) else none
  | _ => none

namespace DataDir

/-- A store; of its tickets, the history says when they finished. -/
def fresh (σ : Mill) : DataDir where
  mill := σ
  pass := none
  jobs := []
  finishedAt k := (σ.records.get k).bind fun r => if isFinished r then terminalCloseTime r else none
  removed := []
  purged := []

/-- The store has changed to `σ'`. -/
def settle (s : DataDir) (σ' : Mill) : DataDir :=
  { s with mill := σ', finishedAt := finishedAfter s.mill σ' s.finishedAt }

/-- The next step of the pass `p`. -/
def advance (env : Env) (cfg : GcSettings) (now : DateTime) (found : List String) (s : DataDir) (p : GcPass) :
    DataDir :=
  let after := p.advance env cfg now found s.mill
  { s.settle after.1 with
    pass := after.2
    removed := s.removed ++ (p.removes s.mill).toList.map fun k =>
      ⟨p.task, k, isLive s.finishedAt (cfg.age p.task) p.now s.mill k.2⟩
    purged := s.purged ++ (p.purges s.mill).toList.map fun k => ⟨k, hasActiveChildAnywhere s.mill k.2⟩ }

/-- The next step of the job `i`. -/
def work (env : Env) (i : Nat) (s : DataDir) (job : ServiceJob) : DataDir :=
  let after := job.step env s.mill
  { s.settle after.1 with
    jobs := match after.2 with
      | some job' => s.jobs.set i job'
      | none => s.jobs.eraseIdx i }

/-- One step; creations and migrations come in steps of their own. -/
def apply (env : Env) (cfg : GcSettings) (s : DataDir) : DataDirAct → Option DataDir
  | .call op => if isPlain op then some (s.settle (op.run env s.mill).1) else none
  | .create svc args =>
    match createDir env svc args s.mill with
    | .error _ => some s
    | .ok σ' => some { s.settle σ' with jobs := s.jobs ++ [.creating svc args] }
  | .migrate svc tid target note =>
    match beginMigration env svc tid target note s.mill with
    | .error _ => some s
    | .ok m => some { s with jobs := s.jobs ++ [.migrating m] }
  | .job i => (s.jobs[i]?).map (s.work env i)
  | .startGc => if s.pass.isSome then none else some { s with pass := some (.start cfg) }
  | .gc now found => s.pass.map (s.advance env cfg now found)
  | .abandonBoard => s.pass.map fun p => { s with pass := some p.abandon }

/-- The step relation. -/
def Step (env : Env) (cfg : GcSettings) (s : DataDir) (act : DataDirAct) (t : DataDir) : Prop :=
  s.apply env cfg act = some t

end DataDir

/-! ## What goes wrong -/

namespace GcPass

/-- The directories to be removed. -/
def pending (p : GcPass) : List TicketId :=
  match p.work with
  | .removing names => names
  | _ => []

/-- The ticket whose row is to be deleted. -/
def checked (p : GcPass) : Option TicketId :=
  match p.work with
  | .deleting tid _ _ => some tid
  | _ => none

end GcPass

/-- Is a directory that the prune is about to take, or a row that it is about to pass, live on account of another
    board? -/
def overlooks (cfg : GcSettings) (s : DataDir) : Bool :=
  s.pass.any fun p =>
    match p.work with
    | .listed names => names.any fun name => p.takes cfg s.mill name && s.mill.records.rows.any fun row =>
        decide (row.1.2 = name) && decide (row.1.1 ≠ p.board) &&
          !(isFinished row.2 && (s.finishedAt row.1).any fun (t : DateTime) => isAged (cfg.age p.task) p.now t)
    | .purging (_ + 1) (tid :: _) => !hasUnfinishedChild s.mill p.board tid && s.mill.records.rows.any fun row =>
        decide (row.1.1 ≠ p.board) && decide (row.2.ticket.parentId = some tid) && !isFinished row.2
    | _ => false

/-- Does the job commit the row of a ticket whose directory is to be removed, or a child of one whose row is to be
    deleted? -/
def revives (env : Env) (s : DataDir) (job : ServiceJob) : Bool :=
  s.pass.any fun p => (job.commits env s.mill).any fun row =>
    p.pending.contains row.1 || row.2.any fun parent => decide (p.checked = some parent)

/-- The steps that endanger live data. -/
def endangers (env : Env) (cfg : GcSettings) (s : DataDir) : DataDirAct → Bool
  | .call op => callLosesEnd env s.mill op
  | .job i => (s.jobs[i]?).any (revives env s)
  | .gc _ _ => overlooks cfg s
  | _ => false

/-- The history of every finished ticket has an event of its end. -/
def TellsEnds (σ : Mill) : Prop := σ.records.AllRows fun _ r => isFinished r = true → (terminalCloseTime r).isSome = true

/-! ## The invariant -/

section Rows

variable {finishedAt : Key → Option DateTime} {age : Nat} {now : DateTime} {σ σ' : Mill} {tid : TicketId}

/-- Is the row no reason to keep the directory? -/
def IsOver (finishedAt : Key → Option DateTime) (age : Nat) (now : DateTime) (k : Key) (r : TicketRecord) : Prop :=
  isFinished r = true ∧ ∃ t, finishedAt k = some t ∧ isAged age now t = true

theorem isLive_eq_false : isLive finishedAt age now σ tid = false ↔
    ∀ k r, σ.records.get k = some r → k.2 = tid → IsOver finishedAt age now k r := by
  unfold isLive IsOver
  rw [List.any_eq_false]
  constructor
  · intro h k r hget hid
    have hrow := h (k, r) (Table.mem_rows.2 hget)
    simpa [hid, Option.any_eq_true] using hrow
  · rintro h ⟨k, r⟩ hmem
    have hrow := h k r (Table.mem_rows.1 hmem)
    by_cases hid : k.2 = tid
    · obtain ⟨hf, t, ht, hage⟩ := hrow hid
      have hover : ((finishedAt k).any fun (t : DateTime) => isAged age now t) = true := by
        rw [ht, Option.any_some]
        exact hage
      dsimp only
      rw [hf, hover, Bool.and_self, Bool.not_true, Bool.and_false]
      exact Bool.false_ne_true
    · simp [hid]

theorem hasActiveChildAnywhere_eq_false : hasActiveChildAnywhere σ tid = false ↔
    ∀ k r, σ.records.get k = some r → r.ticket.parentId = some tid → isFinished r = true := by
  unfold hasActiveChildAnywhere
  rw [List.any_eq_false]
  constructor
  · intro h k r hget hparent
    have hrow := h (k, r) (Table.mem_rows.2 hget)
    simpa [hparent] using hrow
  · rintro h ⟨k, r⟩ hmem
    have hrow := h k r (Table.mem_rows.1 hmem)
    by_cases hparent : r.ticket.parentId = some tid
    · simp [hrow hparent]
    · simp [hparent]

theorem finishedAfter_lasting {k : Key} {r₀ r : TicketRecord} (hget : σ.records.get k = some r₀)
    (hget' : σ'.records.get k = some r) (h₀ : isFinished r₀ = true) (h : isFinished r = true) :
    finishedAfter σ σ' finishedAt k = finishedAt k := by
  unfold finishedAfter
  rw [hget', hget]
  simp [h₀, h]

theorem finishedAfter_ended {k : Key} {r : TicketRecord} (hget : (σ.records.get k).any isFinished = false)
    (hget' : σ'.records.get k = some r) (h : isFinished r = true) :
    finishedAfter σ σ' finishedAt k = r.events.getLast?.map TicketEvent.at_ := by
  unfold finishedAfter
  rw [hget']
  simp [hget, h]

/-- Where every row comes from. -/
def RowsFrom (σ σ' : Mill) : Prop := σ'.records.AllRows fun k r => Lasting σ k r ∨ NewRow σ k r

theorem rowsFrom_of_subset (h : ∀ k r, σ'.records.get k = some r → σ.records.get k = some r) : RowsFrom σ σ' :=
  fun k r hget => .inl ⟨r, h k r hget, .refl r⟩

/-- A ticket that has no live row gets none but a new one. -/
theorem isLive_settled (hrows : RowsFrom σ σ')
    (hnew : ∀ k r, σ'.records.get k = some r → NewRow σ k r → k.2 ≠ tid)
    (h : isLive finishedAt age now σ tid = false) :
    isLive (finishedAfter σ σ' finishedAt) age now σ' tid = false := by
  rw [isLive_eq_false] at h ⊢
  intro k r hget hid
  rcases hrows k r hget with ⟨r₀, hget₀, hlast⟩ | hn
  · obtain ⟨hf, t, ht, hage⟩ := h k r₀ hget₀ hid
    refine ⟨hlast.finished hf, t, ?_, hage⟩
    rw [finishedAfter_lasting hget₀ hget hf (hlast.finished hf)]
    exact ht
  · exact absurd hid (hnew k r hget hn)

theorem noActiveChild_settled (hrows : RowsFrom σ σ')
    (hnew : ∀ k r, σ'.records.get k = some r → NewRow σ k r → isFinished r = false → r.ticket.parentId ≠ some tid)
    (h : hasActiveChildAnywhere σ tid = false) : hasActiveChildAnywhere σ' tid = false := by
  rw [hasActiveChildAnywhere_eq_false] at h ⊢
  intro k r hget hparent
  rcases hrows k r hget with ⟨r₀, hget₀, hlast⟩ | hn
  · exact hlast.finished (h k r₀ hget₀ (hlast.parentId ▸ hparent))
  · by_contra hf
    rw [Bool.not_eq_true] at hf
    exact hnew k r hget hn hf hparent

end Rows

/-- What a pass is about to remove is not live. -/
structure PassSpares (cfg : GcSettings) (s : DataDir) (p : GcPass) : Prop where
  pending : ∀ name ∈ p.pending, isLive s.finishedAt (cfg.age p.task) p.now s.mill name = false
  checked : ∀ tid, p.checked = some tid → hasActiveChildAnywhere s.mill tid = false

/-- Nothing live was removed, and the histories tell when the finished tickets finished. -/
structure Spares (cfg : GcSettings) (s : DataDir) : Prop where
  ended : s.mill.records.AllRows fun k r => isFinished r = true → ∃ t, s.finishedAt k = some t ∧ EndTold t r.events
  pass : ∀ p, s.pass = some p → PassSpares cfg s p
  removed : ∀ d ∈ s.removed, d.live = false
  purged : ∀ d ∈ s.purged, d.active = false

section Steps

variable {env : Env} {cfg : GcSettings} {s : DataDir}

theorem max_of_closeTime {r : TicketRecord} {t : DateTime} (h : terminalCloseTime r = some t) :
    EndTold t r.events ∧ ∀ e ∈ r.events, e.state ∈ GC_TERMINAL_STATES → e.at_ ≤ t := by
  unfold terminalCloseTime at h
  obtain ⟨hmem, hmax⟩ := List.max?_eq_some_iff.1 h
  obtain ⟨e, he, rfl⟩ := List.mem_map.1 hmem
  obtain ⟨he, hs⟩ := List.mem_filter.1 he
  refine ⟨⟨e, he, of_decide_eq_true hs, Nat.le_refl _⟩, ?_⟩
  intro e' he' hs'
  exact hmax _ (List.mem_map_of_mem (List.mem_filter.2 ⟨he', decide_eq_true hs'⟩))

theorem spares_fresh {σ : Mill} (h : TellsEnds σ) : Spares cfg (.fresh σ) where
  ended := by
    intro k r hget hf
    obtain ⟨t, ht⟩ := Option.isSome_iff_exists.1 (h k r hget hf)
    refine ⟨t, ?_, (max_of_closeTime ht).1⟩
    have hget' : σ.records.get k = some r := hget
    show (σ.records.get k).bind _ = some t
    rw [hget', Option.bind_some, if_pos hf]
    exact ht
  pass p hp := by cases hp
  removed d hd := by cases hd
  purged d hd := by cases hd

/-- The end of a row is told after a change of the store. -/
theorem Spares.ended_settle (h : Spares cfg s) {σ' : Mill} (hrows : RowsFrom s.mill σ') :
    σ'.records.AllRows fun k r => isFinished r = true →
      ∃ t, (s.settle σ').finishedAt k = some t ∧ EndTold t r.events := by
  have hnewest : ∀ k r, (s.mill.records.get k).any isFinished = false → σ'.records.get k = some r →
      isFinished r = true → newestState r = some r.ticket.state →
      ∃ t, finishedAfter s.mill σ' s.finishedAt k = some t ∧ EndTold t r.events := by
    intro k r hany hget hf hstate
    obtain ⟨e, he, hes⟩ := Option.map_eq_some_iff.1 hstate
    refine ⟨e.at_, ?_, e, List.mem_of_getLast? he, ?_, Nat.le_refl _⟩
    · rw [finishedAfter_ended hany hget hf, he]
      rfl
    · rw [hes]
      exact isFinished_iff.1 hf
  intro k r hget hf
  rcases hrows k r hget with ⟨r₀, hget₀, hlast⟩ | hn
  · cases h₀ : isFinished r₀ with
    | true =>
        obtain ⟨t, ht, htold⟩ := h.ended k r₀ hget₀ h₀
        refine ⟨t, ?_, hlast.told h₀ t htold⟩
        show finishedAfter s.mill σ' s.finishedAt k = some t
        rw [finishedAfter_lasting hget₀ hget h₀ hf]
        exact ht
    | false => exact hnewest k r (by simp [hget₀, h₀]) hget hf (hlast.ended h₀ hf)
  · exact hnewest k r (by simp [hn.absent]) hget hf (hn.ended hf)

/-- **The store may change** where no new row revives what is to be removed. -/
theorem Spares.settle (h : Spares cfg s) {σ' : Mill} (hrows : RowsFrom s.mill σ')
    (hnew : ∀ p, s.pass = some p → ∀ k r, σ'.records.get k = some r → NewRow s.mill k r →
      k.2 ∉ p.pending ∧ (isFinished r = false → ∀ tid, p.checked = some tid → r.ticket.parentId ≠ some tid)) :
    Spares cfg (s.settle σ') where
  ended := h.ended_settle hrows
  pass p hp :=
    { pending := by
        intro name hname
        refine isLive_settled hrows ?_ ((h.pass p hp).pending name hname)
        intro k r hget hn heq
        rw [← heq] at hname
        exact (hnew p hp k r hget hn).1 hname
      checked := by
        intro tid htid
        refine noActiveChild_settled hrows ?_ ((h.pass p hp).checked tid htid)
        intro k r hget hn hf
        exact (hnew p hp k r hget hn).2 hf tid htid }
  removed := h.removed
  purged := h.purged

/-- No row is new. -/
theorem Spares.settle_lasting (h : Spares cfg s) {σ' : Mill} (hrows : σ'.records.AllRows (Lasting s.mill)) :
    Spares cfg (s.settle σ') := by
  refine h.settle (fun k r hget => .inl (hrows k r hget)) ?_
  intro p _ k r hget hn
  obtain ⟨r₀, hget₀, -⟩ := hrows k r hget
  rw [hn.absent] at hget₀
  cases hget₀

theorem Spares.settle_subset (h : Spares cfg s) {σ' : Mill}
    (hsub : ∀ k r, σ'.records.get k = some r → s.mill.records.get k = some r) : Spares cfg (s.settle σ') :=
  h.settle_lasting fun k r hget => ⟨r, hsub k r hget, .refl r⟩

theorem Spares.jobs (h : Spares cfg s) (jobs : List ServiceJob) : Spares cfg { s with jobs := jobs } where
  ended := h.ended
  pass p hp := ⟨(h.pass p hp).pending, (h.pass p hp).checked⟩
  removed := h.removed
  purged := h.purged

/-! ### Creations and migrations -/

theorem step_creating (env : Env) (σ : Mill) (svc : BoardId) (args : CreateArgs) :
    ((ServiceJob.creating svc args).step env σ).1 = (createRow env svc args σ).1 := rfl

theorem step_migrating (env : Env) (σ : Mill) (m : Migration) :
    ((ServiceJob.migrating m).step env σ).1 = (m.advance env σ).1 := by
  unfold ServiceJob.step
  dsimp only
  split <;> rename_i heq <;> rw [heq]

/-- The new rows of a step are among those it is said to commit. -/
theorem rows_step (env : Env) (σ : Mill) (job : ServiceJob) :
    (job.step env σ).1.records.AllRows fun k r => Lasting σ k r ∨ NewRow σ k r ∧
      ∃ parent, (k.2, parent) ∈ job.commits env σ ∧ (isFinished r = false → parent = r.ticket.parentId) := by
  intro k r hget
  cases job with
  | creating svc args =>
      rw [step_creating] at hget
      rcases get_of_createRow hget with hold | ⟨hn, rfl, hparent, hs⟩
      · exact .inl ⟨r, hold, .refl r⟩
      · refine .inr ⟨hn, if args.state ∈ GC_TERMINAL_STATES then none else args.parentId, ?_, ?_⟩
        · unfold ServiceJob.commits
          dsimp only
          rw [hn.absent]
          exact List.mem_singleton_self _
        · intro hf
          have hs' : args.state ∉ GC_TERMINAL_STATES := by
            rw [← hs, ← isFinished_iff, hf]
            exact Bool.false_ne_true
          rw [if_neg hs', hparent]
  | migrating m =>
      rw [step_migrating] at hget
      rcases records_advance env m σ with hsame | ⟨hstage, hins⟩ | ⟨hstage, hdel⟩
      · rw [hsame] at hget
        exact .inl ⟨r, hget, .refl r⟩
      · -- the copies, which are drafts
        have hins' := hins
        unfold Migration.inserted at hins'
        split at hins'
        · cases hins'
        · rcases get_of_insertSnapshots hins' hget with hold | ⟨hnone, hs, hmem, r₀, hsnap, hparent⟩
          · exact .inl ⟨r, hold, .refl r⟩
          · have hf : isFinished r = false := by
              unfold isFinished
              rw [hs]
              rfl
            refine .inr ⟨⟨hnone, fun hf' => ?_⟩, (m.snapshot.get (m.src, k.2)).bind fun r => r.ticket.parentId, ?_, ?_⟩
            · rw [hf] at hf'
              cases hf'
            · unfold ServiceJob.commits
              dsimp only
              rw [hstage, hins]
              exact List.mem_map_of_mem hmem
            · intro _
              rw [hsnap, hparent]
              rfl
      · rw [hdel, deleteSources_eq, get_eraseAll] at hget
        split at hget
        · cases hget
        · exact .inl ⟨r, hget, .refl r⟩

theorem Spares.work (h : Spares cfg s) {job : ServiceJob} (hok : revives env s job = false) (i : Nat) :
    Spares cfg (s.work env i job) := by
  have hrows : RowsFrom s.mill (job.step env s.mill).1 := fun k r hget =>
    (rows_step env s.mill job k r hget).imp_right fun hnew => hnew.1
  refine (h.settle hrows ?_).jobs _
  · intro p hp k r hget hn
    unfold revives at hok
    rw [hp, Option.any_some, List.any_eq_false] at hok
    rcases rows_step env s.mill job k r hget with ⟨r₀, hget₀, -⟩ | ⟨-, parent, hmem, hparent⟩
    · rw [hn.absent] at hget₀
      cases hget₀
    · have hrow := hok (k.2, parent) hmem
      rw [Bool.or_eq_true, not_or] at hrow
      constructor
      · intro hpend
        exact hrow.1 (List.contains_iff_mem.2 hpend)
      · intro hf tid htid heq
        apply hrow.2
        rw [hparent hf, heq, Option.any_some]
        exact decide_eq_true htid

/-! ### The pass -/

/-- A pass adds no row. -/
theorem get_of_advance {p : GcPass} {now : DateTime} {found : List String} {σ : Mill} {k : Key} {r : TicketRecord}
    (h : (p.advance env cfg now found σ).1.records.get k = some r) : σ.records.get k = some r := by
  unfold GcPass.advance at h
  split at h
  · exact h
  · rename_i name names _
    have hsame : (removeDir p.task (p.board, name) σ).records = σ.records := by
      unfold removeDir
      split <;> rfl
    rw [hsame] at h
    exact h
  · exact h
  · exact h
  · exact h
  · split at h <;> exact h
  · exact (Table.get_of_get_erase h).2
  · split at h <;> exact h

/-- What is to be removed was so before, or was listed and is taken now. -/
theorem pending_advance {p q : GcPass} {now : DateTime} {found : List String} {σ : Mill}
    (hq : (p.advance env cfg now found σ).2 = some q) {name : TicketId} (hname : name ∈ q.pending) :
    q.task = p.task ∧ q.now = p.now ∧
      (name ∈ p.pending ∨ ∃ names, p.work = .listed names ∧ name ∈ names ∧ p.takes cfg σ name = true) := by
  have hnone : ∀ {q : GcPass}, (∀ names, q.work ≠ .removing names) → name ∉ q.pending := by
    intro q hwork hmem
    unfold GcPass.pending at hmem
    split at hmem
    · rename_i names hq
      exact hwork names hq
    · cases hmem
  unfold GcPass.advance at hq
  split at hq
  · rename_i names hwork
    obtain rfl := Option.some.inj hq
    obtain ⟨hmem, htakes⟩ := List.mem_filter.1 hname
    exact ⟨rfl, rfl, .inr ⟨names, hwork, hmem, htakes⟩⟩
  · rename_i first names hwork
    obtain rfl := Option.some.inj hq
    refine ⟨rfl, rfl, .inl ?_⟩
    unfold GcPass.pending
    rw [hwork]
    exact List.mem_cons_of_mem first hname
  · obtain rfl := Option.some.inj hq
    exact absurd hname (hnone fun names hwork => by cases hwork)
  · obtain rfl := Option.some.inj hq
    exact absurd hname (hnone fun names hwork => by cases hwork)
  · obtain rfl := Option.some.inj hq
    exact absurd hname (hnone fun names hwork => by cases hwork)
  · split at hq
    · obtain rfl := Option.some.inj hq
      exact absurd hname (hnone fun names hwork => by cases hwork)
    · obtain rfl := Option.some.inj hq
      exact absurd hname (hnone fun names hwork => by cases hwork)
  · obtain rfl := Option.some.inj hq
    exact absurd hname (hnone fun names hwork => by cases hwork)
  · split at hq
    · rename_i _ _ board boards _
      obtain rfl := Option.some.inj hq
      refine absurd hname (hnone fun names hwork => ?_)
      have hwork' : p.openBoard env board found σ = .removing names := hwork
      unfold GcPass.openBoard at hwork'
      split at hwork'
      · dsimp only at hwork'
        split at hwork' <;> cases hwork'
      · cases hwork'
    · obtain rfl := Option.some.inj hq
      exact absurd hname (hnone fun names hwork => by cases hwork)
    · cases hq

/-- A row is to be deleted where no child was found on the board. -/
theorem checked_advance {p q : GcPass} {now : DateTime} {found : List String} {σ : Mill}
    (hq : (p.advance env cfg now found σ).2 = some q) {tid : TicketId} (htid : q.checked = some tid) :
    ∃ excess candidates, p.work = .purging (excess + 1) (tid :: candidates) ∧
      hasUnfinishedChild σ p.board tid = false := by
  have hnone : ∀ {q : GcPass}, (∀ tid excess candidates, q.work ≠ .deleting tid excess candidates) →
      q.checked ≠ some tid := by
    intro q hwork hsome
    unfold GcPass.checked at hsome
    split at hsome
    · rename_i tid excess candidates hq
      exact hwork tid excess candidates hq
    · cases hsome
  unfold GcPass.advance at hq
  split at hq
  · obtain rfl := Option.some.inj hq
    exact absurd htid (hnone fun _ _ _ hwork => by cases hwork)
  · obtain rfl := Option.some.inj hq
    exact absurd htid (hnone fun _ _ _ hwork => by cases hwork)
  · obtain rfl := Option.some.inj hq
    exact absurd htid (hnone fun _ _ _ hwork => by cases hwork)
  · obtain rfl := Option.some.inj hq
    exact absurd htid (hnone fun _ _ _ hwork => by cases hwork)
  · obtain rfl := Option.some.inj hq
    exact absurd htid (hnone fun _ _ _ hwork => by cases hwork)
  · rename_i excess first candidates hwork
    split at hq
    · obtain rfl := Option.some.inj hq
      exact absurd htid (hnone fun _ _ _ hwork => by cases hwork)
    · rename_i hchild
      obtain rfl := Option.some.inj hq
      obtain rfl := Option.some.inj htid
      exact ⟨excess, candidates, hwork, by simpa using hchild⟩
  · obtain rfl := Option.some.inj hq
    exact absurd htid (hnone fun _ _ _ hwork => by cases hwork)
  · split at hq
    · rename_i _ _ board boards _
      obtain rfl := Option.some.inj hq
      refine absurd htid (hnone fun tid excess candidates hwork => ?_)
      have hwork' : p.openBoard env board found σ = .deleting tid excess candidates := hwork
      unfold GcPass.openBoard at hwork'
      split at hwork'
      · dsimp only at hwork'
        split at hwork' <;> cases hwork'
      · cases hwork'
    · obtain rfl := Option.some.inj hq
      exact absurd htid (hnone fun _ _ _ hwork => by cases hwork)
    · cases hq

theorem isAged_mono {age : Nat} {now t t' : DateTime} (h : isAged age now t' = true) (hle : t ≤ t') :
    isAged age now t = true := by
  unfold isAged at h ⊢
  rw [decide_eq_true_iff] at h ⊢
  have hle' : (t : Int) ≤ t' := Int.ofNat_le.2 hle
  omega

/-- What a prune takes on its own board is over. -/
theorem isOver_of_takes (h : Spares cfg s) {p : GcPass} {name : TicketId} (htakes : p.takes cfg s.mill name = true)
    {r : TicketRecord} (hget : s.mill.records.get (p.board, name) = some r) :
    IsOver s.finishedAt (cfg.age p.task) p.now (p.board, name) r := by
  have hprunable : isPrunable (cfg.age p.task) p.now p.board s.mill name = true := by
    unfold GcPass.takes at htakes
    split at htakes
    · unfold isOrphan at htakes
      rw [hget] at htakes
      cases htakes
    · exact htakes
  unfold isPrunable at hprunable
  rw [hget] at hprunable
  dsimp only at hprunable
  rw [Bool.and_eq_true] at hprunable
  obtain ⟨hf, htime⟩ := hprunable
  obtain ⟨t, ht, e, he, hs, hle⟩ := h.ended _ r hget hf
  refine ⟨hf, t, ht, ?_⟩
  cases hclose : terminalCloseTime r with
  | some t' =>
      rw [hclose] at htime
      exact isAged_mono htime (Nat.le_trans hle ((max_of_closeTime hclose).2 e he hs))
  | none =>
      -- the history has an event of the end, so there is a close time
      exfalso
      unfold terminalCloseTime at hclose
      have hnil := List.max?_eq_none_iff.1 hclose
      have hmem : e ∈ r.events.filter fun e => decide (e.state ∈ GC_TERMINAL_STATES) :=
        List.mem_filter.2 ⟨he, decide_eq_true hs⟩
      rw [List.map_eq_nil_iff.1 hnil] at hmem
      cases hmem

theorem not_live_of_takes (h : Spares cfg s) {p : GcPass} (hp : s.pass = some p) (hok : overlooks cfg s = false)
    {names : List TicketId} (hwork : p.work = .listed names) {name : TicketId} (hname : name ∈ names)
    (htakes : p.takes cfg s.mill name = true) :
    isLive s.finishedAt (cfg.age p.task) p.now s.mill name = false := by
  unfold overlooks at hok
  rw [hp, Option.any_some, hwork] at hok
  dsimp only at hok
  rw [List.any_eq_false] at hok
  have helse := hok name hname
  rw [htakes, Bool.true_and, Bool.not_eq_true] at helse
  rw [List.any_eq_false] at helse
  rw [isLive_eq_false]
  intro k r hget hid
  by_cases hboard : k.1 = p.board
  · have hk : k = (p.board, name) := Prod.ext hboard hid
    subst hk
    exact isOver_of_takes h htakes hget
  · have hrow := helse (k, r) (Table.mem_rows.2 hget)
    dsimp only at hrow
    rw [decide_eq_true hid, decide_eq_true hboard, Bool.true_and, Bool.true_and, Bool.not_eq_true, Bool.not_eq_false',
      Bool.and_eq_true] at hrow
    obtain ⟨t, ht, hage⟩ := (Option.any_eq_true _ _).1 hrow.2
    exact ⟨hrow.1, t, ht, hage⟩

theorem no_child_of_checked {p : GcPass} (hp : s.pass = some p) (hok : overlooks cfg s = false) {excess : Nat}
    {tid : TicketId} {candidates : List TicketId} (hwork : p.work = .purging (excess + 1) (tid :: candidates))
    (hchild : hasUnfinishedChild s.mill p.board tid = false) : hasActiveChildAnywhere s.mill tid = false := by
  unfold overlooks at hok
  rw [hp, Option.any_some, hwork] at hok
  dsimp only at hok
  rw [hchild, Bool.not_false, Bool.true_and, List.any_eq_false] at hok
  unfold hasUnfinishedChild at hchild
  rw [List.any_eq_false] at hchild
  rw [hasActiveChildAnywhere_eq_false]
  intro k r hget hparent
  by_cases hboard : k.1 = p.board
  · have hrow := hchild (k, r) (Table.mem_rows.2 hget)
    simpa [hboard, hparent] using hrow
  · have hrow := hok (k, r) (Table.mem_rows.2 hget)
    simpa [hboard, hparent] using hrow

/-- **A step of the pass** that overlooks nothing removes nothing live. -/
theorem Spares.advance (h : Spares cfg s) {p : GcPass} (hp : s.pass = some p) (hok : overlooks cfg s = false)
    (now : DateTime) (found : List String) : Spares cfg (s.advance env cfg now found p) := by
  have hsub : ∀ k r, (p.advance env cfg now found s.mill).1.records.get k = some r → s.mill.records.get k = some r :=
    fun _ _ hget => get_of_advance hget
  have hset := h.settle_subset hsub
  have hold : ∀ k r, (p.advance env cfg now found s.mill).1.records.get k = some r → ¬ NewRow s.mill k r := by
    intro k r hget hn
    have habs := hn.absent
    rw [hsub k r hget] at habs
    cases habs
  constructor
  · exact hset.ended
  · intro q hq
    constructor
    · intro name hname
      obtain ⟨htask, hnow, hpend | ⟨names, hwork, hmem, htakes⟩⟩ := pending_advance hq hname
      · rw [htask, hnow]
        exact (hset.pass p hp).pending name hpend
      · rw [htask, hnow]
        exact isLive_settled (rowsFrom_of_subset hsub) (fun k r hget hn => absurd hn (hold k r hget))
          (not_live_of_takes h hp hok hwork hmem htakes)
    · intro tid htid
      obtain ⟨excess, candidates, hwork, hchild⟩ := checked_advance hq htid
      exact noActiveChild_settled (rowsFrom_of_subset hsub) (fun k r hget hn => absurd hn (hold k r hget))
        (no_child_of_checked hp hok hwork hchild)
  · intro d hd
    rcases List.mem_append.1 hd with hd | hd
    · exact h.removed d hd
    · obtain ⟨k, hk, rfl⟩ := List.mem_map.1 hd
      rw [Option.mem_toList] at hk
      unfold GcPass.removes at hk
      split at hk
      · rename_i name names hwork
        split at hk
        · obtain rfl := Option.some.inj hk
          apply (h.pass p hp).pending
          unfold GcPass.pending
          rw [hwork]
          exact List.mem_cons_self
        · cases hk
      · cases hk
  · intro d hd
    rcases List.mem_append.1 hd with hd | hd
    · exact h.purged d hd
    · obtain ⟨k, hk, rfl⟩ := List.mem_map.1 hd
      rw [Option.mem_toList] at hk
      unfold GcPass.purges at hk
      split at hk
      · rename_i tid excess candidates hwork
        split at hk
        · obtain rfl := Option.some.inj hk
          apply (h.pass p hp).checked
          unfold GcPass.checked
          rw [hwork]
        · cases hk
      · cases hk

/-! ## Runs -/

theorem spares_step (s : DataDir) (act : DataDirAct) (t : DataDir) (h : Spares cfg s)
    (hstep : Guarded (fun s act => endangers env cfg s act = false) (DataDir.Step env cfg) s act t) : Spares cfg t := by
  obtain ⟨hok, hstep⟩ := hstep
  unfold DataDir.Step at hstep
  cases act with
  | call op =>
      replace hstep : (if isPlain op then some (s.settle (op.run env s.mill).1) else none) = some t := hstep
      split at hstep
      · rename_i hplain
        obtain rfl := Option.some.inj hstep
        exact h.settle_lasting (lasting_call env s.mill hplain hok)
      · cases hstep
  | create svc args =>
      unfold DataDir.apply at hstep
      dsimp only at hstep
      split at hstep
      · obtain rfl := Option.some.inj hstep
        exact h
      · rename_i σ' hdir
        obtain rfl := Option.some.inj hstep
        refine (h.settle_subset fun k r hget => ?_).jobs _
        unfold createDir at hdir
        dsimp only at hdir
        split at hdir
        · cases hdir
        · obtain rfl := Except.ok.inj hdir
          exact hget
  | migrate svc tid target note =>
      unfold DataDir.apply at hstep
      dsimp only at hstep
      split at hstep
      · obtain rfl := Option.some.inj hstep
        exact h
      · obtain rfl := Option.some.inj hstep
        exact h.jobs _
  | job i =>
      obtain ⟨job, hjob, rfl⟩ := Option.map_eq_some_iff.1 hstep
      have hrevive : revives env s job = false := by
        have hany : (s.jobs[i]?).any (revives env s) = false := hok
        rw [hjob] at hany
        exact hany
      exact h.work hrevive i
  | startGc =>
      replace hstep : (if s.pass.isSome then none else some { s with pass := some (.start cfg) }) = some t := hstep
      split at hstep
      · cases hstep
      · obtain rfl := Option.some.inj hstep
        constructor
        · exact h.ended
        · intro p hp
          obtain rfl := Option.some.inj hp
          exact ⟨fun name hname => (by cases hname), fun tid htid => (by cases htid)⟩
        · exact h.removed
        · exact h.purged
  | gc now found =>
      obtain ⟨p, hp, rfl⟩ := Option.map_eq_some_iff.1 hstep
      exact h.advance hp hok now found
  | abandonBoard =>
      obtain ⟨p, hp, rfl⟩ := Option.map_eq_some_iff.1 hstep
      constructor
      · exact h.ended
      · intro q hq
        obtain rfl := Option.some.inj hq
        exact ⟨fun name hname => (by cases hname), fun tid htid => (by cases htid)⟩
      · exact h.removed
      · exact h.purged

/-- **The garbage collection spares live data.** In every run from a store whose histories tell of the ends of their
    tickets, and whose steps endanger no live data, a pass removes only directories of tickets without a row or
    finished for long enough, and deletes no row with an unfinished child. -/
theorem gc_spares_live_data {σ : Mill} (hends : TellsEnds σ) {acts : List DataDirAct}
    (h : Run (Guarded (fun s act => endangers env cfg s act = false) (DataDir.Step env cfg)) (.fresh σ) acts s) :
    (∀ d ∈ s.removed, d.live = false) ∧ ∀ d ∈ s.purged, d.active = false := by
  have hspares := h.invariant spares_step (spares_fresh hends)
  exact ⟨hspares.removed, hspares.purged⟩

end Steps

/-- Two boards, and an archive of one ticket each. -/
def smallArchive : Env :=
  { Env.standalone with settings := { maxArchivedTickets := 1 }, repos := some [("other", "other")] }

/-- A ticket is created, and nothing comes in between. -/
def createWhole (args : CreateArgs) : List DataDirAct := [.create "board" args, .job 0]

/-- The id of a ticket from long ago. -/
def oldTicket : TicketId := "20200101T000000Z-ticket-1a2b"

/-- Two more, of later days. -/
def laterTicket : TicketId := "20200102T000000Z-ticket-1a2b"

def liveTicket : TicketId := "20200103T000000Z-ticket-3c4d"

/-- Three tickets are created and two of them closed, of which the archive keeps one. -/
def threeTickets : List DataDirAct :=
  createWhole { id := oldTicket, title := "ticket" } ++ createWhole { id := laterTicket, title := "ticket" } ++
    createWhole { id := liveTicket, title := "ticket" } ++
    [.call (.transition "board" oldTicket .closed none none), .call (.transition "board" laterTicket .closed none none)]

/-- Of the tickets from long ago the directory of the closed one is removed, and that of the live one is not. -/
theorem gc_spares_live_data_closed : ∃ acts s,
    Run (Guarded (fun s act => endangers smallArchive { pruneTerminalClones := false, pruneClosed := true } s act = false)
      (DataDir.Step smallArchive { pruneTerminalClones := false, pruneClosed := true })) (.fresh .empty) acts s ∧
    s.removed = [⟨.closed, ("board", laterTicket), false⟩] ∧ (∀ d ∈ s.removed, d.live = false) ∧
    ∀ d ∈ s.purged, d.active = false := by
  have hsome : ((Run.perform (fun s act =>
      if endangers smallArchive { pruneTerminalClones := false, pruneClosed := true } s act = false
      then s.apply smallArchive { pruneTerminalClones := false, pruneClosed := true } act else none)
      (DataDir.fresh .empty)
      (threeTickets ++ [.startGc, .gc 1786444496000000 ["board"],
        .gc 1786444496000000 [laterTicket, liveTicket], .gc 1786444496000000 [], .gc 1786444496000000 [],
        .gc 1786444496000000 []])).map
        fun s => s.removed) = some [⟨.closed, ("board", laterTicket), false⟩] := by
    decide +kernel
  obtain ⟨s, hs, hremoved⟩ := Option.map_eq_some_iff.1 hsome
  have hrun := Run.guarded_of_perform hs
  have hends : TellsEnds .empty := by
    intro k r hget
    cases hget
  exact ⟨_, s, hrun, hremoved, gc_spares_live_data hends hrun⟩

/-- A migration has moved the directory, and the pass takes it for an orphan; a child has moved to another board, and
    the row of its parent is deleted. -/
theorem gc_removes_live_data :
    (∃ acts s, Run (DataDir.Step smallArchive {}) (.fresh .empty) acts s ∧ ¬ ∀ d ∈ s.removed, d.live = false) ∧
    ∃ acts s, Run (DataDir.Step smallArchive {}) (.fresh .empty) acts s ∧ ¬ ∀ d ∈ s.purged, d.active = false := by
  constructor
  · have hsome : ((Run.perform (DataDir.apply smallArchive {}) (DataDir.fresh .empty)
        (createWhole { id := oldTicket, title := "ticket" } ++
          [.migrate "board" oldTicket "other" none, .job 0, .startGc, .gc 1786444496000000 ["other"],
            .gc 1786444496000000 [oldTicket], .gc 1786444496000000 [], .gc 1786444496000000 [],
            .gc 1786444496000000 ["other"], .gc 1786444496000000 [], .gc 1786444496000000 ["other"],
            .gc 1786444496000000 [oldTicket], .gc 1786444496000000 [], .gc 1786444496000000 []])).map
          fun s => s.removed) = some [⟨.orphans, ("other", oldTicket), true⟩] := by
      decide +kernel
    obtain ⟨s, hs, hremoved⟩ := Option.map_eq_some_iff.1 hsome
    refine ⟨_, s, Run.of_perform hs, fun hall => ?_⟩
    have hlive := hall ⟨.orphans, ("other", oldTicket), true⟩ (by rw [hremoved]; exact List.mem_cons_self)
    cases hlive
  · have hsome : ((Run.perform (DataDir.apply smallArchive {}) (DataDir.fresh .empty)
        (createWhole { id := "t-1", title := "first" } ++ createWhole { id := "t-2", title := "second" } ++
          createWhole { id := "c-1", title := "child", parentId := some "t-1" } ++
          createWhole { id := "c-2", title := "child", parentId := some "t-2" } ++
          [.call (.transition "board" "t-1" .closed none none), .call (.transition "board" "t-2" .closed none none),
            .migrate "board" "c-1" "other" none, .job 0, .job 0, .job 0, .startGc, .gc 1786444496000000 [],
            .gc 1786444496000000 ["board"], .gc 1786444496000000 [], .gc 1786444496000000 [],
            .gc 1786444496000000 []])).map fun s => s.purged) = some [⟨("board", "t-1"), true⟩] := by
      decide +kernel
    obtain ⟨s, hs, hpurged⟩ := Option.map_eq_some_iff.1 hsome
    refine ⟨_, s, Run.of_perform hs, fun hall => ?_⟩
    have hactive := hall ⟨("board", "t-1"), true⟩ (by rw [hpurged]; exact List.mem_cons_self)
    cases hactive

end Agents
end RobotsixMill
