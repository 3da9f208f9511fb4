import RobotsixMill.Lib.BoundedLog
import Mathlib.Data.Rat.Defs

/-!
# `Runtime.RunRegistry` — the record of the background runs of one board

The registry holds the runs in the order they were started, and writes all of them to its file with every
change. Only the `maxEntries` newest are kept.

Times are seconds; a run's id stands for its `uuid4`. The file is what the last completed `flush` wrote, and is
read back as it was written.

- `entries_start`, `entries_finish`, `entries_load` — what each call, and a restart, does to the entries;
- `mostRecent_eq` — `most_recent` is the newest successful entry of the runs that it is asked for.
-/

namespace RobotsixMill
namespace Runtime
open Lib

/-- `RunEntry.status`. -/
inductive RunStatus
  | running
  | ok
  | error
  deriving Repr, DecidableEq

/-- `RunEntry`. -/
structure RunEntry where
  id : Nat
  kind : String
  startedAt : Rat
  finishedAt : Option Rat
  status : RunStatus
  summary : String
  error : Option String
  repoId : String
  deriving Repr, DecidableEq

namespace RunEntry

def isRunning (e : RunEntry) : Bool := decide (e.status = .running)

def isOk (e : RunEntry) : Bool := decide (e.status = .ok)

/-- The entry is a run of this kind on this repository. -/
def isOf (kind repoId : String) (e : RunEntry) : Bool := decide (e.kind = kind) && decide (e.repoId = repoId)

theorem isRunning_eq_false_of_isOk {e : RunEntry} (h : e.isOk = true) : e.isRunning = false := by
  have hok : e.status = .ok := of_decide_eq_true h
  exact decide_eq_false (by rw [hok]; decide)

/-- What `finish_ok` writes to the entry. -/
def finishOk (now : Rat) (summary : String) (e : RunEntry) : RunEntry :=
  { e with status := .ok, finishedAt := some now, summary := summary }

/-- What `finish_error` writes to the entry. -/
def finishError (now : Rat) (error : String) (e : RunEntry) : RunEntry :=
  { e with status := .error, finishedAt := some now, error := some error }

/-- `RESTART_INTERRUPTED_ERROR`. -/
def restartInterruptedError : String := "interrupted by process restart"

/-- What `_load` makes of an entry: nobody will finish a run of the process before. -/
def reconcile (now : Rat) (e : RunEntry) : RunEntry :=
  if e.isRunning then e.finishError now restartInterruptedError else e

/-- A change of the run with this id only. -/
def onRun (runId : Nat) (f : RunEntry → RunEntry) (e : RunEntry) : RunEntry := if e.id = runId then f e else e

/-- A change that leaves what a run is: its id, its start, its kind and its repository. -/
structure SameRun (f : RunEntry → RunEntry) : Prop where
  id_eq : ∀ e, (f e).id = e.id
  startedAt_eq : ∀ e, (f e).startedAt = e.startedAt
  isOf_eq : ∀ kind repoId e, (f e).isOf kind repoId = e.isOf kind repoId

theorem sameRun_finishOk (now : Rat) (summary : String) : SameRun (finishOk now summary) :=
  ⟨fun _ => rfl, fun _ => rfl, fun _ _ _ => rfl⟩

theorem sameRun_finishError (now : Rat) (error : String) : SameRun (finishError now error) :=
  ⟨fun _ => rfl, fun _ => rfl, fun _ _ _ => rfl⟩

theorem SameRun.ite {f : RunEntry → RunEntry} (h : SameRun f) (p : RunEntry → Prop) [DecidablePred p] :
    SameRun fun e => if p e then f e else e := by
  constructor
  · intro e
    split
    · exact h.id_eq e
    · rfl
  · intro e
    split
    · exact h.startedAt_eq e
    · rfl
  · intro kind repoId e
    split
    · exact h.isOf_eq kind repoId e
    · rfl

theorem SameRun.onRun {f : RunEntry → RunEntry} (h : SameRun f) (runId : Nat) : SameRun (onRun runId f) :=
  h.ite fun e => e.id = runId

theorem sameRun_reconcile (now : Rat) : SameRun (reconcile now) :=
  (sameRun_finishError now restartInterruptedError).ite fun e => e.isRunning = true

theorem reconcile_of_not_running {e : RunEntry} (h : e.isRunning = false) (now : Rat) : e.reconcile now = e := by
  rw [reconcile, h]
  rfl

end RunEntry

/-- `MAX_ENTRIES`. -/
def maxEntries : Nat := 50

/-- A registry: its entries, and its file once there is one. -/
structure RunRegistry where
  entries : List RunEntry
  file : Option (List RunEntry)
  deriving Repr, DecidableEq

namespace RunRegistry

/-- The oldest entries, those `flush` trims. -/
def overflow (es : List RunEntry) : List RunEntry := es.take (es.length - maxEntries)

/-- The `MAX_ENTRIES` newest entries. -/
def trim (es : List RunEntry) : List RunEntry := es.drop (es.length - maxEntries)

/-- `flush`. -/
def flush (r : RunRegistry) : RunRegistry :=
  let es := if r.entries.length > maxEntries then trim r.entries else r.entries
  { entries := es, file := some es }

/-- `__init__` and `_load`: a registry on a file. -/
def load (file : Option (List RunEntry)) (now : Rat) : RunRegistry :=
  match file with
  | none => { entries := [], file := none }
  | some es =>
    if es.any RunEntry.isRunning then flush { entries := es.map (RunEntry.reconcile now), file := some es }
    else { entries := es, file := some es }

/-- The entry `start` creates. -/
def newEntry (id : Nat) (kind repoId : String) (now : Rat) : RunEntry :=
  { id, kind, startedAt := now, finishedAt := none, status := .running, summary := "", error := none, repoId }

/-- `start`, with the id it returns. -/
def start (r : RunRegistry) (id : Nat) (kind repoId : String) (now : Rat) : RunRegistry :=
  flush { r with entries := r.entries ++ [newEntry id kind repoId now] }

/-- The `for` of `finish_ok` and `finish_error`: the first entry with the id is changed. -/
def mark (runId : Nat) (f : RunEntry → RunEntry) : List RunEntry → List RunEntry
  | [] => []
  | e :: es => if e.id = runId then f e :: es else e :: mark runId f es

/-- What `finish_ok` and `finish_error` share. -/
def finish (r : RunRegistry) (runId : Nat) (f : RunEntry → RunEntry) : RunRegistry :=
  flush { r with entries := mark runId f r.entries }

/-- `finish_ok`. -/
def finishOk (r : RunRegistry) (runId : Nat) (summary : String) (now : Rat) : RunRegistry :=
  r.finish runId (RunEntry.finishOk now summary)

/-- `finish_error`. -/
def finishError (r : RunRegistry) (runId : Nat) (error : String) (now : Rat) : RunRegistry :=
  r.finish runId (RunEntry.finishError now error)

/-- `most_recent`. -/
def mostRecent (r : RunRegistry) (kind : String) (repoId : Option String) : Option RunEntry :=
  r.entries.reverse.find? fun e =>
    !(decide (e.kind ≠ kind) || decide (e.status ≠ .ok)) && (repoId.all fun repoId => decide (e.repoId = repoId))

/-! ## What the calls do -/

theorem overflow_append_trim (es : List RunEntry) : overflow es ++ trim es = es := List.take_append_drop _ es

theorem entries_flush (r : RunRegistry) : r.flush.entries = trim r.entries := by
  rw [flush]
  dsimp only
  split
  · rfl
  · rename_i hle
    rw [trim, Nat.sub_eq_zero_of_le (Nat.le_of_not_gt hle)]
    rfl

theorem file_flush (r : RunRegistry) : r.flush.file = some r.flush.entries := rfl

theorem length_trim (es : List RunEntry) : (trim es).length ≤ maxEntries := by
  rw [trim, List.length_drop]
  omega

theorem trim_of_le {es : List RunEntry} (h : es.length ≤ maxEntries) : trim es = es := by
  rw [trim, Nat.sub_eq_zero_of_le h]
  rfl

theorem overflow_of_le {es : List RunEntry} (h : es.length ≤ maxEntries) : overflow es = [] := by
  rw [overflow, Nat.sub_eq_zero_of_le h]
  rfl

theorem length_mark (runId : Nat) (f : RunEntry → RunEntry) (es : List RunEntry) :
    (mark runId f es).length = es.length := by
  induction es with
  | nil => rfl
  | cons e es ih =>
      rw [mark]
      split
      · rfl
      · rw [List.length_cons, List.length_cons, ih]

/-- With distinct ids it does not matter that the `for` stops at the first. -/
theorem mark_eq_map {runId : Nat} {f : RunEntry → RunEntry} {es : List RunEntry}
    (h : es.Pairwise fun a b => a.id < b.id) :
    mark runId f es = es.map (RunEntry.onRun runId f) := by
  induction es with
  | nil => rfl
  | cons e es ih =>
      obtain ⟨hfirst, hrest⟩ := List.pairwise_cons.1 h
      rw [mark, List.map_cons, RunEntry.onRun]
      split
      · rename_i hid
        congr 1
        refine ((List.map_id es).symm.trans (List.map_congr_left fun a ha => ?_))
        have hlt := hfirst a ha
        rw [RunEntry.onRun, if_neg (by omega)]
        rfl
      · rw [ih hrest]

theorem entries_start (r : RunRegistry) (id : Nat) (kind repoId : String) (now : Rat) :
    (r.start id kind repoId now).entries = trim (r.entries ++ [newEntry id kind repoId now]) := by
  rw [start, entries_flush]

theorem entries_finish {r : RunRegistry} (hids : r.entries.Pairwise fun a b => a.id < b.id)
    (hlength : r.entries.length ≤ maxEntries) (runId : Nat) (f : RunEntry → RunEntry) :
    (r.finish runId f).entries = r.entries.map (RunEntry.onRun runId f) := by
  rw [finish, entries_flush, trim_of_le (by rwa [length_mark]), mark_eq_map hids]

/-- A registry that agrees with its file, if it has one. -/
def Written (r : RunRegistry) : Prop := r.file = some r.entries ∨ (r.file = none ∧ r.entries = [])

theorem written_flush (r : RunRegistry) : r.flush.Written := Or.inl (file_flush r)

/-- A restart interrupts what was running, and leaves the rest. -/
theorem entries_load {r : RunRegistry} (h : r.Written) (hlength : r.entries.length ≤ maxEntries) (now : Rat) :
    (load r.file now).entries = r.entries.map (RunEntry.reconcile now) := by
  obtain hfile | ⟨hfile, hnil⟩ := h
  · rw [hfile, load]
    split
    · rw [entries_flush, trim_of_le (by rwa [List.length_map])]
    · rename_i hnone
      refine ((List.map_id _).symm.trans (List.map_congr_left fun e he => ?_))
      rw [RunEntry.reconcile_of_not_running]
      · rfl
      · by_contra hrunning
        exact hnone (List.any_eq_true.2 ⟨e, he, by simpa using hrunning⟩)
  · rw [hfile, hnil]
    rfl

theorem written_load {r : RunRegistry} (h : r.Written) (now : Rat) : (load r.file now).Written := by
  obtain hfile | ⟨hfile, -⟩ := h
  · rw [hfile, load]
    split
    · exact written_flush _
    · exact Or.inl rfl
  · rw [hfile]
    exact Or.inr ⟨rfl, rfl⟩

/-- **`most_recent`**, asked for one repository. -/
theorem mostRecent_eq (r : RunRegistry) (kind repoId : String) :
    r.mostRecent kind (some repoId) = newest RunEntry.isOk (r.entries.filter (RunEntry.isOf kind repoId)) := by
  rw [newest_filter, mostRecent, newest]
  congr 1
  funext e
  rw [RunEntry.isOf, RunEntry.isOk, Option.all_some]
  by_cases hkind : e.kind = kind <;> by_cases hok : e.status = .ok <;> simp [hkind, hok]

end RunRegistry
end Runtime
end RobotsixMill
