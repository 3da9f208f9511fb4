import RobotsixMill.Runtime.RunRegistry
import RobotsixMill.Lib.PyText
import Mathlib.Tactic.Linarith
import Mathlib.Tactic.Ring
import Mathlib.Algebra.Order.Field.Rat

/-!
# `Runtime.PollLoops` — when a periodic loop fires

A worker knows one registry of runs for each board, and a default one: that of the lead repository. A loop of a
repository reads a registry to find out how long to wait before its first pass, and records its passes in one.

The md5 of a kind's name and the random jitter are parameters.

- `recordsIn`, `readsFrom` — where a loop records its passes, and where it reads them;
- `initialDelay_some`, `initialDelay_none` — how long a loop waits.
-/

namespace RobotsixMill
namespace Runtime
open Lib

/-- What the loops need of a `RepoConfig`. -/
structure RepoConfig where
  repoId : String
  boardId : String
  repoId_nonempty : strip repoId ≠ ""
  boardId_nonempty : strip boardId ≠ ""

theorem RepoConfig.repoId_ne (rc : RepoConfig) : rc.repoId ≠ "" := by
  intro h
  apply rc.repoId_nonempty
  rw [h]
  rfl

/-- A registry, by its file. -/
abbrev RegistryId := String

/-- What the loops need of a `Worker`. -/
structure PollWorker where
  runRegistry : Option RegistryId
  runRegistries : String → Option RegistryId

/-- `Worker._META_BOARD`. -/
def metaBoard : String := "meta"

/-- The worker that `lifespan` builds: a registry for each board, and the lead board's by default. -/
def lifespanWorker (repos : List RepoConfig) (leadBoardId : String) : PollWorker where
  runRegistry := some leadBoardId
  runRegistries board := if board = metaBoard || (repos.map RepoConfig.boardId).contains board then some board else none

/-- `_registry_for`. -/
def PollWorker.registryFor (w : PollWorker) : Option RepoConfig → Option RegistryId
  | some rc => (w.runRegistries rc.boardId).or w.runRegistry
  | none => w.runRegistry

/-! ## The loops of a repository -/

/-- A loop of a repository: a workflow of `.robotsix-mill/periodic/`, with the interval of `Settings` that it
    falls back on, or a bespoke agent. -/
inductive PollLoop
  | workflow (name : String) (intervalSeconds : Option Int) (settingsInterval : Int)
  | bespoke (name : String) (intervalSeconds : Int)
  deriving Repr, DecidableEq

namespace PollLoop

/-- The kind a loop records its passes as. -/
def label : PollLoop → String
  | workflow name _ _ => name
  | bespoke name _ => "bespoke:" ++ name

/-- The seconds between two passes. -/
def interval : PollLoop → Int
  | workflow _ intervalSeconds settingsInterval =>
    let i := intervalSeconds.getD settingsInterval
    max 60 (if i = 0 then 86400 else i)
  | bespoke _ intervalSeconds => max 60 intervalSeconds

/-- The registry that `_fire_periodic_pass` and `_run_bespoke_loop` record a pass in. -/
def recordsIn (w : PollWorker) (rc : RepoConfig) : PollLoop → Option RegistryId
  | workflow _ _ _ => w.registryFor (some rc)
  | bespoke _ _ => w.runRegistry

/-- The registry that `_run_periodic_workflow_loop` and `_run_bespoke_loop` give `_initial_delay`. -/
def readsFrom (w : PollWorker) (rc : RepoConfig) : PollLoop → Option RegistryId
  | workflow _ _ _ => w.registryFor (some rc)
  | bespoke _ _ => w.registryFor (some rc)

theorem readsFrom_eq (w : PollWorker) (rc : RepoConfig) (l : PollLoop) :
    l.readsFrom w rc = w.registryFor (some rc) := by
  cases l <;> rfl

end PollLoop

/-! ## The initial delay -/

/-- `random.uniform(0, 60)`. -/
abbrev Jitter := {u : Rat // 0 ≤ u ∧ u ≤ 60}

section Delay

variable (md5 : String → Nat)

/-- The offset of a kind: its md5 modulo the cap, one minute to one hour. -/
def kindStagger (kind : String) (interval : Int) : Int :=
  (md5 kind : Int) % max 60 (min (interval / 12) 3600)

theorem kindStagger_nonneg (kind : String) (interval : Int) : 0 ≤ kindStagger md5 kind interval := by
  apply Int.emod_nonneg
  omega

/-- `_initial_delay`, on the registry it is given or else the default one. -/
def initialDelay (now : Rat) (jitter : Jitter) (kind : String) (interval : Int) (repoId : String)
    (registry default : Option RunRegistry) : Rat :=
  let base : Rat :=
    match registry.or default with
    | none => interval
    | some reg =>
      match reg.mostRecent kind (if repoId = "" then none else some repoId) with
      | none => 1
      | some entry =>
        let elapsed := now - entry.startedAt
        if (interval : Rat) ≤ elapsed then 1 else interval - elapsed
  base + (kindStagger md5 kind interval + jitter.1)

variable {md5} {now : Rat} {jitter : Jitter} {kind repoId : String} {interval : Int} {reg : RunRegistry}
  {default : Option RunRegistry}

/-- A loop whose last successful pass is on record waits until its interval is over. -/
theorem initialDelay_some {entry : RunEntry} (hrepo : repoId ≠ "")
    (hrecent : reg.mostRecent kind (some repoId) = some entry) (hearly : now < entry.startedAt + interval) :
    initialDelay md5 now jitter kind interval repoId (some reg) default =
      entry.startedAt + interval - now + (kindStagger md5 kind interval + jitter.1) := by
  have helapsed : ¬ (interval : Rat) ≤ now - entry.startedAt := by
    intro h
    linarith
  rw [initialDelay, if_neg hrepo, Option.some_or]
  dsimp only
  rw [hrecent]
  dsimp only
  rw [if_neg helapsed]
  ring

/-- A loop that has no successful pass on record waits a second, and its stagger. -/
theorem initialDelay_none (hrepo : repoId ≠ "") (hrecent : reg.mostRecent kind (some repoId) = none) :
    initialDelay md5 now jitter kind interval repoId (some reg) default =
      1 + (kindStagger md5 kind interval + jitter.1) := by
  rw [initialDelay, if_neg hrepo, Option.some_or]
  dsimp only
  rw [hrecent]

end Delay

end Runtime
end RobotsixMill
