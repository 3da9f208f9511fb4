import RobotsixMill.Runtime.PollLoops
import RobotsixMill.Lib.Runs
import Mathlib.Tactic.NormNum

/-!
# `Runtime.Cadence` — the cadence of the periodic loops across restarts

Loops, routes and restarts act on the registries of one worker, in any order. Beside the registries the state
carries the log of all runs ever recorded, which nothing is shed from. A loop keeps its cadence when it waits as
long as that log demands.

Three things break it:

- a bespoke loop reads the registry of its repository and records in the default one, so that outside the lead
  repository it never finds its own passes;
- a full registry sheds its oldest entries whatever their kind, so that the many runs of one kind push out the
  last successful run of a rare one, or one that is still running;
- with an interval of two minutes or less the stagger alone can outlast it.

`RunsKept` rules out the first two step by step; `RunsVisible.step` is the step lemma.
-/

namespace RobotsixMill
namespace Runtime
open Lib

/-! ## The worker at work -/

/-- The registries, and the log of all runs with the registry each was recorded in. -/
structure PollState where
  registries : RegistryId → RunRegistry
  log : List (RegistryId × RunEntry)

/-- Before anything was recorded. -/
def PollState.fresh : PollState where
  registries _ := RunRegistry.load none 0
  log := []

/-- Who records a run: a loop of a repository, or else a route or another loop, with the registry, the kind and
    the repository that it records. -/
inductive Recorder
  | loop (l : PollLoop) (rc : RepoConfig)
  | elsewhere (registry : RegistryId) (kind repoId : String)

namespace Recorder

def registry (w : PollWorker) : Recorder → Option RegistryId
  | loop l rc => l.recordsIn w rc
  | elsewhere registry _ _ => some registry

def kind : Recorder → String
  | loop l _ => l.label
  | elsewhere _ kind _ => kind

def repoId : Recorder → String
  | loop _ rc => rc.repoId
  | elsewhere _ _ repoId => repoId

end Recorder

/-- What happens to the registries. A run is named by its place in the log. -/
inductive PollEvent
  | start (who : Recorder) (now : Rat)
  | finishOk (run : Nat) (summary : String) (now : Rat)
  | finishError (run : Nat) (error : String) (now : Rat)
  | restart (now : Rat)

namespace PollState

/-- `registry.start`, by someone who has a registry. -/
def start (s : PollState) (name : RegistryId) (kind repoId : String) (now : Rat) : PollState where
  registries := Function.update s.registries name ((s.registries name).start s.log.length kind repoId now)
  log := s.log ++ [(name, RunRegistry.newEntry s.log.length kind repoId now)]

/-- `registry.finish_ok` or `registry.finish_error`, by whoever started the run: at most once, and not after a
    restart. -/
def finish (s : PollState) (run : Nat) (f : RunEntry → RunEntry) : Option PollState :=
  match s.log[run]? with
  | none => none
  | some (name, e) =>
    if e.isRunning then
      some
        { registries := Function.update s.registries name ((s.registries name).finish run f)
          log := s.log.map fun p => (p.1, p.2.onRun run f) }
    else none

/-- The process dies, and every registry is read back from its file. -/
def restart (s : PollState) (now : Rat) : PollState where
  registries name := RunRegistry.load (s.registries name).file now
  log := s.log.map fun p => (p.1, p.2.reconcile now)

/-- One event. -/
def apply (w : PollWorker) (s : PollState) : PollEvent → Option PollState
  | .start who now =>
    match who.registry w with
    | none => some s
    | some name => some (s.start name who.kind who.repoId now)
  | .finishOk run summary now => s.finish run (RunEntry.finishOk now summary)
  | .finishError run error now => s.finish run (RunEntry.finishError now error)
  | .restart now => some (s.restart now)

/-- The step relation. -/
def Step (w : PollWorker) (s : PollState) (ev : PollEvent) (t : PollState) : Prop := s.apply w ev = some t

/-- The runs of a kind on a repository, oldest first. -/
def runsOf (s : PollState) (kind repoId : String) : List RunEntry :=
  (s.log.map Prod.snd).filter (RunEntry.isOf kind repoId)

/-- The run of a kind on a repository that was started last of those that finished ok. -/
def lastOk (s : PollState) (kind repoId : String) : Option RunEntry := newest RunEntry.isOk (s.runsOf kind repoId)

theorem registries_start_self (s : PollState) (name : RegistryId) (kind repoId : String) (now : Rat) :
    (s.start name kind repoId now).registries name = (s.registries name).start s.log.length kind repoId now :=
  Function.update_self _ _ _

theorem registries_start_ne (s : PollState) {name other : RegistryId} (h : other ≠ name) (kind repoId : String)
    (now : Rat) : (s.start name kind repoId now).registries other = s.registries other :=
  Function.update_of_ne h _ _

/-- A run that is finished was running, and is changed in the registry that it was started in. -/
theorem finish_cases {s t : PollState} {run : Nat} {f : RunEntry → RunEntry} (h : s.finish run f = some t) :
    ∃ name e, s.log[run]? = some (name, e) ∧ e.isRunning = true ∧
      t.registries = Function.update s.registries name ((s.registries name).finish run f) ∧
      t.log = s.log.map fun p => (p.1, p.2.onRun run f) := by
  rw [finish] at h
  split at h
  · cases h
  · rename_i name e hrun
    split at h
    · rename_i hrunning
      obtain rfl := Option.some.inj h
      exact ⟨name, e, hrun, hrunning, rfl, rfl⟩
    · cases h

end PollState

/-! ## The cadence -/

/-- When the first pass of a loop that is scheduled now will start. -/
def firstPass (md5 : String → Nat) (w : PollWorker) (s : PollState) (rc : RepoConfig) (l : PollLoop) (now : Rat)
    (jitter : Jitter) : Rat :=
  now + initialDelay md5 now jitter l.label l.interval rc.repoId ((l.readsFrom w rc).map s.registries)
    (w.runRegistry.map s.registries)

/-- A loop does not fire before its interval is over. -/
def Waits (md5 : String → Nat) (w : PollWorker) (s : PollState) (rc : RepoConfig) (l : PollLoop) : Prop :=
  ∀ run now jitter, s.lastOk l.label rc.repoId = some run → now < run.startedAt + l.interval →
    run.startedAt + l.interval ≤ firstPass md5 w s rc l now jitter

/-- A loop that never finished ok does not wait a full interval. -/
def Prompt (md5 : String → Nat) (w : PollWorker) (s : PollState) (rc : RepoConfig) (l : PollLoop) (jitter : Jitter) : Prop :=
  ∀ now, s.lastOk l.label rc.repoId = none → firstPass md5 w s rc l now jitter < now + l.interval

/-- The condition on the steps. A run of the loop's kind on its repository is recorded in the registry `name`
    that the loop reads; and what a new run pushes out of that registry is none of the loop's runs that is still
    running, and no successful one unless a successful one stays. -/
def RunsKept (w : PollWorker) (rc : RepoConfig) (l : PollLoop) (name : RegistryId) (s : PollState) : PollEvent → Prop
  | .start who now =>
    (who.kind = l.label → who.repoId = rc.repoId → who.registry w = some name) ∧
      (who.registry w = some name →
        let es := (s.registries name).entries ++ [RunRegistry.newEntry s.log.length who.kind who.repoId now]
        let mine := RunEntry.isOf l.label rc.repoId
        (∀ e ∈ RunRegistry.overflow es, mine e = true → e.isRunning = false) ∧
          ((∃ e ∈ RunRegistry.overflow es, mine e = true ∧ e.isOk = true) →
            ∃ e ∈ RunRegistry.trim es, mine e = true ∧ e.isOk = true))
  | _ => True

/-- With room in the registry nothing is pushed out. -/
theorem runsKept_of_room {w : PollWorker} {rc : RepoConfig} {l : PollLoop} {name : RegistryId} {s : PollState}
    {who : Recorder} {now : Rat}
    (hown : who.kind = l.label → who.repoId = rc.repoId → who.registry w = some name)
    (hroom : (s.registries name).entries.length < maxEntries) : RunsKept w rc l name s (.start who now) := by
  have hnone : RunRegistry.overflow ((s.registries name).entries ++
      [RunRegistry.newEntry s.log.length who.kind who.repoId now]) = [] := by
    apply RunRegistry.overflow_of_le
    rw [List.length_append, List.length_singleton]
    exact hroom
  refine ⟨hown, fun _ => ?_⟩
  dsimp only
  rw [hnone]
  refine ⟨fun e he => absurd he List.not_mem_nil, ?_⟩
  rintro ⟨e, he, -⟩
  exact absurd he List.not_mem_nil

/-! ## The registries over a run -/

/-- What holds of the registries whatever happens. -/
structure Registered (s : PollState) : Prop where
  id_eq : ∀ (run : Nat) (p : RegistryId × RunEntry), s.log[run]? = some p → p.2.id = run
  id_lt : ∀ name, ∀ e ∈ (s.registries name).entries, e.id < s.log.length
  sorted : ∀ name, (s.registries name).entries.Pairwise fun a b => a.id < b.id
  length_le : ∀ name, (s.registries name).entries.length ≤ maxEntries
  written : ∀ name, (s.registries name).Written

theorem registered_fresh : Registered .fresh where
  id_eq run p h := by cases h
  id_lt name e he := absurd he List.not_mem_nil
  sorted name := List.Pairwise.nil
  length_le name := Nat.zero_le _
  written name := Or.inr ⟨rfl, rfl⟩

namespace Registered

variable {s t : PollState}

theorem start (h : Registered s) (name : RegistryId) (kind repoId : String) (now : Rat) :
    Registered (s.start name kind repoId now) := by
  have hsub : ∀ e ∈ ((s.registries name).start s.log.length kind repoId now).entries,
      e ∈ (s.registries name).entries ∨ e = RunRegistry.newEntry s.log.length kind repoId now := by
    intro e he
    rw [RunRegistry.entries_start] at he
    obtain he | he := List.mem_append.1 (List.mem_of_mem_drop he)
    · exact Or.inl he
    · exact Or.inr (List.mem_singleton.1 he)
  constructor
  · intro run p hp
    obtain hlt | hge := Nat.lt_or_ge run s.log.length
    · rw [PollState.start, List.getElem?_append_left hlt] at hp
      exact h.id_eq run p hp
    · rw [PollState.start, List.getElem?_append_right hge] at hp
      obtain ⟨hzero, hp⟩ := List.getElem?_eq_some_iff.1 hp
      have hrun : run = s.log.length := by
        rw [List.length_singleton] at hzero
        omega
      subst hrun
      rw [List.getElem_singleton] at hp
      rw [← hp]
      rfl
  · intro other e he
    show e.id < (s.log ++ [_]).length
    rw [List.length_append, List.length_singleton]
    by_cases hother : other = name
    · subst hother
      rw [PollState.registries_start_self] at he
      obtain he | rfl := hsub e he
      · have := h.id_lt _ e he
        omega
      · exact Nat.lt_succ_self _
    · rw [PollState.registries_start_ne s hother] at he
      have := h.id_lt _ e he
      omega
  · intro other
    by_cases hother : other = name
    · subst hother
      rw [PollState.registries_start_self, RunRegistry.entries_start]
      apply List.Pairwise.sublist (List.drop_sublist _ _)
      rw [List.pairwise_append]
      refine ⟨h.sorted other, List.pairwise_singleton _ _, ?_⟩
      intro a ha b hb
      rw [List.mem_singleton.1 hb]
      exact h.id_lt other a ha
    · rw [PollState.registries_start_ne s hother]
      exact h.sorted other
  · intro other
    by_cases hother : other = name
    · subst hother
      rw [PollState.registries_start_self, RunRegistry.entries_start]
      exact RunRegistry.length_trim _
    · rw [PollState.registries_start_ne s hother]
      exact h.length_le other
  · intro other
    by_cases hother : other = name
    · subst hother
      rw [PollState.registries_start_self]
      exact RunRegistry.written_flush _
    · rw [PollState.registries_start_ne s hother]
      exact h.written other

/-- The entries and the log change by what leaves the runs the same. -/
theorem change (h : Registered s) {f : RegistryId → RunEntry → RunEntry} {g : RunEntry → RunEntry}
    (hf : ∀ name, RunEntry.SameRun (f name)) (hg : RunEntry.SameRun g)
    (hlog : t.log = s.log.map fun p => (p.1, g p.2))
    (hentries : ∀ name, (t.registries name).entries = (s.registries name).entries.map (f name))
    (hwritten : ∀ name, (t.registries name).Written) : Registered t := by
  constructor
  · intro run p hp
    rw [hlog, List.getElem?_map, Option.map_eq_some_iff] at hp
    obtain ⟨q, hq, rfl⟩ := hp
    rw [hg.id_eq]
    exact h.id_eq run q hq
  · intro name e he
    rw [hentries] at he
    obtain ⟨a, ha, rfl⟩ := List.mem_map.1 he
    rw [(hf name).id_eq, hlog, List.length_map]
    exact h.id_lt name a ha
  · intro name
    rw [hentries, List.pairwise_map]
    apply (h.sorted name).imp
    intro a b hab
    rw [(hf name).id_eq, (hf name).id_eq]
    exact hab
  · intro name
    rw [hentries, List.length_map]
    exact h.length_le name
  · exact hwritten

end Registered

/-! ## What a loop finds of its runs -/

/-- The loop's runs are in the registry `name`, all of them that count. -/
structure RunsVisible (rc : RepoConfig) (l : PollLoop) (name : RegistryId) (s : PollState) : Prop where
  own : ∀ p ∈ s.log, p.2.isOf l.label rc.repoId = true → p.1 = name
  keeps : Keeps RunEntry.isRunning RunEntry.isOk (s.runsOf l.label rc.repoId)
    ((s.registries name).entries.filter (RunEntry.isOf l.label rc.repoId))

variable {w : PollWorker} {rc : RepoConfig} {l : PollLoop} {name : RegistryId} {s t : PollState}

theorem kept_fresh : RunsVisible rc l name .fresh where
  own _ hp := absurd hp List.not_mem_nil
  keeps := Keeps.refl []

theorem filter_map_sameRun {f : RunEntry → RunEntry} (hf : RunEntry.SameRun f) (kind repoId : String)
    (es : List RunEntry) :
    (es.map f).filter (RunEntry.isOf kind repoId) = (es.filter (RunEntry.isOf kind repoId)).map f := by
  rw [List.filter_map]
  congr 2
  funext e
  exact hf.isOf_eq kind repoId e

/-- The log and the registry undergo the same change, and only in runs that are still running. -/
theorem RunsVisible.change (h : RunsVisible rc l name s) {f : RunEntry → RunEntry} (hf : RunEntry.SameRun f)
    (hlog : t.log = s.log.map fun p => (p.1, f p.2))
    (hentries : (t.registries name).entries.filter (RunEntry.isOf l.label rc.repoId) =
      ((s.registries name).entries.filter (RunEntry.isOf l.label rc.repoId)).map f)
    (hrunning : ∀ p ∈ s.log, p.2.isRunning = false → f p.2 = p.2) : RunsVisible rc l name t := by
  constructor
  · intro p hp hmine
    rw [hlog] at hp
    obtain ⟨q, hq, rfl⟩ := List.mem_map.1 hp
    rw [hf.isOf_eq] at hmine
    exact h.own q hq hmine
  · have hruns : t.runsOf l.label rc.repoId = (s.runsOf l.label rc.repoId).map f := by
      rw [PollState.runsOf, hlog, List.map_map, PollState.runsOf, ← filter_map_sameRun hf, List.map_map]
      rfl
    rw [hruns, hentries]
    apply h.keeps.map
    · intro e he
      obtain ⟨p, hp, rfl⟩ := List.mem_map.1 (List.mem_of_mem_filter he)
      exact hrunning p hp
    · intro e
      exact RunEntry.isRunning_eq_false_of_isOk

theorem RunsVisible.start (h : RunsVisible rc l name s) {who : Recorder} {now : Rat} {other : RegistryId}
    (hwho : who.registry w = some other) (hkept : RunsKept w rc l name s (.start who now)) :
    RunsVisible rc l name (s.start other who.kind who.repoId now) := by
  obtain ⟨hown, hroom⟩ := hkept
  have hmine : ∀ {e : RunEntry}, e = RunRegistry.newEntry s.log.length who.kind who.repoId now →
      e.isOf l.label rc.repoId = true → other = name := by
    rintro e rfl he
    rw [RunEntry.isOf, Bool.and_eq_true, decide_eq_true_iff, decide_eq_true_iff] at he
    have hname := hown he.1 he.2
    rw [hwho] at hname
    exact Option.some.inj hname
  constructor
  · intro p hp he
    obtain hp | hp := List.mem_append.1 hp
    · exact h.own p hp he
    · obtain rfl := List.mem_singleton.1 hp
      exact hmine rfl he
  · have hruns : (s.start other who.kind who.repoId now).runsOf l.label rc.repoId = s.runsOf l.label rc.repoId ++
        [RunRegistry.newEntry s.log.length who.kind who.repoId now].filter (RunEntry.isOf l.label rc.repoId) := by
      rw [PollState.runsOf, PollState.start, List.map_append, List.filter_append]
      rfl
    rw [hruns]
    by_cases hother : other = name
    · subst hother
      obtain ⟨hopen, hok⟩ := hroom hwho
      rw [PollState.registries_start_self, RunRegistry.entries_start]
      -- first the new run is appended, then the overflow is shed
      have hlong := RunRegistry.overflow_append_trim
        ((s.registries other).entries ++ [RunRegistry.newEntry s.log.length who.kind who.repoId now])
      have happended : Keeps RunEntry.isRunning RunEntry.isOk (s.runsOf l.label rc.repoId ++
          [RunRegistry.newEntry s.log.length who.kind who.repoId now].filter (RunEntry.isOf l.label rc.repoId))
          (((s.registries other).entries ++ [RunRegistry.newEntry s.log.length who.kind who.repoId now]).filter
            (RunEntry.isOf l.label rc.repoId)) := by
        rw [List.filter_append]
        cases hnew : (RunRegistry.newEntry s.log.length who.kind who.repoId now).isOf l.label rc.repoId with
        | true =>
            rw [List.filter_cons_of_pos hnew]
            exact h.keeps.snoc _
        | false =>
            rw [List.filter_cons_of_neg (by rw [hnew]; decide), List.filter_nil, List.append_nil, List.append_nil]
            exact h.keeps
      rw [← hlong, List.filter_append] at happended
      apply happended.shed
      · intro e he
        exact hopen e (List.mem_of_mem_filter he) (List.of_mem_filter he)
      · rintro ⟨e, he, hgood⟩
        obtain ⟨b, hb, hbmine, hbok⟩ := hok ⟨e, List.mem_of_mem_filter he, List.of_mem_filter he, hgood⟩
        exact ⟨b, List.mem_filter.2 ⟨hb, hbmine⟩, hbok⟩
    · rw [PollState.registries_start_ne s (Ne.symm hother)]
      have hnew : ¬ (RunRegistry.newEntry s.log.length who.kind who.repoId now).isOf l.label rc.repoId = true :=
        fun hmineNew => hother (hmine rfl hmineNew)
      rw [List.filter_cons_of_neg hnew, List.filter_nil, List.append_nil]
      exact h.keeps

theorem Registered.finish (h : Registered s) {run : Nat} {f : RunEntry → RunEntry} (hf : RunEntry.SameRun f)
    (hs : s.finish run f = some t) : Registered t := by
  obtain ⟨other, e, -, -, hregistries, hlog⟩ := PollState.finish_cases hs
  refine h.change (f := fun name => if name = other then RunEntry.onRun run f else id) ?_ (hf.onRun run) hlog ?_ ?_
  · intro name
    split
    · exact hf.onRun run
    · exact ⟨fun _ => rfl, fun _ => rfl, fun _ _ _ => rfl⟩
  · intro name
    rw [hregistries]
    by_cases hname : name = other
    · subst hname
      rw [Function.update_self, if_pos rfl, RunRegistry.entries_finish (h.sorted name) (h.length_le name)]
    · rw [Function.update_of_ne hname, if_neg hname, List.map_id]
  · intro name
    rw [hregistries]
    by_cases hname : name = other
    · subst hname
      rw [Function.update_self]
      exact RunRegistry.written_flush _
    · rw [Function.update_of_ne hname]
      exact h.written name

theorem RunsVisible.finish (h : RunsVisible rc l name s) (hreg : Registered s) {run : Nat} {f : RunEntry → RunEntry}
    (hf : RunEntry.SameRun f) (hs : s.finish run f = some t) : RunsVisible rc l name t := by
  obtain ⟨other, e, hrun, hrunning, hregistries, hlog⟩ := PollState.finish_cases hs
  -- the run that is finished is the only one with its id
  have honly : ∀ p ∈ s.log, p.2.id = run → p = (other, e) := by
    intro p hp hid
    obtain ⟨i, hi⟩ := List.mem_iff_getElem?.1 hp
    have hirun : i = run := (hreg.id_eq i p hi).symm.trans hid
    rw [hirun, hrun] at hi
    exact (Option.some.inj hi).symm
  apply h.change (hf.onRun run) hlog
  · rw [hregistries]
    by_cases hname : name = other
    · subst hname
      rw [Function.update_self, RunRegistry.entries_finish (hreg.sorted name) (hreg.length_le name),
        filter_map_sameRun (hf.onRun run)]
    · rw [Function.update_of_ne hname]
      -- none of the loop's runs has the id, since all of them are in its registry
      refine (List.map_id _).symm.trans (List.map_congr_left fun a ha => ?_)
      rw [RunEntry.onRun, if_neg]
      · rfl
      · intro hid
        obtain ⟨lost, hfull, -, -⟩ := h.keeps
        have hmem : a ∈ s.runsOf l.label rc.repoId := by
          rw [hfull]
          exact List.mem_append_right lost ha
        obtain ⟨p, hp, rfl⟩ := List.mem_map.1 (List.mem_of_mem_filter hmem)
        have hpname := h.own p hp (List.of_mem_filter hmem)
        rw [honly p hp hid] at hpname
        exact hname hpname.symm
  · intro p hp hclosed
    rw [RunEntry.onRun, if_neg]
    intro hid
    rw [honly p hp hid, hrunning] at hclosed
    cases hclosed

theorem Registered.restart (h : Registered s) (now : Rat) : Registered (s.restart now) := by
  refine h.change (f := fun _ => RunEntry.reconcile now) ?_ (RunEntry.sameRun_reconcile now) rfl ?_ ?_
  · intro _
    exact RunEntry.sameRun_reconcile now
  · intro name
    exact RunRegistry.entries_load (h.written name) (h.length_le name) now
  · intro name
    exact RunRegistry.written_load (h.written name) now

theorem RunsVisible.restart (h : RunsVisible rc l name s) (hreg : Registered s) (now : Rat) : RunsVisible rc l name (s.restart now) := by
  apply h.change (RunEntry.sameRun_reconcile now) rfl
  · show ((RunRegistry.load (s.registries name).file now).entries).filter _ = _
    rw [RunRegistry.entries_load (hreg.written name) (hreg.length_le name),
      filter_map_sameRun (RunEntry.sameRun_reconcile now)]
  · intro p _ hclosed
    exact RunEntry.reconcile_of_not_running hclosed now

/-- Every event leaves the registries in order. -/
theorem Registered.step {ev : PollEvent} (h : Registered s) (hs : PollState.Step w s ev t) : Registered t := by
  cases ev with
  | start who now =>
      rw [PollState.Step, PollState.apply] at hs
      split at hs
      · obtain rfl := Option.some.inj hs
        exact h
      · obtain rfl := Option.some.inj hs
        exact h.start _ _ _ _
  | finishOk run summary now => exact h.finish (RunEntry.sameRun_finishOk now summary) hs
  | finishError run error now => exact h.finish (RunEntry.sameRun_finishError now error) hs
  | restart now =>
      obtain rfl := Option.some.inj hs
      exact h.restart now

/-- **The step lemma.** An event that meets the condition loses nothing that the loop counts on. -/
theorem RunsVisible.step {ev : PollEvent} (h : RunsVisible rc l name s) (hreg : Registered s)
    (hkept : RunsKept w rc l name s ev) (hs : PollState.Step w s ev t) : RunsVisible rc l name t := by
  cases ev with
  | start who now =>
      rw [PollState.Step, PollState.apply] at hs
      split at hs
      · obtain rfl := Option.some.inj hs
        exact h
      · rename_i other hwho
        obtain rfl := Option.some.inj hs
        exact h.start hwho hkept
  | finishOk run summary now => exact h.finish hreg (RunEntry.sameRun_finishOk now summary) hs
  | finishError run error now => exact h.finish hreg (RunEntry.sameRun_finishError now error) hs
  | restart now =>
      obtain rfl := Option.some.inj hs
      exact h.restart hreg now

/-- What the loop finds in its registry is the last of its runs that finished ok. -/
theorem RunsVisible.mostRecent (h : RunsVisible rc l name s) :
    (s.registries name).mostRecent l.label (some rc.repoId) = s.lastOk l.label rc.repoId := by
  rw [RunRegistry.mostRecent_eq, PollState.lastOk, h.keeps.newest_eq]

theorem RunsVisible.waits (h : RunsVisible rc l name s) (hname : w.registryFor (some rc) = some name) (md5 : String → Nat) :
    Waits md5 w s rc l := by
  intro run now jitter hrun hearly
  rw [← h.mostRecent] at hrun
  have hdelay : initialDelay md5 now jitter l.label l.interval rc.repoId (some (s.registries name))
      (w.runRegistry.map s.registries) = run.startedAt + l.interval - now + (kindStagger md5 l.label l.interval + jitter.1) :=
    initialDelay_some rc.repoId_ne hrun hearly
  have hstagger : (0 : Rat) ≤ (kindStagger md5 l.label l.interval : Rat) :=
    Int.cast_nonneg (kindStagger_nonneg md5 l.label l.interval)
  rw [firstPass, PollLoop.readsFrom_eq, hname, Option.map_some, hdelay]
  linarith [jitter.2.1]

theorem RunsVisible.prompt_iff (h : RunsVisible rc l name s) (hname : w.registryFor (some rc) = some name) (md5 : String → Nat)
    (hnever : s.lastOk l.label rc.repoId = none) (jitter : Jitter) :
    Prompt md5 w s rc l jitter ↔ 1 + (kindStagger md5 l.label l.interval + jitter.1) < (l.interval : Rat) := by
  have hnone := h.mostRecent.trans hnever
  have hfirst : ∀ now, firstPass md5 w s rc l now jitter =
      now + (1 + (kindStagger md5 l.label l.interval + jitter.1)) := by
    intro now
    rw [firstPass, PollLoop.readsFrom_eq, hname, Option.map_some, initialDelay_none rc.repoId_ne hnone]
  constructor
  · intro hprompt
    have hzero := hprompt 0 hnever
    rw [hfirst] at hzero
    linarith
  · intro hshort now _
    rw [hfirst]
    linarith

/-- **The cadence survives restarts**, over runs that keep what the loop counts on: no loop fires before its
    interval is over; and a loop that never finished ok waits less than its interval exactly if the interval is
    longer than its stagger. -/
theorem cadence_survives (md5 : String → Nat) {events : List PollEvent}
    (hname : w.registryFor (some rc) = some name)
    (hrun : Lib.Run (Lib.Guarded (RunsKept w rc l name) (PollState.Step w)) .fresh events s) :
    Waits md5 w s rc l ∧
      (s.lastOk l.label rc.repoId = none → ∀ jitter,
        (Prompt md5 w s rc l jitter ↔ 1 + (kindStagger md5 l.label l.interval + jitter.1) < (l.interval : Rat))) := by
  have hkept : Registered s ∧ RunsVisible rc l name s := by
    refine hrun.invariant (I := fun s => Registered s ∧ RunsVisible rc l name s) ?_ ⟨registered_fresh, kept_fresh⟩
    intro s ev t hs hstep
    exact ⟨hs.1.step hstep.2, hs.2.step hs.1 hstep.1 hstep.2⟩
  exact ⟨hkept.2.waits hname md5, fun hnever jitter => hkept.2.prompt_iff hname md5 hnever jitter⟩

/-! ## Two workers at work -/

/-- The lead repository, and another one. -/
def millRepo : RepoConfig := ⟨"mill", "mill", by decide, by decide⟩

def llmioRepo : RepoConfig := ⟨"llmio", "llmio", by decide, by decide⟩

def twoRepoWorker : PollWorker := lifespanWorker [millRepo, llmioRepo] "mill"

/-- A daily bespoke agent. -/
def dailyBespoke : PollLoop := .bespoke "deps" 86400

/-- The md5 of its label. -/
def md5OfDeps : String → Nat := fun _ => 216880789219454989135279641287637933460

/-- The agent runs once on a repository, and the worker restarts. -/
def oneBespokeRun (rc : RepoConfig) : List PollEvent :=
  [.start (.loop dailyBespoke rc) 0, .finishOk 0 "Created 0 drafts" 10, .restart 100]

/-- What is left of it. -/
def afterOneRun (rc : RepoConfig) : PollState :=
  ((((PollState.fresh.start "mill" dailyBespoke.label rc.repoId 0).finish 0
    (RunEntry.finishOk 10 "Created 0 drafts")).getD .fresh).restart 100)

theorem run_oneBespokeRun (rc : RepoConfig) :
    Lib.Run (PollState.Step twoRepoWorker) .fresh (oneBespokeRun rc) (afterOneRun rc) := by
  refine .cons (t := PollState.fresh.start "mill" dailyBespoke.label rc.repoId 0) rfl ?_
  refine .cons (t := ((PollState.fresh.start "mill" dailyBespoke.label rc.repoId 0).finish 0
    (RunEntry.finishOk 10 "Created 0 drafts")).getD .fresh) rfl ?_
  exact .cons rfl (.nil _)

theorem bespoke_on_lead : Waits md5OfDeps twoRepoWorker (afterOneRun millRepo) millRepo dailyBespoke ∧
    ((afterOneRun millRepo).lastOk dailyBespoke.label "mill" = none → ∀ jitter,
      (Prompt md5OfDeps twoRepoWorker (afterOneRun millRepo) millRepo dailyBespoke jitter ↔
        1 + (kindStagger md5OfDeps dailyBespoke.label dailyBespoke.interval + jitter.1) <
          (dailyBespoke.interval : Rat))) := by
  have hname : twoRepoWorker.registryFor (some millRepo) = some "mill" := by decide
  apply cadence_survives md5OfDeps hname
  show Lib.Run _ _ (oneBespokeRun millRepo) (afterOneRun millRepo)
  refine .cons ⟨runsKept_of_room (fun _ _ => rfl) (by decide), rfl⟩ ?_
  refine .cons (t := ((PollState.fresh.start "mill" dailyBespoke.label "mill" 0).finish 0
    (RunEntry.finishOk 10 "Created 0 drafts")).getD .fresh) ⟨trivial, rfl⟩ ?_
  exact .cons ⟨trivial, rfl⟩ (.nil _)

theorem bespoke_refires : ¬ ∀ (md5 : String → Nat) (repos : List RepoConfig) (lead : RepoConfig) (rc : RepoConfig)
    (l : PollLoop) (events : List PollEvent) (s : PollState), lead ∈ repos → rc ∈ repos →
    Lib.Run (PollState.Step (lifespanWorker repos lead.boardId)) .fresh events s →
    Waits md5 (lifespanWorker repos lead.boardId) s rc l ∧
      ∀ jitter, Prompt md5 (lifespanWorker repos lead.boardId) s rc l jitter := by
  intro h
  have hwaits := (h md5OfDeps [millRepo, llmioRepo] millRepo llmioRepo dailyBespoke _ _ (by simp) (by simp)
    (run_oneBespokeRun llmioRepo)).1
  have hlast : (afterOneRun llmioRepo).lastOk dailyBespoke.label "llmio" =
      some ((RunRegistry.newEntry 0 dailyBespoke.label "llmio" 0).finishOk 10 "Created 0 drafts") := by decide
  have hnone : ((afterOneRun llmioRepo).registries "llmio").mostRecent dailyBespoke.label (some "llmio") = none := by
    decide
  have hinterval : dailyBespoke.interval = 86400 := by decide
  have hlate := hwaits _ 100 ⟨0, by decide, by decide⟩ hlast
    (by show (100 : Rat) < 0 + (dailyBespoke.interval : Rat); rw [hinterval]; norm_num)
  have hfirst : firstPass md5OfDeps twoRepoWorker (afterOneRun llmioRepo) llmioRepo dailyBespoke 100
      ⟨0, by decide, by decide⟩ = 1161 := by
    have hstagger : kindStagger md5OfDeps dailyBespoke.label dailyBespoke.interval = 1060 := by decide
    rw [firstPass, PollLoop.readsFrom_eq]
    show 100 + initialDelay _ _ _ _ _ "llmio" (some ((afterOneRun llmioRepo).registries "llmio")) _ = 1161
    rw [initialDelay_none (by decide) hnone, hstagger]
    norm_num
  have hearly : ((0 : Rat) + (dailyBespoke.interval : Rat)) ≤ 1161 := hfirst ▸ hlate
  rw [hinterval] at hearly
  norm_num at hearly

end Runtime
end RobotsixMill
