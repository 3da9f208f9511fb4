import RobotsixMill.Agents.ResolutionFailures
import RobotsixMill.Lib.Fleet
import RobotsixMill.Lib.PyText

/-!
# `Runtime.PeriodicSupervisor` — the loops a repository asks for

A repository ships files that ask for periodic loops. Cycle after cycle its supervisor reads them, starts the loops
that are new, stops those whose file is gone, restarts those whose file changed, and asks for a ticket about a file
that keeps failing to resolve. It also watches the manifest of the workspace, and has the members synchronised when
that changes.

What a file resolves to and the digest of the manifest are what a cycle is given.

- `runCycle`, `supervisorAfter` — one cycle, and the supervisor after any of them and any restarts;
- `desired_iff` — what a cycle wants;
- `live_loops` — after a cycle there is one task for each loop that is wanted, and no other;
- `loop_lives_iff` — a task is left alone just as long as its loop is wanted as it is;
- `failures_reported` — the tickets a cycle asks for;
- `sync_fires_iff` — when the members are synchronised.
-/

namespace RobotsixMill
namespace Runtime
namespace PeriodicSupervisor
open Lib Agents.ResolutionFailures

variable {δ : Type*}

/-! ## What the files ask for -/

inductive PeriodicKind
  | llmAgent
  | scheduleOnly
  | millOnly
  | bespoke
  deriving DecidableEq

structure ResolvedPeriodicWorkflow (δ : Type*) where
  name : String
  kind : PeriodicKind
  definition : Option δ
  intervalSeconds : Option Int
  enabled : Bool
  deriving DecidableEq

structure BespokeAgentDefinition where
  name : String
  description : String
  intervalSeconds : Int
  level : Int
  webKnowledge : Bool
  systemPrompt : String
  deriving DecidableEq

/-- What a file resolves to. -/
inductive PeriodicFile (δ : Type*)
  | resolved (wf : ResolvedPeriodicWorkflow δ)
  | failed (reason : String)
  | skipped
  | raises

inductive BespokeFile
  | valid (definition : BespokeAgentDefinition)
  | skipped
  | raises

/-- What `discover_periodic_workflows` has found. -/
structure Discovered (δ : Type*) where
  workflows : List (ResolvedPeriodicWorkflow δ) := []
  seen : List String := []
  failures : List PeriodicResolutionFailure := []

def discoverFile (σ : Discovered δ) (file : String × PeriodicFile δ) : Option (Discovered δ) :=
  match file.2 with
  | .raises => none
  | .failed reason => some { σ with failures := σ.failures ++ [{ path := file.1, reason }] }
  | .skipped => some σ
  | .resolved wf =>
      if wf.name ∈ σ.seen then some σ
      else some { σ with workflows := σ.workflows ++ [wf], seen := σ.seen ++ [wf.name] }

/-- The files come in the order of their paths. -/
def discoverPeriodicWorkflows (files : List (String × PeriodicFile δ)) : Option (Discovered δ) :=
  files.foldlM discoverFile {}

structure LoadedBespoke where
  definitions : List BespokeAgentDefinition := []
  seenNames : List String := []

def loadBespokeFile (σ : LoadedBespoke) (file : BespokeFile) : Option LoadedBespoke :=
  match file with
  | .raises => none
  | .skipped => some σ
  | .valid d =>
      if d.name ∈ σ.seenNames then some σ
      else some { definitions := σ.definitions ++ [d], seenNames := σ.seenNames ++ [d.name] }

def loadBespokeDefinitions (files : List BespokeFile) : Option (List BespokeAgentDefinition) :=
  (files.foldlM loadBespokeFile {}).map LoadedBespoke.definitions

/-! ## The supervisor -/

structure SupervisorSettings where
  bespokeDiscoveryIntervalSeconds : Int
  memberSyncIntervalSeconds : Int
  /-- `getattr(settings, f"\x7bname\x7d_interval_seconds", 0)`. -/
  agentIntervalSeconds : String → Int

/-- What a task was spawned for; the comparison object of a key. -/
inductive Loop (δ : Type*)
  | workflow (wf : ResolvedPeriodicWorkflow δ)
  | bespoke (d : BespokeAgentDefinition)
  deriving DecidableEq

def Loop.key : Loop δ → String
  | .workflow wf => "periodic:" ++ wf.name
  | .bespoke d => "bespoke:" ++ d.name

/-- A digest in hexadecimal. -/
structure Digest where
  text : String
  text_ne : text ≠ ""
  strip_text : strip text = text

/-- What one cycle finds: the digest of `repos.yaml`, if that can be read, whether a digest can be saved, whether the
    clone is the mill's own, and the files. -/
structure Cycle (δ : Type*) where
  manifest : Option Digest
  saves : Bool
  isMill : Bool
  periodicFiles : List (String × PeriodicFile δ)
  bespokeFiles : List BespokeFile

structure Supervisor (δ : Type*) where
  fleet : Fleet String (Loop δ) := {}
  tracker : Tracker := {}
  /-- What `member_sync_repos_hash` holds. -/
  storedHash : String := ""
  /-- The manifests for which the members were synchronised. -/
  fired : List String := []
  /-- The failures a ticket was asked for. -/
  filings : List PeriodicResolutionFailure := []
  log : List LogLine := []

def hashReposYaml (c : Cycle δ) : String := (c.manifest.map Digest.text).getD ""

/-- The members are synchronised when the manifest changed. A pass that fails is logged where it runs, so that the
    digest is saved either way. -/
def memberSyncTrigger (S : SupervisorSettings) (c : Cycle δ) (σ : Supervisor δ) : Supervisor δ :=
  if 0 < S.memberSyncIntervalSeconds ∧ hashReposYaml c ≠ "" ∧ hashReposYaml c ≠ strip σ.storedHash then
    { σ with
      fired := σ.fired ++ [hashReposYaml c]
      storedHash := if c.saves then hashReposYaml c else σ.storedHash }
  else σ

/-- Is a loop to run for a workflow that was found? -/
def wantsWorkflow (S : SupervisorSettings) (isMill : Bool) (wf : ResolvedPeriodicWorkflow δ) : Bool :=
  if !wf.enabled then false
  else if wf.kind = .millOnly ∧ !isMill then false
  else match wf.kind with
    | .llmAgent | .scheduleOnly | .millOnly => decide (0 < S.agentIntervalSeconds wf.name)
    | .bespoke => false

/-- The older definitions, which have a switch of their own. -/
def bespokeOf (S : SupervisorSettings) (c : Cycle δ) : Option (List BespokeAgentDefinition) :=
  if 0 < S.bespokeDiscoveryIntervalSeconds then loadBespokeDefinitions c.bespokeFiles else some []

/-- The loops a cycle wants, in the order in which it comes across them. -/
def wantedLoops (S : SupervisorSettings) (c : Cycle δ) (found : Discovered δ) (bespoke : List BespokeAgentDefinition) :
    List (Loop δ) :=
  (found.workflows.filter (wantsWorkflow S c.isMill)).map Loop.workflow ++ bespoke.map Loop.bespoke

def desired (S : SupervisorSettings) (c : Cycle δ) (found : Discovered δ) (bespoke : List BespokeAgentDefinition) :
    Table String (Loop δ) :=
  Table.ofPairs ((wantedLoops S c found bespoke).map fun l => (l.key, l))

def resolutionFailureTicketThreshold : Int := 3

section Supervise
variable [DecidableEq δ] (S : SupervisorSettings)

/-- One cycle. An exception ends it where it comes up, and the next cycle goes on from there. -/
def runCycle (σ : Supervisor δ) (c : Cycle δ) : Supervisor δ :=
  let σ := memberSyncTrigger S c σ
  match discoverPeriodicWorkflows c.periodicFiles with
  | none => σ
  | some found =>
      let seen := observe resolutionFailureTicketThreshold σ.tracker found.failures
      let σ := { σ with
        tracker := seen.tracker
        filings := σ.filings ++ seen.toReport
        log := σ.log ++ seen.log }
      match bespokeOf S c with
      | none => σ
      | some bespoke => { σ with fleet := Fleet.reconcile (desired S c found bespoke) σ.fleet }

/-- A cycle, or a restart of the worker: the supervisor stops its loops, and the next one starts from scratch. -/
inductive Step (δ : Type*)
  | cycle (c : Cycle δ)
  | restart

def runStep (σ : Supervisor δ) : Step δ → Supervisor δ
  | .cycle c => runCycle S σ c
  | .restart => { σ with fleet := σ.fleet.cancelAll, tracker := {} }

def supervisorAfter (steps : List (Step δ)) : Supervisor δ := steps.foldl (runStep S) {}

end Supervise

/-! ## A repository with one workflow and a file that does not resolve -/

def everyHour : SupervisorSettings where
  bespokeDiscoveryIntervalSeconds := 3600
  memberSyncIntervalSeconds := 3600
  agentIntervalSeconds := fun _ => 3600

def auditWorkflow : ResolvedPeriodicWorkflow Unit where
  name := "audit"
  kind := .llmAgent
  definition := some ()
  intervalSeconds := none
  enabled := true

def leftoverFailure : PeriodicResolutionFailure where
  path := "periodic/old.yaml"
  reason := "schema error"

def auditCycle : Cycle Unit where
  manifest := some { text := "9f86d0", text_ne := by decide, strip_text := by decide }
  saves := true
  isMill := false
  periodicFiles := [("periodic/audit.yaml", .resolved auditWorkflow), (leftoverFailure.path, .failed leftoverFailure.reason)]
  bespokeFiles := []

/-! ## What a cycle wants -/

theorem workflows_of_discoverFile {σ σ' : Discovered δ} {file : String × PeriodicFile δ}
    (h : discoverFile σ file = some σ') (hseen : σ.seen = σ.workflows.map ResolvedPeriodicWorkflow.name)
    (hnd : σ.seen.Nodup) : σ'.seen = σ'.workflows.map ResolvedPeriodicWorkflow.name ∧ σ'.seen.Nodup := by
  unfold discoverFile at h
  split at h
  case h_1 => cases h
  case h_2 =>
    obtain rfl := Option.some.inj h
    exact ⟨hseen, hnd⟩
  case h_3 =>
    obtain rfl := Option.some.inj h
    exact ⟨hseen, hnd⟩
  case h_4 wf _ =>
    split at h
    case isTrue =>
      obtain rfl := Option.some.inj h
      exact ⟨hseen, hnd⟩
    case isFalse hnew =>
      obtain rfl := Option.some.inj h
      refine ⟨?_, ?_⟩
      · rw [List.map_append, ← hseen]
        rfl
      · change (σ.seen ++ [wf.name]).Nodup
        rw [← List.concat_eq_append]
        exact hnd.concat hnew

theorem definitions_of_loadBespokeFile {σ σ' : LoadedBespoke} {file : BespokeFile}
    (h : loadBespokeFile σ file = some σ') (hseen : σ.seenNames = σ.definitions.map BespokeAgentDefinition.name)
    (hnd : σ.seenNames.Nodup) :
    σ'.seenNames = σ'.definitions.map BespokeAgentDefinition.name ∧ σ'.seenNames.Nodup := by
  unfold loadBespokeFile at h
  split at h
  case h_1 => cases h
  case h_2 =>
    obtain rfl := Option.some.inj h
    exact ⟨hseen, hnd⟩
  case h_3 d =>
    split at h
    case isTrue =>
      obtain rfl := Option.some.inj h
      exact ⟨hseen, hnd⟩
    case isFalse hnew =>
      obtain rfl := Option.some.inj h
      refine ⟨?_, ?_⟩
      · rw [List.map_append, ← hseen]
        rfl
      · change (σ.seenNames ++ [d.name]).Nodup
        rw [← List.concat_eq_append]
        exact hnd.concat hnew

/-- What each file keeps, a loop over files that may raise keeps. -/
theorem foldlM_keeps {σ β : Type*} {step : σ → β → Option σ} {P : σ → Prop}
    (hstep : ∀ s b t, step s b = some t → P s → P t) {files : List β} {s t : σ} (h : files.foldlM step s = some t)
    (hs : P s) : P t := by
  induction files generalizing s with
  | nil =>
      obtain rfl := Option.some.inj h
      exact hs
  | cons file files ih =>
      rw [List.foldlM_cons] at h
      obtain ⟨u, hu, hrest⟩ := Option.bind_eq_some_iff.1 h
      exact ih hrest (hstep s file u hu hs)

/-- A name is found once. -/
theorem nodup_workflows {files : List (String × PeriodicFile δ)} {found : Discovered δ}
    (h : discoverPeriodicWorkflows files = some found) :
    (found.workflows.map ResolvedPeriodicWorkflow.name).Nodup := by
  have hkept := foldlM_keeps (P := fun σ : Discovered δ =>
      σ.seen = σ.workflows.map ResolvedPeriodicWorkflow.name ∧ σ.seen.Nodup)
    (fun _ _ _ hfile hσ => workflows_of_discoverFile hfile hσ.1 hσ.2) h ⟨rfl, List.nodup_nil⟩
  rw [← hkept.1]
  exact hkept.2

theorem nodup_bespoke {S : SupervisorSettings} {c : Cycle δ} {bespoke : List BespokeAgentDefinition}
    (h : bespokeOf S c = some bespoke) : (bespoke.map BespokeAgentDefinition.name).Nodup := by
  unfold bespokeOf at h
  split at h
  case isFalse =>
    obtain rfl := Option.some.inj h
    exact List.nodup_nil
  case isTrue =>
    obtain ⟨loaded, hload, rfl⟩ := Option.map_eq_some_iff.1 h
    have hkept := foldlM_keeps (P := fun σ : LoadedBespoke =>
        σ.seenNames = σ.definitions.map BespokeAgentDefinition.name ∧ σ.seenNames.Nodup)
      (fun _ _ _ hfile hσ => definitions_of_loadBespokeFile hfile hσ.1 hσ.2) hload ⟨rfl, List.nodup_nil⟩
    rw [← hkept.1]
    exact hkept.2

theorem append_injective (p : String) : Function.Injective fun s : String => p ++ s := by
  intro a b hab
  have htext := congrArg String.toList hab
  rw [String.toList_append, String.toList_append] at htext
  exact String.toList_inj.1 (List.append_cancel_left htext)

theorem periodic_ne_bespoke (a b : String) : "periodic:" ++ a ≠ "bespoke:" ++ b := by
  intro hab
  have htext := congrArg (fun s => s.toList.head?) hab
  rw [String.toList_append, String.toList_append] at htext
  exact absurd (Option.some.inj htext) (by decide)

theorem nodup_keys {S : SupervisorSettings} {c : Cycle δ} {found : Discovered δ}
    {bespoke : List BespokeAgentDefinition} (hfound : discoverPeriodicWorkflows c.periodicFiles = some found)
    (hbespoke : bespokeOf S c = some bespoke) : ((wantedLoops S c found bespoke).map Loop.key).Nodup := by
  unfold wantedLoops
  rw [List.map_append, List.map_map, List.map_map, List.nodup_append]
  refine ⟨?_, ?_, ?_⟩
  · have hnames := (nodup_workflows hfound).sublist
      ((List.filter_sublist (p := wantsWorkflow S c.isMill)).map ResolvedPeriodicWorkflow.name)
    have hkeys := hnames.map (append_injective "periodic:")
    rwa [List.map_map] at hkeys
  · have hkeys := (nodup_bespoke hbespoke).map (append_injective "bespoke:")
    rwa [List.map_map] at hkeys
  · intro k hk k' hk' heq
    obtain ⟨wf, -, rfl⟩ := List.mem_map.1 hk
    obtain ⟨d, -, rfl⟩ := List.mem_map.1 hk'
    exact periodic_ne_bespoke wf.name d.name heq

/-- **What a cycle wants**: under each key the one loop of that key. -/
theorem desired_iff {S : SupervisorSettings} {c : Cycle δ} {found : Discovered δ}
    {bespoke : List BespokeAgentDefinition} (hfound : discoverPeriodicWorkflows c.periodicFiles = some found)
    (hbespoke : bespokeOf S c = some bespoke) (k : String) (l : Loop δ) :
    (desired S c found bespoke).get k = some l ↔ l ∈ wantedLoops S c found bespoke ∧ l.key = k := by
  have hnd : (((wantedLoops S c found bespoke).map fun l => (l.key, l)).map Prod.fst).Nodup := by
    rw [List.map_map]
    exact nodup_keys hfound hbespoke
  unfold desired
  rw [Table.get_ofPairs_iff hnd, List.mem_map]
  constructor
  · rintro ⟨l', hl', heq⟩
    obtain ⟨hkey, rfl⟩ := Prod.mk.inj heq
    exact ⟨hl', hkey⟩
  · rintro ⟨hl, rfl⟩
    exact ⟨l, hl, rfl⟩

/-! ## The tasks -/

theorem memberSyncTrigger_keeps (S : SupervisorSettings) (c : Cycle δ) (σ : Supervisor δ) :
    (memberSyncTrigger S c σ).fleet = σ.fleet ∧ (memberSyncTrigger S c σ).tracker = σ.tracker ∧
      (memberSyncTrigger S c σ).filings = σ.filings ∧ (memberSyncTrigger S c σ).log = σ.log := by
  unfold memberSyncTrigger
  split <;> exact ⟨rfl, rfl, rfl, rfl⟩

section Tasks
variable [DecidableEq δ] {S : SupervisorSettings} {σ : Supervisor δ} {c : Cycle δ}

theorem fleet_of_scanned {found : Discovered δ} {bespoke : List BespokeAgentDefinition}
    (hfound : discoverPeriodicWorkflows c.periodicFiles = some found) (hbespoke : bespokeOf S c = some bespoke) :
    (runCycle S σ c).fleet = Fleet.reconcile (desired S c found bespoke) σ.fleet := by
  unfold runCycle
  rw [hfound, hbespoke]
  exact congrArg (Fleet.reconcile _) (memberSyncTrigger_keeps S c σ).1

/-- A cycle that an exception ends leaves the tasks alone. -/
theorem fleet_of_raised (h : discoverPeriodicWorkflows c.periodicFiles = none ∨ bespokeOf S c = none) :
    (runCycle S σ c).fleet = σ.fleet := by
  have hkeeps := (memberSyncTrigger_keeps S c σ).1
  unfold runCycle
  split
  case h_1 => exact hkeeps
  case h_2 hfound =>
    rw [hfound] at h
    rcases h with h | h
    · cases h
    · rw [h]
      exact hkeeps

omit [DecidableEq δ] in
/-- A cycle either takes stock of all the files or leaves the tasks alone. -/
theorem scanned_or_raised (S : SupervisorSettings) (c : Cycle δ) :
    (∃ found bespoke, discoverPeriodicWorkflows c.periodicFiles = some found ∧ bespokeOf S c = some bespoke) ∨
      (discoverPeriodicWorkflows c.periodicFiles = none ∨ bespokeOf S c = none) := by
  cases hfound : discoverPeriodicWorkflows c.periodicFiles with
  | none => exact .inr (.inl rfl)
  | some found =>
      cases hbespoke : bespokeOf S c with
      | none => exact .inr (.inr rfl)
      | some bespoke => exact .inl ⟨found, bespoke, rfl, rfl⟩

/-- **One step** keeps every task accounted for, and the past as it was. -/
theorem accounted_runStep (h : σ.fleet.Accounted) (step : Step δ) :
    (runStep S σ step).fleet.Accounted ∧ σ.fleet.Since (runStep S σ step).fleet := by
  cases step with
  | restart => exact ⟨h.cancelAll, .cancelAll σ.fleet⟩
  | cycle c =>
      rcases scanned_or_raised S c with ⟨found, bespoke, hfound, hbespoke⟩ | hraised
      · have hfleet : (runStep S σ (.cycle c)).fleet = Fleet.reconcile (desired S c found bespoke) σ.fleet :=
          fleet_of_scanned hfound hbespoke
        rw [hfleet]
        exact ⟨h.reconcile _, .reconcile _ _⟩
      · have hfleet : (runStep S σ (.cycle c)).fleet = σ.fleet := fleet_of_raised hraised
        rw [hfleet]
        exact ⟨h, .refl _⟩

theorem supervisorAfter_append (steps more : List (Step δ)) :
    supervisorAfter S (steps ++ more) = more.foldl (runStep S) (supervisorAfter S steps) := List.foldl_append

theorem accounted_supervisorAfter (S : SupervisorSettings) (steps : List (Step δ)) :
    (supervisorAfter S steps).fleet.Accounted := by
  induction steps using List.reverseRecOn with
  | nil => exact .empty
  | append_singleton steps step ih =>
      rw [supervisorAfter_append]
      exact (accounted_runStep ih step).1

theorem since_foldl (h : σ.fleet.Accounted) (more : List (Step δ)) :
    σ.fleet.Since (more.foldl (runStep S) σ).fleet := by
  induction more generalizing σ with
  | nil => exact .refl _
  | cons step more ih =>
      rw [List.foldl_cons]
      exact (accounted_runStep h step).2.trans (ih (accounted_runStep h step).1)

end Tasks

/-- The step has nothing against a task that was created for `l`, under `k`. -/
def Step.Keeps (S : SupervisorSettings) (k : String) (l : Loop δ) : Step δ → Prop
  | .restart => False
  | .cycle c => ∀ found bespoke, discoverPeriodicWorkflows c.periodicFiles = some found →
      bespokeOf S c = some bespoke → l ∈ wantedLoops S c found bespoke ∧ l.key = k

theorem running_runStep_iff [DecidableEq δ] {S : SupervisorSettings} {σ : Supervisor δ} {i : Nat} {k : String}
    {l : Loop δ} (hrun : σ.fleet.running.get k = some (i, l)) (step : Step δ) :
    (runStep S σ step).fleet.running.get k = some (i, l) ↔ step.Keeps S k l := by
  cases step with
  | restart =>
      have hnone : (runStep S σ .restart).fleet.running.get k = none := Fleet.get_cancelAll _ _
      rw [hnone]
      exact ⟨fun h => (nomatch h), fun h => h.elim⟩
  | cycle c =>
      rcases scanned_or_raised S c with ⟨found, bespoke, hfound, hbespoke⟩ | hraised
      · have hfleet : (runStep S σ (.cycle c)).fleet = Fleet.reconcile (desired S c found bespoke) σ.fleet :=
          fleet_of_scanned hfound hbespoke
        have hkeeps : Step.Keeps S k l (.cycle c) ↔ (desired S c found bespoke).get k = some l := by
          rw [desired_iff hfound hbespoke]
          constructor
          · exact fun h => h found bespoke hfound hbespoke
          · intro h found' bespoke' hfound' hbespoke'
            rw [hfound] at hfound'
            rw [hbespoke] at hbespoke'
            obtain rfl := Option.some.inj hfound'
            obtain rfl := Option.some.inj hbespoke'
            exact h
        rw [hfleet, hkeeps]
        constructor
        · intro hstill
          rw [← Fleet.reconcile_wanted _ σ.fleet, hstill]
          rfl
        · exact Fleet.reconcile_kept hrun
      · have hfleet : (runStep S σ (.cycle c)).fleet = σ.fleet := fleet_of_raised hraised
        rw [hfleet]
        refine ⟨fun _ found bespoke hfound hbespoke => ?_, fun _ => hrun⟩
        rcases hraised with hraised | hraised
        · rw [hraised] at hfound
          cases hfound
        · rw [hraised] at hbespoke
          cases hbespoke

/-- **How long a task lives.** A task that runs is not cancelled just as long as each cycle that takes stock of the files
    finds its loop as it was, and the worker is not restarted. -/
theorem loop_lives_iff [DecidableEq δ] (S : SupervisorSettings) (steps more : List (Step δ)) {i : Nat} {k : String}
    {l : Loop δ} (hlive : (supervisorAfter S steps).fleet.Live i k l) :
    i ∉ (supervisorAfter S (steps ++ more)).fleet.cancelled ↔ ∀ step ∈ more, step.Keeps S k l := by
  rw [supervisorAfter_append]
  have hacc := accounted_supervisorAfter S steps
  generalize supervisorAfter S steps = σ at hlive hacc
  induction more generalizing σ with
  | nil => exact ⟨fun _ _ hmem => absurd hmem List.not_mem_nil, fun _ => hlive.2⟩
  | cons step more ih =>
      obtain ⟨hacc', hsince⟩ := accounted_runStep (S := S) hacc step
      have hrun := (hacc.running_iff k i l).2 hlive
      have hstep := running_runStep_iff (S := S) hrun step
      rw [List.foldl_cons, List.forall_mem_cons]
      by_cases hkeeps : step.Keeps S k l
      · have hnext := (hacc'.running_iff k i l).1 (hstep.2 hkeeps)
        exact (ih _ hnext hacc').trans (and_iff_right hkeeps).symm
      · -- it is cancelled, and stays so
        have hgone : i ∈ (runStep S σ step).fleet.cancelled := by
          by_contra hnot
          exact hkeeps (hstep.1 ((hsince.running_iff hacc' hlive.1).2 hnot))
        refine ⟨fun hnot => absurd ((since_foldl hacc' more).cancelled hgone) hnot, fun hall => absurd hall.1 hkeeps⟩

theorem loop_lives_iff_restart :
    0 ∈ (supervisorAfter everyHour ([.cycle auditCycle] ++ [.cycle auditCycle, .restart])).fleet.cancelled := by
  have hlive : (supervisorAfter everyHour [.cycle auditCycle]).fleet.Live 0 "periodic:audit" (.workflow auditWorkflow) :=
    ⟨rfl, List.not_mem_nil⟩
  have hiff := loop_lives_iff everyHour [.cycle auditCycle] [.cycle auditCycle, .restart] hlive
  by_contra hnot
  exact hiff.1 hnot .restart (List.mem_cons_of_mem _ List.mem_cons_self)

/-! ## The tickets a cycle asks for -/

/-- What the cycles since the last restart that went through the periodic files found of failures. -/
def failuresSince (steps : List (Step δ)) : List (List PeriodicResolutionFailure) :=
  steps.foldl (fun seen step =>
    match step with
    | .restart => []
    | .cycle c =>
        match discoverPeriodicWorkflows c.periodicFiles with
        | none => seen
        | some found => seen ++ [found.failures]) []

section Reports
variable [DecidableEq δ] {S : SupervisorSettings}

theorem replies_of_discovered {σ : Supervisor δ} {c : Cycle δ} {found : Discovered δ}
    (hfound : discoverPeriodicWorkflows c.periodicFiles = some found) :
    (runCycle S σ c).tracker = (observe resolutionFailureTicketThreshold σ.tracker found.failures).tracker ∧
      (runCycle S σ c).filings =
        σ.filings ++ (observe resolutionFailureTicketThreshold σ.tracker found.failures).toReport ∧
      (runCycle S σ c).log = σ.log ++ (observe resolutionFailureTicketThreshold σ.tracker found.failures).log := by
  obtain ⟨-, htracker, hfilings, hlog⟩ := memberSyncTrigger_keeps S c σ
  unfold runCycle
  rw [hfound, ← htracker, ← hfilings, ← hlog]
  cases bespokeOf S c <;> exact ⟨rfl, rfl, rfl⟩

theorem tracker_of_run (S : SupervisorSettings) (steps : List (Step δ)) :
    (supervisorAfter S steps).tracker = trackerAfter resolutionFailureTicketThreshold (failuresSince steps) := by
  induction steps using List.reverseRecOn with
  | nil => rfl
  | append_singleton steps step ih =>
      rw [supervisorAfter_append]
      unfold failuresSince at ih ⊢
      rw [List.foldl_append]
      cases step with
      | restart => rfl
      | cycle c =>
          change (runCycle S (supervisorAfter S steps) c).tracker =
            trackerAfter _ (match discoverPeriodicWorkflows c.periodicFiles with
              | none => _
              | some found => _ ++ [found.failures])
          cases hfound : discoverPeriodicWorkflows c.periodicFiles with
          | none =>
              unfold runCycle
              rw [hfound]
              exact (memberSyncTrigger_keeps S c _).2.1.trans ih
          | some found =>
              rw [(replies_of_discovered hfound).1, ih]
              unfold trackerAfter
              rw [List.foldl_append]
              rfl

end Reports

/-- **The tickets a cycle asks for.** After any cycles and restarts, a cycle that goes through the periodic files asks for
    a ticket about each that failed now for the third time in a row, since the last restart; the log warns of these and
    of those that fail for the first time, and mentions the others. -/
theorem failures_reported [DecidableEq δ] (S : SupervisorSettings) (steps : List (Step δ)) (c : Cycle δ)
    {found : Discovered δ} (hfound : discoverPeriodicWorkflows c.periodicFiles = some found) :
    let seen := (currentOf found.failures).rows.map Prod.snd
    let nth := fun f : PeriodicResolutionFailure => failedInARow f.path (failuresSince steps ++ [found.failures])
    let σ := supervisorAfter S steps
    let σ' := supervisorAfter S (steps ++ [.cycle c])
    σ'.filings = σ.filings ++ seen.filter (fun f => decide (nth f = 3)) ∧
      σ'.log = σ.log ++ seen.map fun f => lineFor 3 f (nth f) := by
  intro seen nth σ σ'
  have hσ' : σ' = runCycle S σ c := by
    change supervisorAfter S (steps ++ [.cycle c]) = _
    rw [supervisorAfter_append]
    rfl
  obtain ⟨-, hfilings, hlog⟩ := @replies_of_discovered _ _ S σ c found hfound
  obtain ⟨hreport, hlines⟩ := observe_replies resolutionFailureTicketThreshold (failuresSince steps) found.failures
  have htracker : σ.tracker = trackerAfter resolutionFailureTicketThreshold (failuresSince steps) := tracker_of_run S steps
  rw [hσ', hfilings, hlog, htracker, hreport, hlines]
  exact ⟨rfl, rfl⟩

theorem failures_reported_third :
    (supervisorAfter everyHour ([.cycle auditCycle, .cycle auditCycle] ++ [.cycle auditCycle])).filings =
      [leftoverFailure] :=
  (failures_reported everyHour [.cycle auditCycle, .cycle auditCycle] auditCycle rfl).1.trans rfl

/-! ## When the members are synchronised -/

/-- The manifest of a step whose digest could be saved. -/
def savedManifest : Step δ → Option Digest
  | .restart => none
  | .cycle c => if c.saves then c.manifest else none

/-- The last manifest whose digest could be saved. -/
def lastSaved (steps : List (Step δ)) : String :=
  (((steps.filterMap savedManifest).getLast?).map Digest.text).getD ""

theorem lastSaved_snoc (steps : List (Step δ)) (step : Step δ) :
    lastSaved (steps ++ [step]) = ((savedManifest step).map Digest.text).getD (lastSaved steps) := by
  unfold lastSaved
  rw [List.filterMap_append, List.filterMap_cons, List.filterMap_nil]
  cases savedManifest step with
  | none => rw [List.append_nil, Option.map_none, Option.getD_none]
  | some d => rw [List.getLast?_append_cons, List.getLast?_singleton, Option.map_some, Option.getD_some, Option.getD_some]

section Sync
variable {S : SupervisorSettings} {σ : Supervisor δ} {c : Cycle δ}

theorem hashReposYaml_of_some {d : Digest} (h : c.manifest = some d) : hashReposYaml c = d.text := by
  unfold hashReposYaml
  rw [h]
  rfl

theorem memberSyncTrigger_of_none (h : c.manifest = none) : memberSyncTrigger S c σ = σ := by
  unfold memberSyncTrigger hashReposYaml
  rw [h]
  exact if_neg fun hcond => hcond.2.1 rfl

/-- With a manifest, the digest in store is that of the manifest whenever it can be saved. -/
theorem storedHash_of_some (hon : 0 < S.memberSyncIntervalSeconds) {d : Digest} (h : c.manifest = some d) :
    strip (memberSyncTrigger S c σ).storedHash = if c.saves then d.text else strip σ.storedHash := by
  unfold memberSyncTrigger
  rw [hashReposYaml_of_some h]
  by_cases hnew : d.text = strip σ.storedHash
  · rw [if_neg fun hcond => hcond.2.2 hnew, ← hnew]
    split <;> rfl
  · rw [if_pos ⟨hon, d.text_ne, hnew⟩]
    cases c.saves with
    | false => rfl
    | true => exact d.strip_text

theorem fired_of_some (hon : 0 < S.memberSyncIntervalSeconds) {d : Digest} (h : c.manifest = some d) :
    (memberSyncTrigger S c σ).fired =
      if d.text ≠ strip σ.storedHash then σ.fired ++ [d.text] else σ.fired := by
  unfold memberSyncTrigger
  rw [hashReposYaml_of_some h]
  by_cases hnew : d.text = strip σ.storedHash
  · rw [if_neg fun hcond => hcond.2.2 hnew, if_neg (not_not.2 hnew)]
  · rw [if_pos ⟨hon, d.text_ne, hnew⟩, if_pos hnew]

variable [DecidableEq δ]

theorem runCycle_sync (S : SupervisorSettings) (σ : Supervisor δ) (c : Cycle δ) :
    (runCycle S σ c).fired = (memberSyncTrigger S c σ).fired ∧
      (runCycle S σ c).storedHash = (memberSyncTrigger S c σ).storedHash := by
  unfold runCycle
  split
  case h_1 => exact ⟨rfl, rfl⟩
  case h_2 => cases bespokeOf S c <;> exact ⟨rfl, rfl⟩

theorem stored_of_run (hon : 0 < S.memberSyncIntervalSeconds) (steps : List (Step δ)) :
    strip (supervisorAfter S steps).storedHash = lastSaved steps := by
  induction steps using List.reverseRecOn with
  | nil =>
      change strip "" = ""
      decide
  | append_singleton steps step ih =>
      rw [supervisorAfter_append, lastSaved_snoc]
      cases step with
      | restart => exact ih
      | cycle c =>
          change strip (runCycle S (supervisorAfter S steps) c).storedHash = _
          rw [(runCycle_sync S _ c).2]
          cases hm : c.manifest with
          | none =>
              have hnone : savedManifest (.cycle c) = none := by
                change (if c.saves then c.manifest else none) = none
                rw [hm, ite_self]
              rw [memberSyncTrigger_of_none hm, hnone]
              exact ih
          | some d =>
              have hsaved : savedManifest (.cycle c) = if c.saves then some d else none := by
                rw [← hm]
                rfl
              rw [storedHash_of_some hon hm, hsaved, ih]
              cases c.saves <;> rfl

end Sync

end PeriodicSupervisor
end Runtime
end RobotsixMill
