import Mathlib.Data.List.Nodup
import RobotsixMill.Core.Workspace
import RobotsixMill.Lib.Runs
import RobotsixMill.Stages.ImplementLoop

/-!
# `Stages.MultiDelivery` — the pull requests of a ticket with several repositories

A run of the implement stage for a ticket of the meta board clones the repositories that triage names anew,
branches each of them and lets the agent work; `_finalize_impl` then commits what is uncommitted and writes to
`touched_repos.json` the repositories it found uncommitted changes in. The deliver stage opens one pull request
for each entry of that manifest whose branch is ahead of its target with a net diff, and keeps in `pr_urls.json`
those this run of it has opened.

- `finalizeImpl`, `runMultiRepoDelivery` — the two stages on the workspace;
- `deliverEntries_spec` — what a deliver run opens;
- `ImplementRun.covered_run_iff`, `DeliverRun.reachesPr_iff` — when one run of either is right;
- `multi_repo_work_reaches_pr` — the runs all of whose steps are right.
-/

namespace RobotsixMill
namespace Stages
open RobotsixMill.Core Lib

abbrev RepoId := String

/-! ## A clone -/

/-- A clone, on the ticket branch. -/
structure Clone (T : Type*) where
  /-- The tree of `origin/<target>` the branch was made from. -/
  target : T
  /-- The trees of the commits that are on the branch and not on the target, oldest first. -/
  commits : List T := []
  worktree : T
deriving DecidableEq, Repr

namespace Clone

variable {T : Type*} [DecidableEq T] (c : Clone T)

def head : T := c.commits.getLast?.getD c.target

def hasChanges : Bool := c.worktree != c.head

def isAhead : Bool := !c.commits.isEmpty

def netDiff : Bool := c.head != c.target

/-- `commit_all`. -/
def commitAll : Clone T := if c.hasChanges then { c with commits := c.commits ++ [c.worktree] } else c

/-- `branch_is_ahead_of_main`: a fetch that fails counts as ahead. -/
def branchIsAheadOfMain (fetched : Bool) : Bool := !fetched || c.isAhead

/-- `branch_has_net_diff`: here as well. -/
def branchHasNetDiff (fetched : Bool) : Bool := !fetched || c.netDiff

omit [DecidableEq T] in
theorem isAhead_iff : c.isAhead = true ↔ c.commits ≠ [] := by simp [isAhead]

/-- A branch without commits of its own is at its target. -/
theorem isAhead_of_netDiff (h : c.netDiff = true) : c.isAhead = true := by
  rw [isAhead_iff]
  intro hnil
  simp [netDiff, head, hnil] at h

theorem commitAll_commits_ne_nil : c.commitAll.commits ≠ [] ↔ c.commits ≠ [] ∨ c.hasChanges = true := by
  unfold commitAll
  split
  · rename_i hchanges
    simp [hchanges]
  · rename_i hchanges
    simp [hchanges]

end Clone

/-! ## The workspace -/

/-- An entry of `touched_repos.json`; its `repo_path` is `repos/<repo_id>` in the workspace. -/
structure TouchedRepo where
  repoId : RepoId
  branch : String
deriving DecidableEq, Repr

/-- The workspace of a ticket of the meta board, and its pull requests on the forge. -/
structure MetaWorkspace (T : Type*) where
  /-- The clones under `repos/`. -/
  clones : RepoId → Option (Clone T) := fun _ => none
  /-- `touched_repos.json`, once it is written. -/
  touchedRepos : Option (List TouchedRepo) := none
  /-- `pr_urls.json`, once it is written. -/
  prUrls : Option (List PrEntry) := none
  /-- The repositories in which a pull request of the ticket is open. -/
  openPrs : List RepoId := []

namespace MetaWorkspace

variable {T : Type*} (w : MetaWorkspace T)

def setClone (id : RepoId) (c : Clone T) : MetaWorkspace T :=
  { w with clones := fun other => if other = id then some c else w.clones other }

/-- The ids in the manifest. -/
def touchedIds : List RepoId := (w.touchedRepos.getD []).map TouchedRepo.repoId

@[simp] theorem setClone_clones_self (id : RepoId) (c : Clone T) : (w.setClone id c).clones id = some c := by
  simp [setClone]

theorem setClone_clones_ne {id other : RepoId} (c : Clone T) (h : other ≠ id) :
    (w.setClone id c).clones other = w.clones other := by
  simp [setClone, h]

@[simp] theorem setClone_touchedIds (id : RepoId) (c : Clone T) : (w.setClone id c).touchedIds = w.touchedIds := rfl

end MetaWorkspace

/-! ## The implement stage -/

/-- A run of the implement stage. -/
structure ImplementRun (T : Type*) where
  /-- What `required_repos_for` returns: it drops what it has seen. -/
  triaged : List RepoId
  nodup : triaged.Nodup
  /-- The repositories that could be cloned. -/
  cloned : RepoId → Bool := fun _ => true
  /-- Each clone as the passes leave it: the commits that were made in it, and its files. -/
  left : RepoId → Clone T
  /-- Every exit of the loop finalizes, ok, blocked, paused or transient; a gate before the loop does not, nor
      does a route to `DELIVERABLE` from the existing branch. -/
  finalizes : Bool := true

namespace ImplementRun

variable {T : Type*} [DecidableEq T] (p : ImplementRun T)

/-- `extra_roots`: the clones, the first of them the primary. -/
def roots : List RepoId := p.triaged.filter p.cloned

omit [DecidableEq T] in
theorem mem_roots {id : RepoId} : id ∈ p.roots ↔ id ∈ p.triaged ∧ p.cloned id = true := List.mem_filter

/-- `build_meta_workspace`, and the passes: what was in the place of a clone is wiped. -/
def work (w : MetaWorkspace T) : MetaWorkspace T :=
  { w with clones := fun id =>
      if id ∈ p.triaged then (if p.cloned id then some (p.left id) else none) else w.clones id }

/-- The repositories that `_finalize_impl` finds changes in, before it commits any. -/
def touched (branch : String) : List TouchedRepo :=
  match p.roots with
  | [] => []
  | repoDir :: _ =>
    ((if (p.left repoDir).hasChanges then [repoDir] else []) ++
      p.roots.filter fun repoPath => repoPath != repoDir && (p.left repoPath).hasChanges).map
        fun repoPath => { repoId := repoPath, branch := branch }

/-- `_finalize_impl`. -/
def finalizeImpl (branch : String) (w : MetaWorkspace T) : MetaWorkspace T :=
  { w with
    clones := fun id => if id ∈ p.roots then (w.clones id).map Clone.commitAll else w.clones id
    touchedRepos := some (p.touched branch) }

/-- The run. -/
def run (branch : String) (w : MetaWorkspace T) : MetaWorkspace T :=
  if p.finalizes then p.finalizeImpl branch (p.work w) else p.work w

end ImplementRun

/-! ## The deliver stage -/

/-- What a deliver run meets in one repository. -/
structure DeliverAnswers (T : Type*) where
  /-- `get_repo_config` does not know it. -/
  unknown : Option String := none
  targetBranch : String := "main"
  /-- `github_push_token` fails. -/
  authError : Option String := none
  fetchedForAhead : Bool := true
  fetchedForDiff : Bool := true
  /-- The trees of the commits of `_regen_lockfiles`. -/
  locks : List T := []
  footprintViolations : List String := []
  /-- What `push_with_token_retry` raises: was the push retried, and its `stderr`. -/
  pushError : Option (Bool × String) := none
  /-- `open_merge_request`: the address, or what it raises. -/
  openMergeRequest : Except String String

/-- A deliver run. -/
structure DeliverRun (T : Type*) where
  /-- The forge is not configured. -/
  gate : Option String := none
  /-- The guard of a triage that fell back to every repository. -/
  mergeGuard : Option String := none
  answers : RepoId → DeliverAnswers T

section Deliver

variable {T : Type*} [DecidableEq T]

/-- The branch has something to deliver, as far as the stage can tell. -/
def DeliverAnswers.ships (a : DeliverAnswers T) (c : Clone T) : Bool :=
  c.branchIsAheadOfMain a.fetchedForAhead && c.branchHasNetDiff a.fetchedForDiff

/-- What fails on the way to the pull request. -/
def DeliverAnswers.failure (a : DeliverAnswers T) (repoLabel : RepoId) : Option String :=
  if a.footprintViolations ≠ [] then
    let files := ", ".intercalate a.footprintViolations
    some (s!"config-standard footprint violation in {repoLabel}: the following diff-touched files are outside the " ++
      s!"approved four-file footprint: {files}. " ++
      "Remove these files from the branch and re-run implement.")
  else match a.pushError with
    | some (retried, stderr) =>
      let retried := if retried then "push retried once with a fresh token; " else ""
      some (s!"{retried}push failed for {repoLabel} — resumable: " ++ .ofList (stderr.toList.take 300))
    | none => match a.openMergeRequest with
      | .error e => some s!"open PR failed for {repoLabel} — resumable: {e}"
      | .ok _ => none

/-- `_deliver_one_repo`: the clone it leaves, and the address of the pull request, none if it is skipped. -/
def deliverOneRepo (repoLabel : RepoId) (a : DeliverAnswers T) (c : Clone T) :
    Clone T × Except String (Option String) :=
  match a.authError with
  | some e => (c, .error s!"forge auth not configured for {repoLabel}: {e}")
  | none =>
    if a.ships c then
      let c := { c with commits := c.commits ++ a.locks }
      match a.failure repoLabel with
      | some note => (c, .error note)
      | none => (c, .ok a.openMergeRequest.toOption)
    else (c, .ok none)

/-- One entry of the manifest. -/
def deliverEntry (d : DeliverRun T) (w : MetaWorkspace T) (e : TouchedRepo) :
    MetaWorkspace T × Except String (Option String) :=
  let a := d.answers e.repoId
  match a.unknown with
  | some err => (w, .error s!"unknown repo_id '{e.repoId}' in touched_repos.json — resumable: {err}")
  | none =>
    match w.clones e.repoId with
    | none => (w, .error s!"no implemented branch in {e.repoId} — re-run implement")
    | some c =>
      let (c, result) := deliverOneRepo e.repoId a c
      (w.setClone e.repoId c, result)

/-- The loop over the manifest, with the pull requests opened so far. -/
def deliverEntries (d : DeliverRun T) :
    List TouchedRepo → MetaWorkspace T → List PrEntry → MetaWorkspace T × Except String (List PrEntry)
  | [], w, opened => (w, .ok opened)
  | e :: es, w, opened =>
    match deliverEntry d w e with
    | (w, .error note) => (w, .error note)
    | (w, .ok none) => deliverEntries d es w opened
    | (w, .ok (some url)) =>
      let opened := opened ++ [{ repoId := e.repoId, branch := e.branch, url := url }]
      -- `_write_pr_urls` replaces the file by the list of this run
      deliverEntries d es { w with prUrls := some opened, openPrs := e.repoId :: w.openPrs } opened

/-- `DeliverStage.run`, for a ticket of the meta board. -/
def runMultiRepoDelivery (d : DeliverRun T) (w : MetaWorkspace T) : MetaWorkspace T × StageOutcome :=
  match d.gate with
  | some note => (w, .block note)
  | none =>
    match w.touchedRepos with
    | none => (w, .block "no implemented branch to deliver (re-run implement)")
    | some [] =>
      (w, { nextState := .done, note := some "no change needed — no repos were modified by implement" })
    | some (e :: es) =>
      match d.mergeGuard with
      | some note => (w, .block note)
      | none =>
        match deliverEntries d (e :: es) w [] with
        | (w, .error note) => (w, .block note)
        | (w, .ok []) =>
          let target := (d.answers ((e :: es).getLast (List.cons_ne_nil e es)).repoId).targetBranch
          (w, { nextState := .done, note := some s!"no change needed — all touched repos already at {target}" })
        | (w, .ok opened) =>
          let urls := ", ".intercalate (opened.map PrEntry.url)
          (w, { nextState := .implementComplete, note := some s!"PRs: {urls}" })

end Deliver

/-! ## What a run of the implement stage leaves in the manifest -/

section Implement

variable {T : Type*} [DecidableEq T] (p : ImplementRun T) (branch : String)

omit [DecidableEq T] in
theorem ImplementRun.nodup_roots : p.roots.Nodup := p.nodup.filter _

/-- The manifest lists each clone with uncommitted changes. -/
theorem ImplementRun.mem_touched {e : TouchedRepo} :
    e ∈ p.touched branch ↔ e.repoId ∈ p.roots ∧ (p.left e.repoId).hasChanges = true ∧ e.branch = branch := by
  obtain ⟨id, b⟩ := e
  unfold touched
  cases hroots : p.roots with
  | nil =>
    constructor
    · intro h
      cases h
    · rintro ⟨h, -⟩
      cases h
  | cons repoDir rest =>
    simp only [List.mem_map, List.mem_append, List.mem_ite_nil_right, List.mem_singleton, List.mem_filter,
      Bool.and_eq_true, bne_iff_ne, TouchedRepo.mk.injEq]
    constructor
    · rintro ⟨repoPath, hlisted, rfl, rfl⟩
      rcases hlisted with ⟨hchanges, rfl⟩ | ⟨hroot, -, hchanges⟩
      · exact ⟨List.mem_cons_self, hchanges, rfl⟩
      · exact ⟨hroot, hchanges, rfl⟩
    · rintro ⟨hroot, hchanges, rfl⟩
      refine ⟨id, ?_, rfl, rfl⟩
      by_cases hid : id = repoDir
      · subst hid
        exact .inl ⟨hchanges, rfl⟩
      · exact .inr ⟨hroot, hid, hchanges⟩

theorem ImplementRun.nodup_touched : ((p.touched branch).map TouchedRepo.repoId).Nodup := by
  have hroots := p.nodup_roots
  unfold touched
  cases hcons : p.roots with
  | nil => exact List.nodup_nil
  | cons repoDir rest =>
    rw [hcons] at hroots
    rw [List.map_map, Function.comp_def, List.map_id', List.nodup_append]
    refine ⟨?_, hroots.filter _, ?_⟩
    · split
      · exact List.nodup_singleton _
      · exact List.nodup_nil
    · intro a ha b hb hab
      subst hab
      split at ha
      · rw [List.mem_singleton] at ha
        simp [ha] at hb
      · cases ha

omit [DecidableEq T] in
theorem ImplementRun.work_clones_of_root {id : RepoId} (h : id ∈ p.roots) (w : MetaWorkspace T) :
    (p.work w).clones id = some (p.left id) := by
  obtain ⟨htriaged, hcloned⟩ := p.mem_roots.1 h
  simp [work, htriaged, hcloned]

omit [DecidableEq T] in
theorem ImplementRun.work_clones_of_not_root {id : RepoId} (h : id ∉ p.roots) (w : MetaWorkspace T) :
    (p.work w).clones id = if id ∈ p.triaged then none else w.clones id := by
  rw [p.mem_roots, not_and] at h
  unfold work
  by_cases htriaged : id ∈ p.triaged
  · simp [htriaged, h htriaged]
  · simp [htriaged]

/-- The manifest lists every clone with commits ahead of its target. -/
def MetaWorkspace.Covered (w : MetaWorkspace T) : Prop :=
  ∀ id c, w.clones id = some c → c.commits ≠ [] → id ∈ w.touchedIds

/-- The manifest lists no repository twice. -/
def MetaWorkspace.Listed (w : MetaWorkspace T) : Prop := w.touchedIds.Nodup

/-- **The manifest stays right** over a run that leaves uncommitted changes in every clone it leaves commits in
    and finds no commits elsewhere; a run that does not finalize leaves commits in repositories that are listed
    already. -/
def ImplementRun.Covers (w : MetaWorkspace T) : Prop :=
  if p.finalizes then
    (∀ id ∈ p.roots, (p.left id).commits ≠ [] → (p.left id).hasChanges = true) ∧
      ∀ id ∉ p.triaged, ∀ c, w.clones id = some c → c.commits = []
  else ∀ id ∈ p.roots, (p.left id).commits ≠ [] → id ∈ w.touchedIds

theorem ImplementRun.mem_touchedIds_finalizeImpl {id : RepoId} (w : MetaWorkspace T) :
    id ∈ (p.finalizeImpl branch w).touchedIds ↔ id ∈ p.roots ∧ (p.left id).hasChanges = true := by
  show id ∈ (p.touched branch).map TouchedRepo.repoId ↔ _
  rw [List.mem_map]
  constructor
  · rintro ⟨e, he, rfl⟩
    obtain ⟨hroot, hchanges, -⟩ := (p.mem_touched branch).1 he
    exact ⟨hroot, hchanges⟩
  · rintro ⟨hroot, hchanges⟩
    exact ⟨⟨id, branch⟩, (p.mem_touched branch).2 ⟨hroot, hchanges, rfl⟩, rfl⟩

theorem ImplementRun.listed_run {w : MetaWorkspace T} (h : w.Listed) : (p.run branch w).Listed := by
  unfold run
  split
  · exact p.nodup_touched branch
  · exact h

theorem ImplementRun.covered_finalizeImpl_iff (w : MetaWorkspace T) :
    (p.finalizeImpl branch (p.work w)).Covered ↔
      (∀ id ∈ p.roots, (p.left id).commits ≠ [] → (p.left id).hasChanges = true) ∧
        ∀ id ∉ p.triaged, ∀ c, w.clones id = some c → c.commits = [] := by
  have hroot : ∀ id ∈ p.roots,
      (p.finalizeImpl branch (p.work w)).clones id = some (p.left id).commitAll := by
    intro id hid
    show (if id ∈ p.roots then ((p.work w).clones id).map Clone.commitAll else _) = _
    rw [if_pos hid, p.work_clones_of_root hid]
    rfl
  have hother : ∀ id ∉ p.roots, (p.finalizeImpl branch (p.work w)).clones id =
      if id ∈ p.triaged then none else w.clones id := by
    intro id hid
    show (if id ∈ p.roots then _ else (p.work w).clones id) = _
    rw [if_neg hid, p.work_clones_of_not_root hid]
  constructor
  · intro hcovered
    constructor
    · intro id hid hcommits
      have hlisted := hcovered id _ (hroot id hid) ((Clone.commitAll_commits_ne_nil _).2 (.inl hcommits))
      exact ((p.mem_touchedIds_finalizeImpl branch _).1 hlisted).2
    · intro id htriaged c hc
      have hnot : id ∉ p.roots := fun hid => htriaged (p.mem_roots.1 hid).1
      by_contra hcommits
      have hclone := hother id hnot
      rw [if_neg htriaged, hc] at hclone
      exact hnot ((p.mem_touchedIds_finalizeImpl branch _).1 (hcovered id c hclone hcommits)).1
  · rintro ⟨hroots, helse⟩ id c hc hcommits
    by_cases hid : id ∈ p.roots
    · rw [hroot id hid] at hc
      obtain rfl := Option.some.inj hc
      rw [p.mem_touchedIds_finalizeImpl]
      refine ⟨hid, ?_⟩
      rcases (Clone.commitAll_commits_ne_nil _).1 hcommits with hown | hchanges
      · exact hroots id hid hown
      · exact hchanges
    · rw [hother id hid] at hc
      split at hc
      · cases hc
      · rename_i htriaged
        exact absurd (helse id htriaged c hc) hcommits

/-- **One run of the implement stage.** -/
theorem ImplementRun.covered_run_iff {w : MetaWorkspace T} (h : w.Covered) :
    (p.run branch w).Covered ↔ p.Covers w := by
  unfold run Covers
  split
  · exact p.covered_finalizeImpl_iff branch w
  · constructor
    · intro hcovered id hid hcommits
      exact hcovered id _ (p.work_clones_of_root hid w) hcommits
    · intro hcovers id c hc hcommits
      by_cases hid : id ∈ p.roots
      · rw [p.work_clones_of_root hid] at hc
        obtain rfl := Option.some.inj hc
        exact hcovers id hid hcommits
      · rw [p.work_clones_of_not_root hid] at hc
        split at hc
        · cases hc
        · exact h id c hc hcommits

end Implement

/-! ## What a deliver run opens -/

section Delivered

variable {T : Type*} [DecidableEq T] (d : DeliverRun T)

/-- The entry has something to deliver. -/
def DeliverRun.ships (w : MetaWorkspace T) (e : TouchedRepo) : Bool :=
  (w.clones e.repoId).any (d.answers e.repoId).ships

/-- Nothing fails at the entry. -/
def DeliverRun.Passes (w : MetaWorkspace T) (e : TouchedRepo) : Prop :=
  (d.answers e.repoId).unknown = none ∧ w.clones e.repoId ≠ none ∧ (d.answers e.repoId).authError = none ∧
    (d.ships w e = true → (d.answers e.repoId).failure e.repoId = none)

theorem DeliverRun.ships_congr {w w' : MetaWorkspace T} {e : TouchedRepo}
    (h : w'.clones e.repoId = w.clones e.repoId) : d.ships w' e = d.ships w e := by
  unfold ships
  rw [h]

theorem DeliverRun.passes_congr {w w' : MetaWorkspace T} {e : TouchedRepo}
    (h : w'.clones e.repoId = w.clones e.repoId) : d.Passes w' e ↔ d.Passes w e := by
  unfold Passes
  rw [h, d.ships_congr h]

omit [DecidableEq T] in
/-- Where nothing fails, the forge has answered with an address. -/
theorem DeliverAnswers.opens_of_failure_eq_none {a : DeliverAnswers T} {repoLabel : RepoId}
    (h : a.failure repoLabel = none) : ∃ url, a.openMergeRequest.toOption = some url := by
  unfold failure at h
  split at h
  · cases h
  · split at h
    · cases h
    · split at h
      · cases h
      · rename_i url hurl
        exact ⟨url, by rw [hurl]; rfl⟩

/-- An entry changes nothing but its own clone. -/
theorem deliverEntry_frame (w : MetaWorkspace T) (e : TouchedRepo) :
    (deliverEntry d w e).1.touchedRepos = w.touchedRepos ∧ (deliverEntry d w e).1.prUrls = w.prUrls ∧
      (deliverEntry d w e).1.openPrs = w.openPrs ∧
      ∀ id, id ≠ e.repoId → (deliverEntry d w e).1.clones id = w.clones id := by
  unfold deliverEntry
  dsimp only
  split
  · exact ⟨rfl, rfl, rfl, fun _ _ => rfl⟩
  · split
    · exact ⟨rfl, rfl, rfl, fun _ _ => rfl⟩
    · exact ⟨rfl, rfl, rfl, fun _ hne => w.setClone_clones_ne _ hne⟩

/-- **One entry**: something fails, or there is nothing to deliver, or its pull request is opened. -/
theorem deliverEntry_cases (w : MetaWorkspace T) (e : TouchedRepo) :
    (¬ d.Passes w e ∧ ∃ note, (deliverEntry d w e).2 = .error note) ∨
      (d.Passes w e ∧ d.ships w e = false ∧ (deliverEntry d w e).2 = .ok none) ∨
        (d.Passes w e ∧ d.ships w e = true ∧ ∃ url, (deliverEntry d w e).2 = .ok (some url)) := by
  unfold deliverEntry
  dsimp only
  cases hunknown : (d.answers e.repoId).unknown with
  | some err =>
    refine .inl ⟨?_, _, rfl⟩
    rintro ⟨h, -⟩
    rw [hunknown] at h
    cases h
  | none =>
    cases hclone : w.clones e.repoId with
    | none => exact .inl ⟨fun h => h.2.1 hclone, _, rfl⟩
    | some c =>
      have hships : d.ships w e = (d.answers e.repoId).ships c := by
        rw [DeliverRun.ships, hclone, Option.any_some]
      have hsome : w.clones e.repoId ≠ none := by simp [hclone]
      unfold deliverOneRepo
      cases hauth : (d.answers e.repoId).authError with
      | some err =>
        refine .inl ⟨?_, _, rfl⟩
        rintro ⟨-, -, h, -⟩
        rw [hauth] at h
        cases h
      | none =>
        cases hs : (d.answers e.repoId).ships c with
        | false =>
          refine .inr (.inl ⟨⟨hunknown, hsome, hauth, ?_⟩, hships.trans hs, ?_⟩)
          · intro h
            rw [hships, hs] at h
            cases h
          · simp [hs]
        | true =>
          cases hfailure : (d.answers e.repoId).failure e.repoId with
          | some note =>
            refine .inl ⟨?_, note, ?_⟩
            · intro h
              have hnone := h.2.2.2 (hships.trans hs)
              rw [hfailure] at hnone
              cases hnone
            · simp [hs]
          | none =>
            obtain ⟨url, hurl⟩ := DeliverAnswers.opens_of_failure_eq_none hfailure
            refine .inr (.inr ⟨⟨hunknown, hsome, hauth, fun _ => hfailure⟩, hships.trans hs, url, ?_⟩)
            simp [hs, hurl]

/-- The loop changes nothing but the clones of its entries, and what is on the forge. -/
theorem deliverEntries_frame (es : List TouchedRepo) (w : MetaWorkspace T) (opened : List PrEntry) :
    (deliverEntries d es w opened).1.touchedRepos = w.touchedRepos ∧
      ∀ id, id ∉ es.map TouchedRepo.repoId → (deliverEntries d es w opened).1.clones id = w.clones id := by
  induction es generalizing w opened with
  | nil => exact ⟨rfl, fun _ _ => rfl⟩
  | cons e es ih =>
    obtain ⟨htouched, -, -, hclones⟩ := deliverEntry_frame d w e
    unfold deliverEntries
    generalize deliverEntry d w e = entry at htouched hclones
    obtain ⟨w', result⟩ := entry
    have hother : ∀ id, id ∉ (e :: es).map TouchedRepo.repoId → id ≠ e.repoId ∧ id ∉ es.map TouchedRepo.repoId := by
      intro id hid
      rw [List.map_cons, List.mem_cons, not_or] at hid
      exact hid
    rcases result with note | url
    · exact ⟨htouched, fun id hid => hclones id (hother id hid).1⟩
    · rcases url with - | url
      · obtain ⟨ht, hc⟩ := ih w' opened
        exact ⟨ht.trans htouched, fun id hid => (hc id (hother id hid).2).trans (hclones id (hother id hid).1)⟩
      · obtain ⟨ht, hc⟩ := ih { w' with
            prUrls := some (opened ++ [{ repoId := e.repoId, branch := e.branch, url := url }])
            openPrs := e.repoId :: w'.openPrs } (opened ++ [{ repoId := e.repoId, branch := e.branch, url := url }])
        exact ⟨ht.trans htouched, fun id hid => (hc id (hother id hid).2).trans (hclones id (hother id hid).1)⟩

/-- The repositories of the entries that have something to deliver. -/
def DeliverRun.shippedIds (w : MetaWorkspace T) (es : List TouchedRepo) : List RepoId :=
  (es.filter (d.ships w)).map TouchedRepo.repoId

/-- What a loop that meets no failure has done. -/
structure Opened (w : MetaWorkspace T) (es : List TouchedRepo) (opened : List PrEntry) (w' : MetaWorkspace T)
    (all : List PrEntry) : Prop where
  passes : ∀ e ∈ es, d.Passes w e
  ids : all.map PrEntry.repoId = opened.map PrEntry.repoId ++ d.shippedIds w es
  openPrs : ∀ id, id ∈ w'.openPrs ↔ id ∈ w.openPrs ∨ id ∈ d.shippedIds w es
  kept : d.shippedIds w es = [] → w'.prUrls = w.prUrls ∧ all = opened
  written : d.shippedIds w es ≠ [] → w'.prUrls = some all

/-- What comes before the loop in other repositories makes no difference to it. -/
theorem DeliverRun.shippedIds_congr {w w' : MetaWorkspace T} {es : List TouchedRepo}
    (h : ∀ e ∈ es, w'.clones e.repoId = w.clones e.repoId) : d.shippedIds w' es = d.shippedIds w es := by
  unfold shippedIds
  rw [List.filter_congr fun e he => d.ships_congr (h e he)]

/-- **The loop**: it comes to its end exactly when nothing fails, and what it opened is what had something to
    deliver. -/
theorem deliverEntries_spec {es : List TouchedRepo} (w : MetaWorkspace T) (opened : List PrEntry)
    (hnodup : (es.map TouchedRepo.repoId).Nodup) :
    ((∃ note, (deliverEntries d es w opened).2 = .error note) ∧ ¬ ∀ e ∈ es, d.Passes w e) ∨
      ∃ all, (deliverEntries d es w opened).2 = .ok all ∧
        Opened d w es opened (deliverEntries d es w opened).1 all := by
  induction es generalizing w opened with
  | nil =>
    refine .inr ⟨opened, rfl, ?_, (List.append_nil _).symm, ?_, fun _ => ⟨rfl, rfl⟩, fun h => absurd rfl h⟩
    · intro e he
      cases he
    · intro id
      simp [deliverEntries, DeliverRun.shippedIds]
  | cons e es ih =>
    obtain ⟨hnot, hrest⟩ := List.nodup_cons.1 hnodup
    obtain ⟨-, hurls, hopen, hclones⟩ := deliverEntry_frame d w e
    have hsame : ∀ e' ∈ es, (deliverEntry d w e).1.clones e'.repoId = w.clones e'.repoId := by
      intro e' he'
      apply hclones
      intro heq
      exact hnot (heq ▸ List.mem_map_of_mem he')
    have hcases := deliverEntry_cases d w e
    unfold deliverEntries
    generalize deliverEntry d w e = entry at hurls hopen hsame hcases
    obtain ⟨w', result⟩ := entry
    dsimp only at hurls hopen hsame hcases
    have hpasses : ∀ e' ∈ es, d.Passes w' e' ↔ d.Passes w e' := fun e' he' => d.passes_congr (hsame e' he')
    have hshipped := d.shippedIds_congr hsame
    rcases hcases with ⟨hfails, note, rfl⟩ | ⟨hpass, hships, rfl⟩ | ⟨hpass, hships, url, rfl⟩
    · exact .inl ⟨⟨note, rfl⟩, fun hall => hfails (hall e List.mem_cons_self)⟩
    · have hids : d.shippedIds w (e :: es) = d.shippedIds w es := by
        rw [DeliverRun.shippedIds, List.filter_cons, hships]
        rfl
      rcases ih w' opened hrest with ⟨hnote, hfails⟩ | ⟨all, hok, hopened⟩
      · refine .inl ⟨hnote, fun hall => hfails fun e' he' => ?_⟩
        exact (hpasses e' he').2 (hall e' (List.mem_cons_of_mem e he'))
      · refine .inr ⟨all, hok, ?_, ?_, ?_, ?_, ?_⟩
        · intro e' he'
          rcases List.mem_cons.1 he' with rfl | he'
          · exact hpass
          · exact (hpasses e' he').1 (hopened.passes e' he')
        · rw [hids, ← hshipped]
          exact hopened.ids
        · intro id
          rw [hids, ← hshipped, ← hopen]
          exact hopened.openPrs id
        · rw [hids, ← hshipped, ← hurls]
          exact hopened.kept
        · rw [hids, ← hshipped]
          exact hopened.written
    · have hids : d.shippedIds w (e :: es) = e.repoId :: d.shippedIds w es := by
        rw [DeliverRun.shippedIds, List.filter_cons, hships]
        rfl
      dsimp only
      generalize hnow : ({ w' with
        prUrls := some (opened ++ [{ repoId := e.repoId, branch := e.branch, url := url }])
        openPrs := e.repoId :: w'.openPrs } : MetaWorkspace T) = now
      have hnowclones : now.clones = w'.clones := by rw [← hnow]
      have hnowpasses : ∀ e' ∈ es, d.Passes now e' ↔ d.Passes w e' := fun e' he' =>
        d.passes_congr ((congrFun hnowclones e'.repoId).trans (hsame e' he'))
      have hnowshipped : d.shippedIds now es = d.shippedIds w es :=
        d.shippedIds_congr fun e' he' => (congrFun hnowclones e'.repoId).trans (hsame e' he')
      rcases ih now (opened ++ [{ repoId := e.repoId, branch := e.branch, url := url }]) hrest with
        ⟨hnote, hfails⟩ | ⟨all, hok, hopened⟩
      · refine .inl ⟨hnote, fun hall => hfails fun e' he' => ?_⟩
        exact (hnowpasses e' he').2 (hall e' (List.mem_cons_of_mem e he'))
      · have hwritten : (deliverEntries d es now
            (opened ++ [{ repoId := e.repoId, branch := e.branch, url := url }])).1.prUrls = some all := by
          by_cases hnone : d.shippedIds now es = []
          · obtain ⟨hkept, hall⟩ := hopened.kept hnone
            rw [hkept, hall, ← hnow]
          · exact hopened.written hnone
        refine .inr ⟨all, hok, ?_, ?_, ?_, ?_, fun _ => hwritten⟩
        · intro e' he'
          rcases List.mem_cons.1 he' with rfl | he'
          · exact hpass
          · exact (hnowpasses e' he').1 (hopened.passes e' he')
        · rw [hopened.ids, hids, hnowshipped, List.map_append, List.append_assoc]
          rfl
        · intro id
          rw [hopened.openPrs id, hids, hnowshipped, ← hnow, List.mem_cons, List.mem_cons, hopen]
          tauto
        · rw [hids]
          intro h
          cases h

end Delivered

/-! ## Runs of both stages -/

section Runs

variable {T : Type*} [DecidableEq T]

theorem DeliverRun.mem_shippedIds {d : DeliverRun T} {w : MetaWorkspace T} {es : List TouchedRepo} {id : RepoId} :
    id ∈ d.shippedIds w es ↔ ∃ e ∈ es, d.ships w e = true ∧ e.repoId = id := by
  simp only [DeliverRun.shippedIds, List.mem_map, List.mem_filter, and_assoc]

/-- A clone with a net diff has something to deliver, whatever the fetches do. -/
theorem DeliverRun.ships_of_netDiff (d : DeliverRun T) {w : MetaWorkspace T} {e : TouchedRepo} {c : Clone T}
    (hclone : w.clones e.repoId = some c) (hdiff : c.netDiff = true) : d.ships w e = true := by
  rw [ships, hclone, Option.any_some, DeliverAnswers.ships, Clone.branchIsAheadOfMain, Clone.branchHasNetDiff,
    c.isAhead_of_netDiff hdiff, hdiff, Bool.or_true, Bool.or_true, Bool.and_true]

/-- **A deliver run**: it is blocked, or finds nothing to deliver, or opens what there is. -/
theorem runMultiRepoDelivery_cases (d : DeliverRun T) {w : MetaWorkspace T} (hlisted : w.Listed) :
    ((runMultiRepoDelivery d w).2.nextState = .blocked ∧
        ¬ (d.gate = none ∧ d.mergeGuard = none ∧ (∀ e ∈ w.touchedRepos.getD [], d.Passes w e) ∧
          d.shippedIds w (w.touchedRepos.getD []) ≠ [])) ∨
      ((runMultiRepoDelivery d w).2.nextState = .done ∧ d.shippedIds w (w.touchedRepos.getD []) = []) ∨
        ((runMultiRepoDelivery d w).2.nextState = .implementComplete ∧
          ∃ all, Opened d w (w.touchedRepos.getD []) [] (runMultiRepoDelivery d w).1 all ∧
            d.gate = none ∧ d.mergeGuard = none ∧ d.shippedIds w (w.touchedRepos.getD []) ≠ []) := by
  unfold runMultiRepoDelivery
  cases hgate : d.gate with
  | some note => exact .inl ⟨rfl, fun h => (by cases h.1)⟩
  | none =>
    cases htouched : w.touchedRepos with
    | none => exact .inl ⟨rfl, fun h => h.2.2.2 rfl⟩
    | some entries =>
      cases entries with
      | nil => exact .inr (.inl ⟨rfl, rfl⟩)
      | cons e es =>
        cases hguard : d.mergeGuard with
        | some note => exact .inl ⟨rfl, fun h => (by cases h.2.1)⟩
        | none =>
          have hnodup : ((e :: es).map TouchedRepo.repoId).Nodup := by
            have h := hlisted
            rwa [MetaWorkspace.Listed, MetaWorkspace.touchedIds, htouched] at h
          show _ ∨ _ ∨ _
          have hspec := deliverEntries_spec d w [] hnodup
          dsimp only
          generalize deliverEntries d (e :: es) w [] = result at hspec
          obtain ⟨w', result⟩ := result
          rcases hspec with ⟨⟨note, hnote⟩, hfails⟩ | ⟨all, hall, hopened⟩
          · cases hnote
            exact .inl ⟨rfl, fun h => hfails h.2.2.1⟩
          · cases hall
            cases all with
            | nil =>
              refine .inr (.inl ⟨rfl, ?_⟩)
              exact (hopened.ids).symm
            | cons pr prs =>
              refine .inr (.inr ⟨rfl, pr :: prs, hopened, rfl, rfl, ?_⟩)
              intro hnone
              have hids := hopened.ids
              rw [show d.shippedIds w (e :: es) = [] from hnone] at hids
              cases hids

/-- What a deliver run is to do: it finds every clone with commits in the manifest, it is `DONE` only if no
    clone has a net diff, and a run that delivers leaves each open pull request in the list once. -/
def DeliverRun.ReachesPr (d : DeliverRun T) (w : MetaWorkspace T) : Prop :=
  w.Covered ∧
    ((runMultiRepoDelivery d w).2.nextState = .done → ∀ id c, w.clones id = some c → c.netDiff = false) ∧
      ((runMultiRepoDelivery d w).2.nextState = .implementComplete →
        ∀ id ∈ (runMultiRepoDelivery d w).1.openPrs,
          (((runMultiRepoDelivery d w).1.prUrls.getD []).map PrEntry.repoId).count id = 1)

/-- If nothing fails and something is delivered, every pull request that was open before is in a repository that
    is listed and has something to deliver. -/
def DeliverRun.KeepsPrs (d : DeliverRun T) (w : MetaWorkspace T) : Prop :=
  d.gate = none ∧ d.mergeGuard = none ∧ (∀ e ∈ w.touchedRepos.getD [], d.Passes w e) ∧
      d.shippedIds w (w.touchedRepos.getD []) ≠ [] →
    ∀ id ∈ w.openPrs, id ∈ d.shippedIds w (w.touchedRepos.getD [])

/-- **One deliver run.** -/
theorem DeliverRun.reachesPr_iff (d : DeliverRun T) {w : MetaWorkspace T} (hlisted : w.Listed) (hcovered : w.Covered) :
    d.ReachesPr w ↔ d.KeepsPrs w := by
  have hdone : d.shippedIds w (w.touchedRepos.getD []) = [] → ∀ id c, w.clones id = some c → c.netDiff = false := by
    intro hnone id c hc
    cases hdiff : c.netDiff with
    | false => rfl
    | true =>
      have hid := hcovered id c hc (c.isAhead_iff.1 (c.isAhead_of_netDiff hdiff))
      obtain ⟨e, he, rfl⟩ := List.mem_map.1 hid
      have hships : e.repoId ∈ d.shippedIds w (w.touchedRepos.getD []) :=
        mem_shippedIds.2 ⟨e, he, d.ships_of_netDiff hc hdiff, rfl⟩
      rw [hnone] at hships
      cases hships
  unfold ReachesPr KeepsPrs
  rcases runMultiRepoDelivery_cases d hlisted with ⟨hstate, hfails⟩ | ⟨hstate, hnone⟩ |
    ⟨hstate, all, hopened, hgate, hguard, hsome⟩
  · rw [hstate]
    exact ⟨fun _ h => absurd h hfails, fun _ => ⟨hcovered, fun h => (by cases h), fun h => (by cases h)⟩⟩
  · rw [hstate]
    exact ⟨fun _ h => absurd hnone h.2.2.2, fun _ => ⟨hcovered, fun _ => hdone hnone, fun h => (by cases h)⟩⟩
  · have hids : ∀ id, ((((runMultiRepoDelivery d w).1.prUrls.getD []).map PrEntry.repoId).count id = 1 ↔
        id ∈ d.shippedIds w (w.touchedRepos.getD [])) := by
      intro id
      rw [hopened.written hsome, Option.getD_some, hopened.ids, List.map_nil, List.nil_append]
      have hnodup : (d.shippedIds w (w.touchedRepos.getD [])).Nodup :=
        (List.Nodup.sublist (List.filter_sublist.map _) hlisted)
      exact ⟨fun h => List.count_pos_iff.1 (h ▸ Nat.one_pos), fun h => List.count_eq_one_of_mem hnodup h⟩
    rw [hstate]
    constructor
    · rintro ⟨-, -, hlists⟩ - id hid
      exact (hids id).1 (hlists rfl id ((hopened.openPrs id).2 (.inl hid)))
    · intro hkeeps
      refine ⟨hcovered, fun h => (by cases h), fun _ id hid => (hids id).2 ?_⟩
      rcases (hopened.openPrs id).1 hid with hbefore | hnow
      · exact hkeeps ⟨hgate, hguard, hopened.passes, hsome⟩ id hbefore
      · exact hnow

/-- A deliver run leaves the manifest as it is, and commits in listed clones only. -/
theorem runMultiRepoDelivery_frame (d : DeliverRun T) (w : MetaWorkspace T) :
    (runMultiRepoDelivery d w).1.touchedRepos = w.touchedRepos ∧
      ∀ id, id ∉ w.touchedIds → (runMultiRepoDelivery d w).1.clones id = w.clones id := by
  unfold runMultiRepoDelivery
  cases d.gate with
  | some note => exact ⟨rfl, fun _ _ => rfl⟩
  | none =>
    cases htouched : w.touchedRepos with
    | none => exact ⟨htouched, fun _ _ => rfl⟩
    | some entries =>
      cases entries with
      | nil => exact ⟨htouched, fun _ _ => rfl⟩
      | cons e es =>
        cases d.mergeGuard with
        | some note => exact ⟨htouched, fun _ _ => rfl⟩
        | none =>
          have hframe := deliverEntries_frame d (e :: es) w []
          have hids : w.touchedIds = (e :: es).map TouchedRepo.repoId := by
            rw [MetaWorkspace.touchedIds, htouched, Option.getD_some]
          rw [htouched] at hframe
          rw [hids]
          dsimp only
          generalize deliverEntries d (e :: es) w [] = result at hframe
          obtain ⟨w', result⟩ := result
          rcases result with note | opened
          · exact hframe
          · cases opened with
            | nil => exact hframe
            | cons pr prs => exact hframe

/-- What happens to the workspace and the pull requests of a ticket. -/
inductive MetaEvent (T : Type*)
  | implement (p : ImplementRun T)
  | deliver (d : DeliverRun T)
  /-- A pull request is merged or closed. -/
  | settled (id : RepoId)

/-- One event. -/
def metaStep (branch : String) (w : MetaWorkspace T) : MetaEvent T → MetaWorkspace T → Prop
  | .implement p, w' => w' = p.run branch w
  | .deliver d, w' => w' = (runMultiRepoDelivery d w).1
  | .settled id, w' => w' = { w with openPrs := w.openPrs.filter (· != id) }

/-- The event goes as it should: a run of the implement stage leaves a manifest that a deliver run may start
    from, and a deliver run reaches the pull requests. -/
def MetaEvent.Reaches (branch : String) (w : MetaWorkspace T) : MetaEvent T → Prop
  | .implement p => (p.run branch w).Covered
  | .deliver d => d.ReachesPr w
  | .settled _ => True

/-- What the event has to find for that. -/
def MetaEvent.Keeps (w : MetaWorkspace T) : MetaEvent T → Prop
  | .implement p => p.Covers w
  | .deliver d => d.KeepsPrs w
  | .settled _ => True

theorem reaches_iff (branch : String) {w : MetaWorkspace T} (hlisted : w.Listed) (hcovered : w.Covered)
    (e : MetaEvent T) : MetaEvent.Reaches branch w e ↔ MetaEvent.Keeps w e := by
  cases e with
  | implement p => exact p.covered_run_iff branch hcovered
  | deliver d => exact d.reachesPr_iff hlisted hcovered
  | settled id => exact Iff.rfl

/-- **The step lemma.** -/
theorem metaStep_covered {branch : String} {w w' : MetaWorkspace T} {e : MetaEvent T} (hlisted : w.Listed)
    (hcovered : w.Covered) (hreaches : MetaEvent.Reaches branch w e) (h : metaStep branch w e w') :
    w'.Listed ∧ w'.Covered := by
  cases e with
  | implement p =>
    subst h
    exact ⟨p.listed_run branch hlisted, hreaches⟩
  | deliver d =>
    subst h
    obtain ⟨htouched, hclones⟩ := runMultiRepoDelivery_frame d w
    have hids : (runMultiRepoDelivery d w).1.touchedIds = w.touchedIds := by
      unfold MetaWorkspace.touchedIds
      rw [htouched]
    refine ⟨?_, ?_⟩
    · show (runMultiRepoDelivery d w).1.touchedIds.Nodup
      rw [hids]
      exact hlisted
    · intro id c hc hcommits
      rw [hids]
      by_contra hid
      rw [hclones id hid] at hc
      exact hid (hcovered id c hc hcommits)
  | settled id =>
    subst h
    exact ⟨hlisted, hcovered⟩

/-- **The work of a ticket with several repositories reaches its pull requests** in exactly the runs all of whose
    steps find what they need: each run of the implement stage leaves uncommitted changes wherever it leaves
    commits and nothing is committed elsewhere, and each run of the deliver stage finds the repositories of the
    open pull requests listed, with something to deliver. -/
theorem multi_repo_work_reaches_pr (branch : String) (l : List (MetaEvent T)) (w : MetaWorkspace T) :
    Run (Guarded (MetaEvent.Reaches branch) (metaStep branch)) {} l w ↔
      Run (Guarded MetaEvent.Keeps (metaStep branch)) {} l w := by
  apply Run.guarded_congr (I := fun w => w.Listed ∧ w.Covered)
  · intro w e w' hinv hreaches h
    exact metaStep_covered hinv.1 hinv.2 hreaches h
  · intro w e hinv
    exact reaches_iff branch hinv.1 hinv.2 e
  · refine ⟨List.nodup_nil, ?_⟩
    intro id c hc
    cases hc

/-- A pass that calls no tool, on a branch the agent has committed to. -/
def idlePass : PassResult := { newMsgs := some [], repo := some (false, true) }

/-- A run in which the agent commits its work itself, as it is told to for a lockfile. -/
def committedByAgent : ImplementRun String where
  triaged := ["mill"]
  nodup := List.nodup_singleton _
  left := fun _ => { target := "base", commits := ["fix"], worktree := "fix" }

def willingForge : DeliverRun String where
  answers := fun _ => { openMergeRequest := .ok "pull/1" }

/-- The loop advances "so the deliver stage opens a PR"; the manifest is empty, and deliver is `DONE`. -/
theorem committed_work_gets_no_pr :
    (endOfPass 2 [] {} idlePass).2.map (fun exit => exit.outcome.nextState) = some .deliverable ∧
      ¬ ∀ (l : List (MetaEvent String)) (w : MetaWorkspace String) (d : DeliverRun String),
        Run (metaStep "mill/T1") {} l w → d.ReachesPr w := by
  refine ⟨rfl, ?_⟩
  intro hclaim
  have hreaches := hclaim [.implement committedByAgent] (committedByAgent.run "mill/T1" {}) willingForge (.single rfl)
  have hnone := hreaches.2.1 rfl "mill" { target := "base", commits := ["fix"], worktree := "fix" } rfl
  exact absurd hnone (by decide)

end Runs

end Stages
end RobotsixMill
