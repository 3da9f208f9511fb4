import RobotsixMill.Scm.Git

/-!
# `Scm.HostPush` — the push after a mechanical rebase

`_fetch_and_run_rebase`, up to the agent: the clone is reconciled with the remote branch, rebased onto the
target, and pushed with a lease. The lease is `origin/<branch>`, which the reconcile itself moves, and where
there is no such ref the push is forced. Others may push to the branch at any time. What `git rebase` makes
of a branch is a parameter, with what its documentation says of it in `IsRebase`.

- `reconcileWithRemotePr`, `leasePasses`, `hostPush` — the chain, with what others push in the gaps;
- `KeepsHumanCommits` — a push that goes out loses no human commit that was on the branch;
- `keepsHumanCommits_iff` — exactly when it does not.
-/

namespace RobotsixMill
namespace Scm
open Lib

/-! ## The clone and the remote -/

/-- The clone, and the branch on the remote. -/
structure Clones where
  head : Sha
  /-- `origin/<branch>` in the clone. -/
  tracking : Option Sha
  remote : Option Sha
deriving DecidableEq, Repr

/-- What others make of the remote branch, push by push; `none` deletes it. -/
def Clones.land (w : Clones) (pushes : List (Option Sha)) : Clones :=
  { w with remote := pushes.foldl (fun _ tip => tip) w.remote }

/-- How `git fetch` ends: the remote answers, the command fails, or it times out. -/
inductive FetchAnswer
  | answers | fails | timesOut
deriving DecidableEq, Repr

/-- `ReconcileResult`. -/
inductive ReconcileResult
  | synced | diverged | unavailable
deriving DecidableEq, Repr

/-- What `git fetch` gets of the branch; it fails if the remote does not have the branch. -/
def fetched (answer : FetchAnswer) (w : Clones) : Option Sha :=
  if answer = .answers then w.remote else none

variable (g : Git)

/-- Every commit of `tip` that is not in `head` reads as an automation's, and there is one. -/
def readsOwn (head tip : Sha) : Bool :=
  let discarded := rangeCommitEmails g head tip
  !discarded.isEmpty && discarded.all fun emails => bothAutomation emails.1 emails.2

/-- `reconcile_with_remote_pr` once `origin/<branch>` is at `tip`. -/
def reconcileFetched (w : Clones) (tip : Sha) : Clones × ReconcileResult :=
  if w.head = tip then (w, .synced)
  else if g.dag.isAncestor w.head tip then ({ w with head := tip }, .synced)
  else if g.dag.isAncestor tip w.head then (w, .synced)
  else if readsOwn g w.head tip then (w, .synced)
  else (w, .diverged)

/-- `reconcile_with_remote_pr`. A command that times out is caught with all that is unexpected. -/
def reconcileWithRemotePr (answer : FetchAnswer) (w : Clones) : Clones × ReconcileResult :=
  match fetched answer w with
  | some tip => reconcileFetched g { w with tracking := some tip } tip
  | none =>
    if answer = .timesOut then (w, .unavailable)
    else if w.tracking = none then (w, .synced)
    else (w, .unavailable)

/-- `push_with_lease`: forced where nothing is tracked, else a compare-and-swap. -/
def leasePasses (w : Clones) : Bool :=
  match w.tracking with
  | none => true
  | some expected => decide (w.remote = some expected)

/-! ## The rebase -/

/-- What `git rebase` makes of a branch: the new tip, and the commits of the branch that stay as they are,
    that are made again, and that are left out. -/
structure Rebased where
  tip : Sha
  kept : List Sha := []
  replayed : List Sha := []
  dropped : List Sha := []
  /-- The commits it makes. -/
  made : List Sha := []
deriving DecidableEq, Repr

/-- What is documented of `git rebase`. -/
structure IsRebase (target head : Sha) (r : Rebased) : Prop where
  /-- It goes over the commits that are not in the target. -/
  cover : ∀ c, c ∈ g.dag.range target head ↔ c ∈ r.kept ∨ c ∈ r.replayed ∨ c ∈ r.dropped
  /-- The new branch is the target, what stays and what is made. -/
  history : ∀ c, c ∈ g.dag.history r.tip ↔ c ∈ g.dag.history target ∨ c ∈ r.kept ∨ c ∈ r.made
  /-- What is left out is nowhere else. -/
  out : ∀ c ∈ r.dropped, c ∉ r.kept ∧ c ∉ r.replayed ∧ c ∉ r.made

/-- The commit is on the new branch, or was replayed onto it. -/
def Rebased.Has (r : Rebased) (c : Sha) : Prop := c ∈ g.dag.history r.tip ∨ c ∈ r.replayed

/-! ## The chain -/

/-- What one chain finds, and what others push in its gaps. -/
structure HostPush where
  target : Sha
  fetch : FetchAnswer := .answers
  /-- `git fetch origin <target>`. -/
  targetFetched : Bool := true
  /-- The push reaches the remote. -/
  pushAnswers : Bool := true
  beforeFetch : List (Option Sha) := []
  afterFetch : List (Option Sha) := []
  duringRebase : List (Option Sha) := []
  beforePush : List (Option Sha) := []
deriving DecidableEq, Repr

/-- A push that goes out. -/
structure Pushed where
  /-- The remote branch just before. -/
  before : Option Sha
  rebased : Rebased

/-- `_fetch_and_run_rebase`, as far as the host pushes; `none` if it blocks or leaves the rest to the agent. -/
def hostPush (rebase : Sha → Sha → Option Rebased) (run : HostPush) (w : Clones) : Option Pushed :=
  let (w, result) := reconcileWithRemotePr g run.fetch (w.land run.beforeFetch)
  if result = .diverged then none
  else
    let w := w.land run.afterFetch
    if run.targetFetched = false then none
    else match rebase run.target w.head with
      | none => none
      | some rebased =>
        let w := (w.land run.duringRebase).land run.beforePush
        if run.pushAnswers && leasePasses w then some { before := w.remote, rebased } else none

/-! ## What it is to keep -/

/-- **A push loses no human commit**: what a person has on the remote branch just before it is on the pushed
    branch, or was replayed onto it. -/
def KeepsHumanCommits (rebase : Sha → Sha → Option Rebased) (run : HostPush) (w : Clones) : Prop :=
  ∀ p, hostPush g rebase run w = some p → ∀ tip, p.before = some tip →
    ∀ c ∈ g.dag.history tip, g.isHuman c = true → p.rebased.Has g c

/-- The remote branch when the push reaches it. -/
def HostPush.remoteAtPush (run : HostPush) (w : Clones) : Option Sha :=
  ((((w.land run.beforeFetch).land run.afterFetch).land run.duringRebase).land run.beforePush).remote

/-- A commit that is not in the target, and that a rebase of `start` leaves out or never sees. -/
def Leaves (target start : Sha) (r : Rebased) (c : Sha) : Prop :=
  c ∉ g.dag.history target ∧ c ∉ r.made ∧ (c ∈ g.dag.history start → c ∈ r.dropped)

/-- Of the remote branch at `tip`, a rebase of `start` leaves no human commit behind. -/
def SparesFrom (rebase : Sha → Sha → Option Rebased) (target start tip : Sha) : Prop :=
  ∀ r, rebase target start = some r → ∀ c ∈ g.dag.history tip, g.isHuman c = true → ¬ Leaves g target start r c

/-- When a chain loses nothing. Where the fetch gets the branch and nobody pushes after it: the rebase leaves
    no human commit of the branch behind, starting from the branch if the clone is behind it, else from the
    clone, and, if the two have diverged, only if all that the branch has over the clone reads as the mill's
    own. Where the fetch gets nothing: the same of the clone as it is and the branch as it is at the push, if
    nothing is tracked or what is tracked is the branch. -/
def Spares (rebase : Sha → Sha → Option Rebased) (run : HostPush) (w : Clones) : Prop :=
  run.targetFetched = true → run.pushAnswers = true →
    match fetched run.fetch (w.land run.beforeFetch) with
    | some tip => run.remoteAtPush w = some tip →
      if w.head ∈ g.dag.history tip then SparesFrom g rebase run.target tip tip
      else if tip ∈ g.dag.history w.head ∨ readsOwn g w.head tip = true then
        SparesFrom g rebase run.target w.head tip
      else True
    | none => ∀ tip, run.remoteAtPush w = some tip → w.tracking = none ∨ w.tracking = some tip →
      SparesFrom g rebase run.target w.head tip

/-! ## What a rebase loses -/

variable {g} {rebase : Sha → Sha → Option Rebased} {run : HostPush} {w : Clones}

/-- **A rebase loses** exactly what it leaves. -/
theorem IsRebase.has_iff {target start c : Sha} {r : Rebased} (h : IsRebase g target start r) :
    r.Has g c ↔ ¬ Leaves g target start r c := by
  have hstart : c ∈ r.kept ∨ c ∈ r.replayed → c ∈ g.dag.history start ∧ c ∉ r.dropped := by
    intro hc
    have hrange : c ∈ g.dag.range target start := (h.cover c).2 (hc.elim .inl fun hc => .inr (.inl hc))
    refine ⟨(CommitDag.mem_range.1 hrange).1, fun hdropped => ?_⟩
    obtain ⟨hkept, hreplayed, -⟩ := h.out c hdropped
    exact hc.elim hkept hreplayed
  constructor
  · rintro hhas ⟨htarget, hmade, hleft⟩
    have hmem : c ∈ r.kept ∨ c ∈ r.replayed := by
      rcases hhas with htip | hreplayed
      · rcases (h.history c).1 htip with hc | hc | hc
        · exact absurd hc htarget
        · exact .inl hc
        · exact absurd hc hmade
      · exact .inr hreplayed
    exact (hstart hmem).2 (hleft (hstart hmem).1)
  · intro hleaves
    by_cases htarget : c ∈ g.dag.history target
    · exact .inl ((h.history c).2 (.inl htarget))
    by_cases hmade : c ∈ r.made
    · exact .inl ((h.history c).2 (.inr (.inr hmade)))
    have hseen : c ∈ g.dag.history start ∧ c ∉ r.dropped := by
      by_contra hseen
      exact hleaves ⟨htarget, hmade, fun hc => by_contra fun hdropped => hseen ⟨hc, hdropped⟩⟩
    rcases (h.cover c).1 (CommitDag.mem_range.2 ⟨hseen.1, htarget⟩) with hc | hc | hc
    · exact .inl ((h.history c).2 (.inr (.inl hc)))
    · exact .inr hc
    · exact absurd hc hseen.2

/-- Of the branch it starts from, a rebase leaves what it drops. -/
theorem leaves_iff_of_mem {target start c : Sha} {r : Rebased} (hc : c ∈ g.dag.history start) :
    Leaves g target start r c ↔ c ∉ g.dag.history target ∧ c ∉ r.made ∧ c ∈ r.dropped := by
  unfold Leaves
  rw [forall_prop_of_true hc]

/-! ## What each step does -/

@[simp] theorem land_head (pushes : List (Option Sha)) : (w.land pushes).head = w.head := rfl
@[simp] theorem land_tracking (pushes : List (Option Sha)) : (w.land pushes).tracking = w.tracking := rfl

/-- What is pushed to a branch does not depend on the clone. -/
theorem land_remote_congr {w' : Clones} (h : w'.remote = w.remote) (pushes : List (Option Sha)) :
    (w'.land pushes).remote = (w.land pushes).remote := by
  unfold Clones.land
  rw [h]

theorem reconcileFetched_frame (tip : Sha) :
    (reconcileFetched g w tip).1.remote = w.remote ∧ (reconcileFetched g w tip).1.tracking = w.tracking := by
  unfold reconcileFetched
  repeat' split
  all_goals exact ⟨rfl, rfl⟩

/-- Reconciling leaves the remote branch alone. -/
theorem reconcile_remote (answer : FetchAnswer) : (reconcileWithRemotePr g answer w).1.remote = w.remote := by
  unfold reconcileWithRemotePr
  split
  · exact (reconcileFetched_frame _).1
  · repeat' split
    all_goals rfl

/-- A fetch that gets the branch moves the lease to it. -/
theorem reconcile_tracking {answer : FetchAnswer} {tip : Sha} (h : fetched answer w = some tip) :
    (reconcileWithRemotePr g answer w).1.tracking = some tip := by
  unfold reconcileWithRemotePr
  rw [h]
  exact (reconcileFetched_frame tip).2

/-- A fetch that gets nothing leaves the clone as it was, and it is not called diverged. -/
theorem reconcile_of_not_fetched {answer : FetchAnswer} (h : fetched answer w = none) :
    (reconcileWithRemotePr g answer w).1 = w ∧ (reconcileWithRemotePr g answer w).2 ≠ .diverged := by
  unfold reconcileWithRemotePr
  rw [h]
  dsimp only
  repeat' split
  all_goals exact ⟨rfl, by simp⟩

/-- With the branch fetched, the clone is behind it, or ahead of it or diverged by the mill's own, or it is
    called diverged. -/
theorem reconcile_head {answer : FetchAnswer} {tip : Sha} (h : fetched answer w = some tip) :
    ((reconcileWithRemotePr g answer w).2 ≠ .diverged ↔ w.head ∈ g.dag.history tip ∨
      tip ∈ g.dag.history w.head ∨ readsOwn g w.head tip = true) ∧
    (reconcileWithRemotePr g answer w).1.head = if w.head ∈ g.dag.history tip then tip else w.head := by
  unfold reconcileWithRemotePr reconcileFetched
  rw [h]
  dsimp only
  by_cases heq : w.head = tip
  · have hself : w.head ∈ g.dag.history tip := heq ▸ CommitDag.self_mem_history w.head
    rw [if_pos heq, if_pos hself]
    exact ⟨⟨fun _ => .inl hself, fun _ => by simp⟩, heq⟩
  rw [if_neg heq]
  by_cases hbehind : w.head ∈ g.dag.history tip
  · rw [if_pos (CommitDag.isAncestor_iff.2 hbehind), if_pos hbehind]
    exact ⟨⟨fun _ => .inl hbehind, fun _ => by simp⟩, rfl⟩
  rw [if_neg (mt CommitDag.isAncestor_iff.1 hbehind), if_neg hbehind]
  by_cases hahead : tip ∈ g.dag.history w.head
  · rw [if_pos (CommitDag.isAncestor_iff.2 hahead)]
    exact ⟨⟨fun _ => .inr (.inl hahead), fun _ => by simp⟩, rfl⟩
  rw [if_neg (mt CommitDag.isAncestor_iff.1 hahead)]
  by_cases hown : readsOwn g w.head tip = true
  · rw [if_pos hown]
    exact ⟨⟨fun _ => .inr (.inr hown), fun _ => by simp⟩, rfl⟩
  rw [if_neg hown]
  refine ⟨⟨fun hne => absurd rfl hne, fun hsome => ?_⟩, rfl⟩
  rcases hsome with hc | hc | hc
  · exact absurd hc hbehind
  · exact absurd hc hahead
  · exact absurd hc hown

theorem leasePasses_iff : leasePasses w = true ↔ ∀ expected, w.tracking = some expected →
    w.remote = some expected := by
  unfold leasePasses
  cases w.tracking <;> simp

/-- **When a push goes out**: the clone was not called diverged, the rebase went through, and the branch is
    where the lease has it. -/
theorem hostPush_eq_some_iff {p : Pushed} : hostPush g rebase run w = some p ↔
    (reconcileWithRemotePr g run.fetch (w.land run.beforeFetch)).2 ≠ .diverged ∧
      run.targetFetched = true ∧ run.pushAnswers = true ∧
      rebase run.target (reconcileWithRemotePr g run.fetch (w.land run.beforeFetch)).1.head = some p.rebased ∧
      p.before = run.remoteAtPush w ∧
      ∀ expected, (reconcileWithRemotePr g run.fetch (w.land run.beforeFetch)).1.tracking = some expected →
        run.remoteAtPush w = some expected := by
  have hremote := reconcile_remote (g := g) (w := w.land run.beforeFetch) run.fetch
  unfold hostPush
  generalize reconcileWithRemotePr g run.fetch (w.land run.beforeFetch) = reconciled at hremote ⊢
  obtain ⟨w', result⟩ := reconciled
  have hpush : (((w'.land run.afterFetch).land run.duringRebase).land run.beforePush).remote =
      run.remoteAtPush w :=
    land_remote_congr (land_remote_congr (land_remote_congr hremote _) _) _
  dsimp only
  by_cases hdiverged : result = .diverged
  · simp [hdiverged]
  rw [if_neg hdiverged]
  cases htarget : run.targetFetched with
  | false => simp
  | true =>
      rw [if_neg (by decide), land_head]
      cases hrebase : rebase run.target w'.head with
      | none => simp
      | some rebased =>
          dsimp only
          have hgo : (run.pushAnswers &&
              leasePasses (((w'.land run.afterFetch).land run.duringRebase).land run.beforePush)) = true ↔
              run.pushAnswers = true ∧ ∀ expected, w'.tracking = some expected →
                run.remoteAtPush w = some expected := by
            rw [Bool.and_eq_true, leasePasses_iff, hpush]
            rfl
          constructor
          · intro h
            split at h
            · rename_i hpasses
              obtain rfl := Option.some.inj h
              exact ⟨hdiverged, rfl, (hgo.1 hpasses).1, rfl, hpush, (hgo.1 hpasses).2⟩
            · cases h
          · rintro ⟨-, -, hanswers, hp, hbefore, hlease⟩
            rw [if_pos (hgo.2 ⟨hanswers, hlease⟩), Option.some.inj hp, hpush, ← hbefore]

/-- A chain keeps what the rebase, from where the reconcile leaves the clone, spares of the branch. -/
theorem keepsHumanCommits_iff_sparesFrom (hrebase : ∀ target start r, rebase target start = some r →
    IsRebase g target start r) :
    KeepsHumanCommits g rebase run w ↔ (run.targetFetched = true → run.pushAnswers = true →
      (reconcileWithRemotePr g run.fetch (w.land run.beforeFetch)).2 ≠ .diverged →
      ∀ tip, run.remoteAtPush w = some tip →
        (∀ expected, (reconcileWithRemotePr g run.fetch (w.land run.beforeFetch)).1.tracking = some expected →
          expected = tip) →
        SparesFrom g rebase run.target (reconcileWithRemotePr g run.fetch (w.land run.beforeFetch)).1.head
          tip) := by
  constructor
  · intro h htarget hanswers hdiverged tip hremote hlease r hr c hc hhuman
    refine (hrebase _ _ _ hr).has_iff.1 ?_
    refine h { before := run.remoteAtPush w, rebased := r } ?_ tip hremote c hc hhuman
    refine hostPush_eq_some_iff.2 ⟨hdiverged, htarget, hanswers, hr, rfl, ?_⟩
    intro expected htracking
    rw [hremote, hlease expected htracking]
  · intro h p hp tip hbefore c hc hhuman
    obtain ⟨hdiverged, htarget, hanswers, hr, hremote, hlease⟩ := hostPush_eq_some_iff.1 hp
    rw [hbefore] at hremote
    refine (hrebase _ _ _ hr).has_iff.2 ?_
    refine h htarget hanswers hdiverged tip hremote.symm ?_ p.rebased hr c hc hhuman
    intro expected htracking
    have hexpected := hlease expected htracking
    rw [← hremote] at hexpected
    exact (Option.some.inj hexpected).symm

/-- **A chain loses no human commit** exactly if it spares them. -/
theorem keepsHumanCommits_iff (hrebase : ∀ target start r, rebase target start = some r →
    IsRebase g target start r) (run : HostPush) (w : Clones) :
    KeepsHumanCommits g rebase run w ↔ Spares g rebase run w := by
  rw [keepsHumanCommits_iff_sparesFrom hrebase, Spares]
  refine imp_congr_right fun _ => imp_congr_right fun _ => ?_
  cases hfetch : fetched run.fetch (w.land run.beforeFetch) with
  | none =>
      -- the clone and its lease are as they were
      obtain ⟨hclone, hdiverged⟩ := reconcile_of_not_fetched (g := g) hfetch
      rw [hclone, forall_prop_of_true hdiverged, land_tracking, land_head]
      refine forall_congr' fun tip => imp_congr_right fun _ => ?_
      cases w.tracking <;> simp
  | some got =>
      -- the lease is what was fetched
      obtain ⟨hdiverged, hhead⟩ := reconcile_head (g := g) hfetch
      rw [hdiverged, hhead, reconcile_tracking hfetch, land_head]
      dsimp only
      have hlease : ∀ tip, (∀ expected, some got = some expected → expected = tip) ↔ got = tip := by simp
      simp only [hlease]
      by_cases hbehind : w.head ∈ g.dag.history got
      · simp only [hbehind, true_or, forall_true_left]
        exact ⟨fun h hremote => h got hremote rfl, fun h tip hremote heq => heq ▸ h (heq ▸ hremote)⟩
      · simp only [hbehind, false_or]
        by_cases hgoes : got ∈ g.dag.history w.head ∨ readsOwn g w.head got = true
        · simp only [hgoes, forall_true_left]
          exact ⟨fun h hremote => h got hremote rfl, fun h tip hremote heq => heq ▸ h (heq ▸ hremote)⟩
        · simp [hgoes]

/-! ## Fetches that fail -/

/-- What `git rebase` makes of a branch that is up to date and has no merges. -/
def upToDate (g : Git) (target head : Sha) : Option Rebased :=
  if target ∈ g.dag.history head ∧ ∀ c ∈ g.dag.range target head, (g.dag.parents c).length ≤ 1 then
    some { tip := head, kept := g.dag.range target head }
  else none

theorem upToDate_isRebase (g : Git) (target start : Sha) (r : Rebased) (h : upToDate g target start = some r) :
    IsRebase g target start r := by
  unfold upToDate at h
  split at h
  · rename_i hup
    obtain rfl := Option.some.inj h
    refine ⟨fun c => by simp, fun c => ?_, by simp⟩
    constructor
    · intro hc
      by_cases htarget : c ∈ g.dag.history target
      · exact .inl htarget
      · exact .inr (.inl (CommitDag.mem_range.2 ⟨hc, htarget⟩))
    · rintro (hc | hc | hc)
      · exact CommitDag.history_subset hup.1 hc
      · exact (CommitDag.mem_range.1 hc).1
      · cases hc
  · cases h

theorem upToDate_dropped {g : Git} {target start : Sha} {r : Rebased} (h : upToDate g target start = some r) :
    r.dropped = [] := by
  unfold upToDate at h
  split at h
  · obtain rfl := Option.some.inj h
    rfl
  · cases h

/-- The fetch goes through, and a branch that is ahead of the clone by a person's commit keeps it. -/
theorem keepsHumanCommits_behind :
    KeepsHumanCommits forked (upToDate forked) { target := "t" }
      { head := "t", tracking := none, remote := some "h" } := by
  refine (keepsHumanCommits_iff (upToDate_isRebase forked) _ _).2 ?_
  intro _ _ _
  rw [if_pos (by decide +kernel)]
  intro r hr c hc _
  rw [leaves_iff_of_mem hc, upToDate_dropped hr]
  simp

/-- Nothing is tracked, the fetch fails, and the push is forced over a person's commit. The fetch goes
    through, the clone is called diverged; a second time the fetch fails, and the push has a lease on that
    commit. -/
theorem hostPush_discards :
    ¬ KeepsHumanCommits forked (upToDate forked) { target := "t", fetch := .fails }
      { head := "m", tracking := none, remote := some "h" } ∧
    reconcileWithRemotePr forked .answers { head := "m", tracking := none, remote := some "h" } =
      ({ head := "m", tracking := some "h", remote := some "h" }, .diverged) ∧
    ¬ KeepsHumanCommits forked (upToDate forked) { target := "t", fetch := .fails }
      { head := "m", tracking := some "h", remote := some "h" } := by
  obtain ⟨hh, hm, -⟩ := forked_history
  have hr : upToDate forked "t" "m" = some { tip := "m", kept := ["m"] } := by decide +kernel
  have hlost : ¬ ({ tip := "m", kept := ["m"] } : Rebased).Has forked "h" := by
    simp [Rebased.Has, hm]
  refine ⟨fun hkeeps => ?_, by decide +kernel, fun hkeeps => ?_⟩
  all_goals
    refine hlost (hkeeps { before := some "h", rebased := _ } ?_ "h" rfl "h" (by simp [hh]) (by decide +kernel))
    exact hostPush_eq_some_iff.2 ⟨by decide +kernel, rfl, rfl, hr, rfl, by decide +kernel⟩

end Scm
end RobotsixMill
