import Mathlib.Data.List.Nodup
import RobotsixMill.Lib.PyText
import RobotsixMill.Lib.Runs
import RobotsixMill.Lib.Table

/-!
# `Agents.PinBump` — the periodic bump of stale pins

Repositories of the fleet pin others by revision. A pass of the pin-bump runner asks each pinned dependency for
its head and opens, for every pin at another revision, a pull request that bumps it, unless one to that head is
open already. It first compares the heads with those of the pass before: "when the mapping is identical to the
previous pass, nothing moved upstream", and it does nothing.

- `latestMap`, `shortCircuits`, `runPass` — a pass;
- `delivered_applyOneBump_iff`, `PinBumpPass.handledAt_iff` — when a pass handles one pin, and all of them;
- `Handled` — what the remembered heads are taken to say;
- `no_stale_pin_is_forgotten` — the runs in which they say it all along.
-/

namespace RobotsixMill
namespace Agents
open Lib

/-! ## The fleet -/

/-- A pin of `[tool.uv.sources]`. -/
structure GitPin where
  gitUrl : String
  rev : String
deriving DecidableEq, Repr

/-- The open pull request of a branch `mill/pin-bump/<dep>`. -/
structure BumpPr where
  /-- The revision its branch pins. -/
  rev : String
  /-- `_parse_pr_target_rev` of its title. -/
  titleRev : Option String
  mergeable : Option Bool := none
deriving DecidableEq, Repr

/-- An open pull request to `head` that does not conflict. -/
def BumpPr.DeliversTo (head : String) (pr : BumpPr) : Prop := pr.rev = head ∧ pr.mergeable ≠ some false

instance (head : String) (pr : BumpPr) : Decidable (pr.DeliversTo head) := inferInstanceAs (Decidable (_ ∧ _))

/-- The latest head of each dependency, none where `ls-remote` failed. -/
abbrev LatestMap := List (String × Option String)

/-- Dictionaries are equal whatever the order of their entries. -/
def LatestMap.same (a b : LatestMap) : Bool :=
  (a.all fun entry => b.lookup entry.1 == some entry.2) && b.all fun entry => a.lookup entry.1 == some entry.2

/-- A consumer and the name of the dependency. -/
abbrev PinKey := String × String

/-- The fleet, and what the runner remembers. -/
structure Fleet where
  /-- The pins of each repository. -/
  pins : String → Table String GitPin := fun _ => .empty
  prs : PinKey → Option BumpPr := fun _ => none
  /-- `_last_latest_map`. -/
  lastLatestMap : Option LatestMap := none

/-! ## A pass -/

/-- The steps of a bump, once it is decided on. -/
inductive BumpStep
  | clone | pyproject | updateRev | coherence | commit | push | openMergeRequest
deriving DecidableEq, Repr

/-- What a pass meets at one pin. -/
structure BumpAnswers where
  /-- `pr_status` of the branch raises. -/
  lookupFails : Bool := false
  /-- `list_open_prs` lists the pull request, so that its title is known. -/
  titleListed : Bool := true
  /-- `close_pr` or `delete_branch` closes the pull request that is superseded. -/
  closes : Bool := true
  /-- `_inflight_current_count`. -/
  inflight : Nat := 0
  /-- The step that fails. -/
  failsAt : Option BumpStep := none
deriving Repr

/-- A pass of the runner. -/
structure PinBumpPass where
  /-- It returns before it asks for the heads: the rate limit, no token, a cycle among the pins. -/
  returnsEarly : Bool := false
  /-- The topological order of the repositories whose `pyproject.toml` could be fetched. -/
  topoOrder : List String
  nodup : topoOrder.Nodup
  /-- `ls_remote_sha`. -/
  lsRemote : String → Option String
  /-- The repository is in the registry, and there is a token to push to it. -/
  pushes : String → Bool := fun _ => true
  /-- `max_inflight_prs`. -/
  maxInflightPrs : String → Nat := fun _ => 0
  answers : PinKey → BumpAnswers

/-- What becomes of a pin. -/
inductive PinReport
  | unresolved | alreadyAtLatest | lookupFailed | alreadyOpen | atInflightCap | failed (step : BumpStep) | created
deriving DecidableEq, Repr

/-- `_existing_pr_is_current`: a title that is not known or names no revision says nothing. -/
def existingPrIsCurrent (pr : BumpPr) (titleListed : Bool) (latestSha : String) : Bool :=
  match (if titleListed then pr.titleRev else none) with
  | some target => startsWith latestSha target && pr.mergeable != some false
  | none => pr.mergeable != some false

/-- `new_rev[:7]`. -/
def shortRev (rev : String) : String := .ofList (rev.toList.take 7)

/-- The steps from the clone on; a push moves a pull request that is still open. -/
def openBump (a : BumpAnswers) (newRev : String) (pr : Option BumpPr) : Option BumpPr × PinReport :=
  let pushed := pr.map fun pr => { pr with rev := newRev, mergeable := none }
  match a.failsAt with
  | some .openMergeRequest => (pushed, .failed .openMergeRequest)
  | some step => (pr, .failed step)
  | none => (some (pushed.getD { rev := newRev, titleRev := some (shortRev newRev) }), .created)

/-- `_reconcile_and_check_cap` and `_apply_one_bump`, of the pull request that is there. -/
def applyOneBump (a : BumpAnswers) (maxInflightPrs : Nat) (newRev : String) (pr : Option BumpPr) :
    Option BumpPr × PinReport :=
  if a.lookupFails then (pr, .lookupFailed)
  else if pr.any fun pr => existingPrIsCurrent pr a.titleListed newRev then (pr, .alreadyOpen)
  else
    -- a stale one is superseded, before the cap is looked at
    let pr := if a.closes then none else pr
    if 0 < maxInflightPrs ∧ maxInflightPrs ≤ a.inflight then (pr, .atInflightCap) else openBump a newRev pr

/-- `_bump_one_pin`. -/
def bumpOnePin (a : BumpAnswers) (maxInflightPrs : Nat) (pin : GitPin) (latestSha : Option String)
    (pr : Option BumpPr) : Option BumpPr × PinReport :=
  match latestSha with
  | none => (pr, .unresolved)
  | some latestSha =>
    if latestSha = pin.rev then (pr, .alreadyAtLatest) else applyOneBump a maxInflightPrs latestSha pr

namespace PinBumpPass

variable (p : PinBumpPass) (f : Fleet)

/-- The pins of the graph. -/
def graphPins : List (PinKey × GitPin) :=
  p.topoOrder.flatMap fun repoId => (f.pins repoId).rows.map fun row => ((repoId, row.1), row.2)

/-- `_resolve_latest_shas`: each dependency is asked once. -/
def latestMap : LatestMap :=
  (p.graphPins f).foldl (fun latest entry =>
    if (latest.lookup entry.2.gitUrl).isSome then latest
    else latest ++ [(entry.2.gitUrl, p.lsRemote entry.2.gitUrl)]) []

/-- "upstream SHAs unchanged since last pass — nothing to bump". -/
def shortCircuits : Bool := !p.returnsEarly && f.lastLatestMap.any (p.latestMap f).same

/-- `_consumer_counts`. -/
def consumerCount (depName : String) : Nat := ((p.graphPins f).filter fun entry => entry.1.2 == depName).length

/-- The dependencies with the most waiting consumers first. -/
def ordered (repoId : String) : List (String × GitPin) :=
  (f.pins repoId).rows.mergeSort fun a b =>
    let na := p.consumerCount f a.1
    let nb := p.consumerCount f b.1
    nb < na || na == nb && a.1 ≤ b.1

/-- The pins the pass comes to, in order. -/
def turns : List (PinKey × GitPin) :=
  (p.topoOrder.filter p.pushes).flatMap fun repoId =>
    (p.ordered f repoId).map fun row => ((repoId, row.1), row.2)

/-- What the pass makes of one pin. -/
def bump (key : PinKey) (pin : GitPin) (pr : Option BumpPr) : Option BumpPr × PinReport :=
  bumpOnePin (p.answers key) (p.maxInflightPrs key.1) pin (((p.latestMap f).lookup pin.gitUrl).getD none) pr

/-- `_bump_pins_for_repos`: the pull requests it leaves. -/
def bumpPinsForRepos : PinKey → Option BumpPr :=
  (p.turns f).foldl (fun prs turn => Function.update prs turn.1 (p.bump f turn.1 turn.2 (prs turn.1)).1) f.prs

/-- `run_pin_bump_pass`. -/
def runPass : Fleet :=
  if p.returnsEarly || p.shortCircuits f then f
  else { f with prs := p.bumpPinsForRepos f, lastLatestMap := some (p.latestMap f) }

end PinBumpPass

/-! ## What becomes of one pin -/

/-- The pull request of the pin, if there is one, is open to this head and does not conflict. -/
def Delivered (pr : Option BumpPr) (head : String) : Prop := ∃ open', pr = some open' ∧ open'.DeliversTo head

/-- The pass looks at the pull request and leaves it, or cannot look. -/
def BumpAnswers.leaves (a : BumpAnswers) (pr : Option BumpPr) (head : String) : Bool :=
  a.lookupFails || pr.any fun pr => existingPrIsCurrent pr a.titleListed head

/-- The cap does not bind. -/
def BumpAnswers.hasRoom (a : BumpAnswers) (maxInflightPrs : Nat) : Prop :=
  ¬ (0 < maxInflightPrs ∧ maxInflightPrs ≤ a.inflight)

/-- The pin is handled in the pass: there is its pull request, and the pass does not close it; or it is replaced or
    opened, every step being done, all but the last where the push moves one that could not be closed. -/
def BumpAnswers.Settles (a : BumpAnswers) (maxInflightPrs : Nat) (pr : Option BumpPr) (head : String) : Prop :=
  (Delivered pr head ∧ (a.leaves pr head = true ∨ a.closes = false)) ∨
    (a.leaves pr head = false ∧ a.hasRoom maxInflightPrs ∧
      (a.failsAt = none ∨ (a.failsAt = some .openMergeRequest ∧ a.closes = false ∧ pr ≠ none)))

theorem delivered_some {pr : BumpPr} {head : String} : Delivered (some pr) head ↔ pr.DeliversTo head := by
  constructor
  · rintro ⟨_, heq, h⟩
    obtain rfl := Option.some.inj heq
    exact h
  · intro h
    exact ⟨pr, rfl, h⟩

theorem not_delivered_none {head : String} : ¬ Delivered none head := by
  rintro ⟨_, heq, -⟩
  cases heq

/-- A pull request just pushed or opened is to the head. -/
theorem delivered_openBump_iff (a : BumpAnswers) (head : String) (pr : Option BumpPr) :
    Delivered (openBump a head pr).1 head ↔
      a.failsAt = none ∨ (a.failsAt = some .openMergeRequest ∧ pr ≠ none) ∨ Delivered pr head := by
  have hpushed : ∀ x : BumpPr, Delivered (some { x with rev := head, mergeable := none }) head := fun x =>
    delivered_some.2 ⟨rfl, fun h => (by cases h)⟩
  unfold openBump
  dsimp only
  cases hstep : a.failsAt with
  | none =>
    refine ⟨fun _ => .inl rfl, fun _ => ?_⟩
    cases pr with
    | none => exact delivered_some.2 ⟨rfl, fun h => (by cases h)⟩
    | some x => exact hpushed x
  | some step =>
    cases pr with
    | none =>
      cases step <;> simp [not_delivered_none]
    | some x =>
      cases step <;> simp [hpushed x]

theorem delivered_applyOneBump_iff (a : BumpAnswers) (maxInflightPrs : Nat) (head : String) (pr : Option BumpPr) :
    Delivered (applyOneBump a maxInflightPrs head pr).1 head ↔ a.Settles maxInflightPrs pr head := by
  unfold BumpAnswers.Settles
  cases hleaves : a.leaves pr head with
  | true =>
    have hsame : (applyOneBump a maxInflightPrs head pr).1 = pr := by
      unfold BumpAnswers.leaves at hleaves
      unfold applyOneBump
      cases hlookup : a.lookupFails with
      | true => rfl
      | false =>
        rw [hlookup, Bool.false_or] at hleaves
        rw [hleaves]
        rfl
    rw [hsame]
    simp
  | false =>
    have hbump : applyOneBump a maxInflightPrs head pr =
        if 0 < maxInflightPrs ∧ maxInflightPrs ≤ a.inflight then (if a.closes then none else pr, .atInflightCap)
        else openBump a head (if a.closes then none else pr) := by
      unfold BumpAnswers.leaves at hleaves
      rw [Bool.or_eq_false_iff] at hleaves
      unfold applyOneBump
      rw [hleaves.1, hleaves.2]
      rfl
    rw [hbump]
    unfold BumpAnswers.hasRoom
    by_cases hcap : 0 < maxInflightPrs ∧ maxInflightPrs ≤ a.inflight
    · rw [if_pos hcap]
      cases a.closes with
      | true => simp [hcap, not_delivered_none]
      | false => simp [hcap]
    · rw [if_neg hcap, delivered_openBump_iff]
      cases a.closes with
      | true => simp [hcap, not_delivered_none]
      | false =>
        simp only [hcap, not_false_eq_true, true_and]
        tauto

/-! ## What a pass leaves -/

namespace PinBumpPass

variable (p : PinBumpPass) (f : Fleet)

theorem mem_turns {repoId depName : String} {pin : GitPin} :
    ((repoId, depName), pin) ∈ p.turns f ↔
      repoId ∈ p.topoOrder ∧ p.pushes repoId = true ∧ (f.pins repoId).get depName = some pin := by
  simp only [turns, List.mem_flatMap, List.mem_filter, List.mem_map, Prod.mk.injEq]
  constructor
  · rintro ⟨r, ⟨hr, hpushes⟩, row, hrow, ⟨rfl, rfl⟩, rfl⟩
    exact ⟨hr, hpushes, Table.mem_rows.1 (List.mem_mergeSort.1 hrow)⟩
  · rintro ⟨hr, hpushes, hpin⟩
    refine ⟨repoId, ⟨hr, hpushes⟩, (depName, pin), ?_, ⟨rfl, rfl⟩, rfl⟩
    exact List.mem_mergeSort.2 (Table.mem_rows.2 hpin)

/-- The pass comes to a pin once. -/
theorem nodup_turns : ((p.turns f).map Prod.fst).Nodup := by
  unfold turns
  rw [List.map_flatMap, List.nodup_flatMap]
  constructor
  · intro repoId _
    rw [List.map_map]
    have hkeys : ((p.ordered f repoId).map Prod.fst).Nodup := by
      refine ((List.mergeSort_perm _ _).map Prod.fst).nodup_iff.2 ?_
      rw [Table.map_fst_rows]
      exact (f.pins repoId).nodup
    have hpair := hkeys.map (f := fun depName => (repoId, depName)) (fun a b h => (Prod.mk.inj h).2)
    rwa [List.map_map] at hpair
  · refine (p.nodup.filter _).imp ?_
    intro a b hab key ha hb
    dsimp only at ha hb
    rw [List.map_map, List.mem_map] at ha hb
    obtain ⟨_, -, rfl⟩ := ha
    obtain ⟨_, -, hkey⟩ := hb
    exact hab (congrArg Prod.fst hkey).symm

/-- What the pass leaves of the pull request of a pin. -/
theorem bumpPinsForRepos_apply {repoId depName : String} {pin : GitPin} (h : (f.pins repoId).get depName = some pin) :
    p.bumpPinsForRepos f (repoId, depName) =
      if repoId ∈ p.topoOrder ∧ p.pushes repoId = true then
        (p.bump f (repoId, depName) pin (f.prs (repoId, depName))).1
      else f.prs (repoId, depName) := by
  unfold bumpPinsForRepos
  split
  · rename_i hcomes
    have hturn := (p.mem_turns f).2 ⟨hcomes.1, hcomes.2, h⟩
    exact foldl_update_of_mem (fun key pin pr => (p.bump f key pin pr).1) (p.nodup_turns f) hturn f.prs
  · rename_i hcomes
    refine foldl_update_of_not_mem (fun key pin pr => (p.bump f key pin pr).1) ?_ f.prs
    intro hmem
    obtain ⟨⟨key, pin'⟩, hturn, rfl⟩ := List.mem_map.1 hmem
    have hmem' := (p.mem_turns f).1 hturn
    exact hcomes ⟨hmem'.1, hmem'.2.1⟩

end PinBumpPass

/-- Every pin at another revision than the head known of its dependency has its pull request. -/
def Fleet.HandledAt (f : Fleet) (latest : LatestMap) : Prop :=
  ∀ repoId depName pin head, (f.pins repoId).get depName = some pin →
    latest.lookup pin.gitUrl = some (some head) → pin.rev ≠ head → Delivered (f.prs (repoId, depName)) head

/-- What the remembered heads are taken to say: that there is nothing to bump. -/
def Fleet.Handled (f : Fleet) : Prop := ∀ latest, f.lastLatestMap = some latest → f.HandledAt latest

/-- A pass handles every pin at another revision than the head it knows: it comes to the pin and settles it, or
    leaves it with the pull request it has. -/
def PinBumpPass.HandlesAll (p : PinBumpPass) (f : Fleet) : Prop :=
  ∀ repoId depName pin head, (f.pins repoId).get depName = some pin →
    (p.latestMap f).lookup pin.gitUrl = some (some head) → pin.rev ≠ head →
      if repoId ∈ p.topoOrder ∧ p.pushes repoId = true then
        (p.answers (repoId, depName)).Settles (p.maxInflightPrs repoId) (f.prs (repoId, depName)) head
      else Delivered (f.prs (repoId, depName)) head

/-- **A pass that works** leaves every pin handled exactly if it handles all. -/
theorem PinBumpPass.handledAt_iff (p : PinBumpPass) (f : Fleet) :
    Fleet.HandledAt { f with prs := p.bumpPinsForRepos f, lastLatestMap := some (p.latestMap f) } (p.latestMap f) ↔
      p.HandlesAll f := by
  refine forall_congr' fun repoId => forall_congr' fun depName => forall_congr' fun pin => forall_congr' fun head => ?_
  refine forall_congr' fun hpin => forall_congr' fun hhead => forall_congr' fun hstale => ?_
  show Delivered (p.bumpPinsForRepos f (repoId, depName)) head ↔ _
  rw [p.bumpPinsForRepos_apply f hpin]
  split
  · have hbump : p.bump f (repoId, depName) pin (f.prs (repoId, depName)) =
        applyOneBump (p.answers (repoId, depName)) (p.maxInflightPrs repoId) head (f.prs (repoId, depName)) := by
      unfold PinBumpPass.bump bumpOnePin
      rw [hhead]
      show (if head = pin.rev then _ else _) = _
      rw [if_neg (Ne.symm hstale)]
    rw [hbump]
    exact delivered_applyOneBump_iff _ _ _ _
  · exact Iff.rfl

theorem mem_of_lookup_eq_some {latest : LatestMap} {url : String} {v : Option String}
    (h : latest.lookup url = some v) : (url, v) ∈ latest := by
  obtain ⟨l₁, l₂, rfl, -⟩ := List.lookup_eq_some_iff.1 h
  exact List.mem_append_right l₁ List.mem_cons_self

/-- Equal dictionaries have the same entries. -/
theorem LatestMap.lookup_of_same {a b : LatestMap} (h : a.same b = true) (url : String) :
    a.lookup url = b.lookup url := by
  unfold same at h
  rw [Bool.and_eq_true, List.all_eq_true, List.all_eq_true] at h
  obtain ⟨hab, hba⟩ := h
  cases ha : a.lookup url with
  | some v =>
    exact (beq_iff_eq.1 (hab (url, v) (mem_of_lookup_eq_some ha))).symm
  | none =>
    cases hb : b.lookup url with
    | none => rfl
    | some v =>
      have heq := beq_iff_eq.1 (hba (url, v) (mem_of_lookup_eq_some hb))
      rw [ha] at heq
      exact heq

theorem Fleet.handledAt_congr {f : Fleet} {a b : LatestMap} (h : a.same b = true) :
    f.HandledAt a ↔ f.HandledAt b := by
  unfold HandledAt
  simp only [LatestMap.lookup_of_same h]

/-! ## Runs -/

inductive FleetEvent
  | pass (p : PinBumpPass)
  /-- The pins and the pull requests change between passes: merged, closed, in conflict. -/
  | changes (pins : String → Table String GitPin) (prs : PinKey → Option BumpPr)

def fleetStep (f : Fleet) : FleetEvent → Fleet → Prop
  | .pass p, f' => f' = p.runPass f
  | .changes pins prs, f' => f' = { f with pins := pins, prs := prs }

/-- The event goes as it should: a pass that does nothing because the heads are those it remembers has nothing to
    do, and what is remembered is true afterwards. -/
def FleetEvent.Right (f : Fleet) : FleetEvent → Prop
  | .pass p => (p.shortCircuits f = true → f.HandledAt (p.latestMap f)) ∧ (p.runPass f).Handled
  | .changes pins prs => Fleet.Handled { f with pins := pins, prs := prs }

/-- What it has to find for that: a pass that works handles every pin, and between passes no pin that is not at
    its remembered head loses its pull request. -/
def FleetEvent.Handles (f : Fleet) : FleetEvent → Prop
  | .pass p => p.returnsEarly = false → p.shortCircuits f = false → p.HandlesAll f
  | .changes pins prs =>
    ∀ latest, f.lastLatestMap = some latest → Fleet.HandledAt { f with pins := pins, prs := prs } latest

/-- A pass that finds the heads it remembers does what is right when nothing is forgotten. -/
theorem handledAt_of_shortCircuits {p : PinBumpPass} {f : Fleet} (hf : f.Handled) (h : p.shortCircuits f = true) :
    f.HandledAt (p.latestMap f) := by
  unfold PinBumpPass.shortCircuits at h
  rw [Bool.and_eq_true, Option.any_eq_true] at h
  obtain ⟨-, latest, hlatest, hsame⟩ := h
  exact (Fleet.handledAt_congr hsame).2 (hf latest hlatest)

/-- **One event.** -/
theorem FleetEvent.right_iff {f : Fleet} (hf : f.Handled) (e : FleetEvent) : e.Right f ↔ e.Handles f := by
  cases e with
  | changes pins prs => exact Iff.rfl
  | pass p =>
    show (_ ∧ (p.runPass f).Handled) ↔ (_ → _ → p.HandlesAll f)
    rw [and_iff_right (handledAt_of_shortCircuits hf)]
    unfold PinBumpPass.runPass
    cases hearly : p.returnsEarly with
    | true => simp [hf]
    | false =>
      cases hshort : p.shortCircuits f with
      | true => simp [hf]
      | false =>
        rw [← p.handledAt_iff f]
        constructor
        · intro h _ _
          exact h _ rfl
        · intro h latest hlatest
          obtain rfl := Option.some.inj hlatest
          exact h rfl rfl

theorem fleetStep_handled {f f' : Fleet} {e : FleetEvent} (hright : e.Right f) (h : fleetStep f e f') : f'.Handled := by
  cases e with
  | pass p =>
    subst h
    exact hright.2
  | changes pins prs =>
    subst h
    exact hright

/-- **No stale pin is forgotten** in exactly the runs in which each pass that works handles every stale pin it
    knows the head of, and none of those that wait for a pull request to be merged loses it. -/
theorem no_stale_pin_is_forgotten (l : List FleetEvent) (f : Fleet) :
    Run (Guarded FleetEvent.Right fleetStep) {} l f ↔ Run (Guarded FleetEvent.Handles fleetStep) {} l f := by
  apply Run.guarded_congr (I := Fleet.Handled)
  · intro f e f' _ hright h
    exact fleetStep_handled hright h
  · intro f e hf
    exact FleetEvent.right_iff hf e
  · intro latest h
    cases h

/-! ### A pass that fails, and the passes after it -/

/-- `mill` pins a dependency at a revision that is behind. -/
def stalePins : String → Table String GitPin := fun repoId =>
  if repoId = "mill" then Table.empty.put "llmio" { gitUrl := "https://forge/llmio", rev := "aaaaaaa" } else .empty

/-- A pass of the fleet, all well but for the step that fails, if one does. -/
def passOver (failsAt : Option BumpStep) : PinBumpPass where
  topoOrder := ["mill"]
  nodup := List.nodup_singleton _
  lsRemote := fun _ => some "bbbbbbb"
  answers := fun _ => { failsAt := failsAt }

/-- The clone fails in the first pass; the second finds the heads unchanged, and there is no pull request. -/
theorem failed_bump_is_not_tried_again :
    ¬ ∀ (l : List FleetEvent) (f : Fleet) (p : PinBumpPass), Run fleetStep {} l f →
      p.shortCircuits f = true → f.HandledAt (p.latestMap f) := by
  intro hclaim
  have hrun : Run fleetStep {} [.changes stalePins fun _ => none, .pass (passOver (some .clone))]
      ((passOver (some .clone)).runPass { pins := stalePins }) := .cons rfl (.single rfl)
  obtain ⟨pr, hpr, -⟩ := hclaim _ _ (passOver none) hrun (by decide +kernel) "mill" "llmio"
    { gitUrl := "https://forge/llmio", rev := "aaaaaaa" } "bbbbbbb" (by decide +kernel) (by decide +kernel)
    (by decide)
  have hnone : ((passOver (some .clone)).runPass { pins := stalePins }).prs ("mill", "llmio") = none := by
    decide +kernel
  rw [hnone] at hpr
  cases hpr

end Agents
end RobotsixMill
