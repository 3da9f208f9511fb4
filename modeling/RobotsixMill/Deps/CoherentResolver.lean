import RobotsixMill.Deps.InternalGraph

/-!
# `Deps.CoherentResolver` — one revision for each shared dependency

`resolveCoherentSet` moves a dependency that several repositories pin to its head on `main`, and leaves every other
pin alone. Where the head is not known it leaves the shared pins alone as well, and they are what they were.

- `Shared` — two repositories pin the dependency;
- `mem_sharedDeps`, `revOf_resolve` — what the two loops compute;
- `coherent_unless_unknown` — the pins of a shared dependency agree if its head is known, and otherwise if they
  agreed before.
-/

namespace RobotsixMill
namespace Deps
open Lib

/-- `CoherentResolution`. -/
structure CoherentResolution where
  perRepoPins : Table String (Table String String)
  sharedDeps : Finset String

namespace InternalDepGraph

variable (depGraph : InternalDepGraph)

/-- `dep_graph.pins`. -/
def pinTable : Table String (Table String GitPin) := .ofPairs depGraph.pins

/-- The pin of a dependency in a repository. -/
def pinOf (repoId depName : String) : Option GitPin := (depGraph.pinTable.get repoId).bind fun pins => pins.get depName

/-- Two repositories pin the dependency. -/
def Shared (depName : String) : Prop :=
  ∃ a b, a ≠ b ∧ (depGraph.pinOf a depName).isSome ∧ (depGraph.pinOf b depName).isSome

/-- All pins of the dependency are at one revision. -/
def PinsAgree (depName : String) : Prop :=
  ∀ a b pin pin', depGraph.pinOf a depName = some pin → depGraph.pinOf b depName = some pin' → pin.rev = pin'.rev

end InternalDepGraph

/-- The revision that a repository is to pin a dependency at. -/
def CoherentResolution.revOf (res : CoherentResolution) (repoId depName : String) : Option String :=
  (res.perRepoPins.get repoId).bind fun targets => targets.get depName

section Resolve

variable (depGraph : InternalDepGraph) (mainHeadShas : Table String String)

/-- `dep_pinners`. -/
def depPinners : Table String (Finset String) :=
  .groups (depGraph.pinTable.rows.flatMap fun row => row.2.keys.map fun depName => (depName, row.1))

/-- `shared_deps`. -/
def sharedDeps : Finset String :=
  (((depPinners depGraph).rows.filter fun row => decide (2 ≤ row.2.card)).map Prod.fst).toFinset

/-- The revision that a pin is to have. -/
def targetRev (depName : String) (pin : GitPin) : String :=
  -- a dependency that a single repository pins is not moved
  if depName ∈ sharedDeps depGraph then
    match mainHeadShas.get depName with
    -- `main` HEAD unknown
    | none => pin.rev
    | some agreed => agreed
  else pin.rev

/-- `targets`. -/
def repoTargets (pins : Table String GitPin) : Table String String :=
  .ofPairs (pins.rows.map fun row => (row.1, targetRev depGraph mainHeadShas row.1 row.2))

/-- `resolve_coherent_set`. -/
def resolveCoherentSet : CoherentResolution where
  perRepoPins := .ofPairs (depGraph.pinTable.rows.map fun row => (row.1, repoTargets depGraph mainHeadShas row.2))
  sharedDeps := sharedDeps depGraph

end Resolve

variable {depGraph : InternalDepGraph} {mainHeadShas : Table String String} {repoId depName : String}

/-! ## The two loops -/

theorem mem_depPinners :
    repoId ∈ ((depPinners depGraph).get depName).getD ∅ ↔ (depGraph.pinOf repoId depName).isSome := by
  unfold depPinners InternalDepGraph.pinOf
  rw [Table.mem_groups, List.mem_flatMap]
  constructor
  · rintro ⟨⟨a, pins⟩, hrow, hpair⟩
    -- the row comes from a key of a pin table, which has a pin behind it
    obtain ⟨dep, hdep, heq⟩ := List.mem_map.1 hpair
    cases heq
    rw [Table.mem_rows.1 hrow, Option.bind_some]
    exact Option.isSome_iff_ne_none.2 ((pins.mem_keys depName).1 hdep)
  · intro h
    obtain ⟨pin, hpin⟩ := Option.isSome_iff_exists.1 h
    obtain ⟨pins, hpins, hget⟩ := Option.bind_eq_some_iff.1 hpin
    have hkey : depName ∈ pins.keys := by
      rw [pins.mem_keys, hget]
      exact Option.some_ne_none pin
    exact ⟨(repoId, pins), Table.mem_rows.2 hpins, List.mem_map.2 ⟨depName, hkey, rfl⟩⟩

/-- **The shared dependencies are found.** -/
theorem mem_sharedDeps : depName ∈ sharedDeps depGraph ↔ depGraph.Shared depName := by
  have hpinned : ∀ repoId, (depGraph.pinOf repoId depName).isSome ↔
      repoId ∈ ((depPinners depGraph).get depName).getD ∅ := fun _ => mem_depPinners.symm
  unfold sharedDeps InternalDepGraph.Shared
  simp only [hpinned, List.mem_toFinset, List.mem_map, List.mem_filter]
  constructor
  · rintro ⟨⟨dep, pinners⟩, ⟨hrow, hcard⟩, rfl⟩
    -- two pinners or more are two repositories
    obtain ⟨a, ha, b, hb, hne⟩ := Finset.one_lt_card.1 (of_decide_eq_true hcard)
    rw [Table.mem_rows.1 hrow]
    exact ⟨a, b, hne, ha, hb⟩
  · rintro ⟨a, b, hne, ha, hb⟩
    cases hget : (depPinners depGraph).get depName with
    | none =>
      rw [hget] at ha
      exact absurd ha (Finset.notMem_empty a)
    | some pinners =>
      rw [hget] at ha hb
      refine ⟨(depName, pinners), ⟨Table.mem_rows.2 hget, decide_eq_true ?_⟩, rfl⟩
      exact Finset.one_lt_card.2 ⟨a, ha, b, hb, hne⟩

/-- Every pin of the graph is moved or kept, and there are no others. -/
theorem revOf_resolve : (resolveCoherentSet depGraph mainHeadShas).revOf repoId depName =
    (depGraph.pinOf repoId depName).map (targetRev depGraph mainHeadShas depName) := by
  unfold CoherentResolution.revOf resolveCoherentSet InternalDepGraph.pinOf
  dsimp only
  rw [Table.get_ofPairs_rows fun _ => repoTargets depGraph mainHeadShas]
  cases depGraph.pinTable.get repoId with
  | none => rfl
  | some pins => exact Table.get_ofPairs_rows (targetRev depGraph mainHeadShas) pins depName

theorem targetRev_of_not_shared (h : ¬ depGraph.Shared depName) (pin : GitPin) :
    targetRev depGraph mainHeadShas depName pin = pin.rev := by
  rw [targetRev, if_neg (mem_sharedDeps.not.2 h)]

theorem targetRev_of_known (h : depGraph.Shared depName) {agreed : String} (hhead : mainHeadShas.get depName = some agreed)
    (pin : GitPin) : targetRev depGraph mainHeadShas depName pin = agreed := by
  rw [targetRev, if_pos (mem_sharedDeps.2 h), hhead]

theorem targetRev_of_unknown (hhead : mainHeadShas.get depName = none) (pin : GitPin) :
    targetRev depGraph mainHeadShas depName pin = pin.rev := by
  rw [targetRev, hhead]
  exact ite_self _

/-! ## Coherence -/

/-- Every repository that pins the dependency is to pin it at one revision. -/
def CoherentResolution.Agrees (res : CoherentResolution) (depName : String) : Prop :=
  ∀ a b rev rev', res.revOf a depName = some rev → res.revOf b depName = some rev' → rev = rev'

/-- The resolution has exactly the pins of the graph. -/
def CoherentResolution.Covers (res : CoherentResolution) (depGraph : InternalDepGraph) : Prop :=
  (∀ repoId, res.perRepoPins.has repoId = depGraph.pinTable.has repoId) ∧
    ∀ repoId depName, (res.revOf repoId depName).isSome = (depGraph.pinOf repoId depName).isSome

/-- Where the head is known the pins of a shared dependency agree; where it is not they do if they did before. -/
theorem agrees_iff (h : depGraph.Shared depName) : (resolveCoherentSet depGraph mainHeadShas).Agrees depName ↔
    (mainHeadShas.get depName = none → depGraph.PinsAgree depName) := by
  unfold CoherentResolution.Agrees InternalDepGraph.PinsAgree
  simp only [revOf_resolve, Option.map_eq_some_iff]
  constructor
  · intro hagrees hhead a b pin pin' hpin hpin'
    rw [← targetRev_of_unknown hhead pin, ← targetRev_of_unknown hhead pin']
    -- without a head the target of a pin is the pin itself
    exact hagrees a b _ _ ⟨pin, hpin, rfl⟩ ⟨pin', hpin', rfl⟩
  · rintro hbefore a b rev rev' ⟨pin, hpin, rfl⟩ ⟨pin', hpin', rfl⟩
    cases hhead : mainHeadShas.get depName with
    -- both are at the head
    | some agreed => rw [targetRev_of_known h hhead, targetRev_of_known h hhead]
    | none =>
      rw [targetRev_of_unknown hhead, targetRev_of_unknown hhead]
      exact hbefore hhead a b pin pin' hpin hpin'

/-- **Coherent pins, where the heads are known.** The resolution has exactly the pins of the graph. A shared
    dependency whose head is known is at that head wherever it is pinned; one whose head is not known keeps its pins,
    which agree exactly if they did. A dependency that is not shared keeps its pin. -/
theorem coherent_unless_unknown (depGraph : InternalDepGraph) (mainHeadShas : Table String String) :
    (resolveCoherentSet depGraph mainHeadShas).Covers depGraph ∧
      (∀ depName, depGraph.Shared depName →
        ((resolveCoherentSet depGraph mainHeadShas).Agrees depName ↔
          (mainHeadShas.get depName = none → depGraph.PinsAgree depName)) ∧
        ∀ repoId pin, depGraph.pinOf repoId depName = some pin →
          (resolveCoherentSet depGraph mainHeadShas).revOf repoId depName =
            some ((mainHeadShas.get depName).getD pin.rev)) ∧
      ∀ repoId depName pin, ¬ depGraph.Shared depName → depGraph.pinOf repoId depName = some pin →
        (resolveCoherentSet depGraph mainHeadShas).revOf repoId depName = some pin.rev := by
  refine ⟨⟨fun repoId => ?_, fun repoId depName => ?_⟩, fun depName hshared => ⟨agrees_iff hshared, ?_⟩, ?_⟩
  · unfold Table.has resolveCoherentSet
    dsimp only
    rw [Table.get_ofPairs_rows fun _ => repoTargets depGraph mainHeadShas, Option.isSome_map]
  · rw [revOf_resolve, Option.isSome_map]
  · intro repoId pin hpin
    rw [revOf_resolve, hpin, Option.map_some]
    cases hhead : mainHeadShas.get depName with
    | some agreed => rw [targetRev_of_known hshared hhead, Option.getD_some]
    | none => rw [targetRev_of_unknown hhead, Option.getD_none]
  · intro repoId depName pin hshared hpin
    rw [revOf_resolve, hpin, Option.map_some, targetRev_of_not_shared hshared]

/-- Two repositories pin one dependency at two revisions. -/
def SPLIT_PINS : InternalDepGraph where
  pins := [("a", .ofPairs [("lib", ⟨"https://github.com/damien-robotsix/lib", "old1"⟩)]),
    ("b", .ofPairs [("lib", ⟨"https://github.com/damien-robotsix/lib", "old2"⟩)])]
  topoOrder := ["lib", "a", "b"]

/-- Its head is not known, and both stay where they are. -/
theorem split_pins_stay :
    ¬ ∀ (depGraph : InternalDepGraph) (mainHeadShas : Table String String),
        (resolveCoherentSet depGraph mainHeadShas).Covers depGraph ∧
          (∀ depName, depGraph.Shared depName → (resolveCoherentSet depGraph mainHeadShas).Agrees depName) ∧
          ∀ repoId depName pin, ¬ depGraph.Shared depName → depGraph.pinOf repoId depName = some pin →
            (resolveCoherentSet depGraph mainHeadShas).revOf repoId depName = some pin.rev := by
  intro h
  have hshared : SPLIT_PINS.Shared "lib" := ⟨"a", "b", by decide, by decide, by decide⟩
  have hagrees := (h SPLIT_PINS .empty).2.1 "lib" hshared "a" "b" "old1" "old2" (by decide) (by decide)
  exact absurd hagrees (by decide)

end Deps
end RobotsixMill
