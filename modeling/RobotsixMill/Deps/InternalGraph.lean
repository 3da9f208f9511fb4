import RobotsixMill.Lib.PyText
import RobotsixMill.Lib.Table
import RobotsixMill.Lib.TopologicalOrder

/-!
# `Deps.InternalGraph` — the dependency graph of the registered repositories

`buildInternalDepGraph` reads the git pins of every active repository from its `pyproject.toml` and sorts the
repositories so that one comes after those it pins. `tomllib.loads`, `str.lower` and graphlib's `static_order` are
parameters.

- `Edge` — the edges the code draws: the name of the pinned package, in lower case and with `-` for `_`, is the
  repository's id as it is written;
- `Depends` — the edges by normal forms (runs of `-`, `_` and `.` are one `-`) of both names;
- `dep_graph_ordered_iff` — the repositories are sorted by `Depends` whatever order `static_order` picks, or a cycle of
  it is reported, exactly if no edge of it gets lost that is not a path of the code's edges.
-/

namespace RobotsixMill
namespace Deps
open Lib Relation

/-! ## The pins of one repository -/

/-- `INTERNAL_GIT_HOST`. -/
def INTERNAL_GIT_HOST : String := "github.com/damien-robotsix/"

/-- A TOML value; of the values that are neither texts nor tables only the type matters. -/
inductive Toml
  | str (s : String)
  | table (entries : List (String × Toml))
  | other (typeName : String)

/-- `GitPin`. -/
structure GitPin where
  gitUrl : String
  rev : String
deriving DecidableEq, Repr

/-- What is raised. -/
inductive GraphError
  | tomlDecode (msg : String)
  | attribute (msg : String)
  | cyclicDependency (msg : String)
deriving DecidableEq, Repr

/-- The entries of a table on which `.get` is called. -/
def Toml.entries : Toml → Except GraphError (List (String × Toml))
  | .table entries => .ok entries
  | .str _ => .error (.attribute "'str' object has no attribute 'get'")
  | .other typeName => .error (.attribute s!"'{typeName}' object has no attribute 'get'")

/-- `_normalise`. -/
def normalise (lower : String → String) (name : String) : String :=
  .ofList ((lower name).toList.map fun c => if c = '_' then '-' else c)

/-- The items of `[tool.uv.sources]`; anything but a table has none. -/
def sources (loads : String → Except String (List (String × Toml))) (pyprojectContent : String) :
    Except GraphError (List (String × Toml)) :=
  match loads pyprojectContent with
  | .error msg => .error (.tomlDecode msg)
  | .ok data =>
    match ((data.lookup "tool").getD (.table [])).entries with
    | .error e => .error e
    | .ok tool =>
      match ((tool.lookup "uv").getD (.table [])).entries with
      | .error e => .error e
      | .ok uv =>
        match (uv.lookup "sources").getD (.table []) with
        | .table items => .ok items
        | _ => .ok []

/-- The pin that a source is, if it has the internal host and a `rev`. -/
def gitPin : Toml → Option GitPin
  | .table source =>
    match (source.lookup "git").getD (.str "") with
    | .str gitUrl =>
      if contains gitUrl INTERNAL_GIT_HOST then
        match source.lookup "rev" with
        | some (.str rev) => some ⟨gitUrl, rev⟩
        | _ => none
      else none
    | _ => none
  | _ => none

/-- The loop over the items. -/
def collectPins (lower : String → String) (items : List (String × Toml)) (result : Table String GitPin) :
    Table String GitPin :=
  items.foldl
    (fun result item =>
      match gitPin item.2 with
      | some pin => result.put (normalise lower item.1) pin
      | none => result)
    result

/-- `parse_internal_git_pins`; the ids of the registry are not used. -/
def parseInternalGitPins (loads : String → Except String (List (String × Toml))) (lower : String → String)
    (pyprojectContent : String) (_internalRepoIds : Finset String) : Except GraphError (Table String GitPin) :=
  match sources loads pyprojectContent with
  | .error e => .error e
  | .ok items => .ok (collectPins lower items .empty)

/-! ## The graph -/

/-- `InternalDepGraph`. -/
structure InternalDepGraph where
  pins : List (String × Table String GitPin)
  topoOrder : List String

/-- `static_order` of a graph given by its predecessors; the error is the text of the `CycleError`. -/
abbrev Sorter := List (String × List String) → Except String (List String)

/-- The repositories in both maps. -/
def activeIds (pyprojectMap : Table String String) (registry : Finset String) : List String :=
  pyprojectMap.keys.filter fun repoId => decide (repoId ∈ registry)

/-- The pins of the repositories, one after the other. -/
def readPins (loads : String → Except String (List (String × Toml))) (lower : String → String)
    (pyprojectMap : Table String String) (registry : Finset String) :
    List String → Except GraphError (List (String × Table String GitPin))
  | [] => .ok []
  | repoId :: ids =>
    match parseInternalGitPins loads lower ((pyprojectMap.get repoId).getD "") registry with
    | .error e => .error e
    | .ok pins =>
      match readPins loads lower pyprojectMap registry ids with
      | .error e => .error e
      | .ok rest => .ok ((repoId, pins) :: rest)

/-- Of the pins of each repository, those that are active repositories. -/
def predecessors (ids : List String) (pins : List (String × Table String GitPin)) : List (String × List String) :=
  pins.map fun (repoId, found) => (repoId, found.keys.filter fun depId => decide (depId ∈ ids))

/-- `build_internal_dep_graph`. -/
def buildInternalDepGraph (loads : String → Except String (List (String × Toml))) (lower : String → String)
    (staticOrder : Sorter) (pyprojectMap : Table String String) (registry : Finset String) :
    Except GraphError InternalDepGraph :=
  let ids := activeIds pyprojectMap registry
  match readPins loads lower pyprojectMap registry ids with
  | .error e => .error e
  | .ok pins =>
    match staticOrder (predecessors ids pins) with
    | .error msg => .error (.cyclicDependency msg)
    | .ok order => .ok { pins := pins, topoOrder := order }

/-! ## What the order is for -/

/-- Is the character one that separates the parts of a package name? -/
def isSeparator (c : Char) : Bool := c = '-' || c = '_' || c = '.'

/-- `re.sub(r"[-_.]+", "-", name)`; the flag tells whether a run of separators is on. -/
def collapseSeparators : Bool → List Char → List Char
  | _, [] => []
  | inRun, c :: cs =>
    if isSeparator c then (if inRun then [] else ['-']) ++ collapseSeparators true cs
    else c :: collapseSeparators false cs

/-- The normal form of a package name. -/
def pep503 (lower : String → String) (name : String) : String :=
  lower (.ofList (collapseSeparators false name.toList))

section Graph

variable (loads : String → Except String (List (String × Toml))) (lower : String → String)
  (pyprojectMap : Table String String) (registry : Finset String)

/-- The repository pins a package of that name. -/
def Pins (repoId name : String) : Prop :=
  ∃ items source, sources loads ((pyprojectMap.get repoId).getD "") = .ok items ∧ (name, source) ∈ items ∧
    (gitPin source).isSome = true

/-- `a` pins a package whose normal form is that of the id `b`. -/
def Depends (a b : String) : Prop :=
  a ∈ activeIds pyprojectMap registry ∧ b ∈ activeIds pyprojectMap registry ∧
    ∃ name, Pins loads pyprojectMap a name ∧ pep503 lower name = pep503 lower b

/-- The edges of the code: `a` pins a package whose name is `b` once it went through `_normalise`. -/
def Edge (a b : String) : Prop :=
  a ∈ activeIds pyprojectMap registry ∧ b ∈ activeIds pyprojectMap registry ∧
    ∃ name, Pins loads pyprojectMap a name ∧ normalise lower name = b

/-- The sources of every active repository can be read. -/
def Readable : Prop :=
  ∀ repoId ∈ activeIds pyprojectMap registry,
    ∃ items, sources loads ((pyprojectMap.get repoId).getD "") = .ok items

/-- What the build promises: the cyclic dependency is reported exactly when there is one, and otherwise the order
    lists every active repository once, after those it depends on. -/
def Ordered (result : Except GraphError InternalDepGraph) : Prop :=
  ((∃ msg, result = .error (.cyclicDependency msg)) ∧ Cyclic (Depends loads lower pyprojectMap registry)) ∨
    (¬Cyclic (Depends loads lower pyprojectMap registry) ∧
      ∃ graph, result = .ok graph ∧
        Topological (Depends loads lower pyprojectMap registry) (activeIds pyprojectMap registry) graph.topoOrder)

end Graph

/-- `b` is a predecessor of `a`. -/
def Precedes (preds : List (String × List String)) (a b : String) : Prop := ∃ bs, (a, bs) ∈ preds ∧ b ∈ bs

/-- The nodes of the graph: the keys and their predecessors. -/
def graphNodes (preds : List (String × List String)) : List String := preds.flatMap fun entry => entry.1 :: entry.2

/-- `static_order` raises on the graphs that have a cycle, and returns an order of the others. -/
def SortsGraph (preds : List (String × List String)) (result : Except String (List String)) : Prop :=
  (Cyclic (Precedes preds) ∧ ∃ msg, result = .error msg) ∨
    ∃ order, result = .ok order ∧ Topological (Precedes preds) (graphNodes preds) order

/-- `static_order` sorts every graph. -/
def Correct (staticOrder : Sorter) : Prop := ∀ preds, SortsGraph preds (staticOrder preds)

/-! ## The graph that is sorted -/

theorem mem_keys_collectPins {lower : String → String} {items : List (String × Toml)} {key : String} :
    ∀ {result : Table String GitPin}, key ∈ (collectPins lower items result).keys ↔
      key ∈ result.keys ∨ ∃ name source, (name, source) ∈ items ∧ (gitPin source).isSome = true ∧
        normalise lower name = key := by
  induction items with
  | nil =>
    intro result
    exact ⟨Or.inl, fun h => h.elim id fun ⟨_, _, hmem, _⟩ => absurd hmem List.not_mem_nil⟩
  | cons item items ih =>
    intro result
    obtain ⟨name, source⟩ := item
    show key ∈ (collectPins lower items (match gitPin source with
      | some pin => result.put (normalise lower name) pin
      | none => result)).keys ↔ _
    have hrest : ∀ P : Prop, (P ∨ ∃ name' source', (name', source') ∈ (name, source) :: items ∧
        (gitPin source').isSome = true ∧ normalise lower name' = key) ↔
        (P ∨ (gitPin source).isSome = true ∧ normalise lower name = key) ∨ ∃ name' source', (name', source') ∈ items ∧
          (gitPin source').isSome = true ∧ normalise lower name' = key := by
      intro P
      rw [or_assoc]
      refine or_congr_right ⟨?_, ?_⟩
      · rintro ⟨name', source', hmem, hpin, hkey⟩
        rcases List.mem_cons.1 hmem with heq | hmem
        · cases heq
          exact .inl ⟨hpin, hkey⟩
        · exact .inr ⟨name', source', hmem, hpin, hkey⟩
      · rintro (⟨hpin, hkey⟩ | ⟨name', source', hmem, hpin, hkey⟩)
        · exact ⟨name, source, List.mem_cons_self, hpin, hkey⟩
        · exact ⟨name', source', List.mem_cons_of_mem _ hmem, hpin, hkey⟩
    rw [hrest]
    cases hpin : gitPin source with
    | none =>
      dsimp only
      rw [ih]
      simp
    | some pin =>
      dsimp only
      rw [ih, Table.mem_keys_put]
      refine or_congr_left (or_comm.trans (or_congr_right ?_))
      exact ⟨fun h => ⟨rfl, h.symm⟩, fun h => h.2.symm⟩

section Build

variable {loads : String → Except String (List (String × Toml))} {lower : String → String}
  {pyprojectMap : Table String String} {registry : Finset String}

/-- The pins that are read, where all sources can be. -/
theorem readPins_of_readable (lower : String → String) (registry : Finset String) {ids : List String}
    (h : ∀ repoId ∈ ids, ∃ items, sources loads ((pyprojectMap.get repoId).getD "") = .ok items) :
    ∃ pins, readPins loads lower pyprojectMap registry ids = .ok pins ∧ pins.map Prod.fst = ids ∧
      ∀ a found, (a, found) ∈ pins → ∀ key, key ∈ found.keys ↔
        ∃ name, Pins loads pyprojectMap a name ∧ normalise lower name = key := by
  induction ids with
  | nil => exact ⟨[], rfl, rfl, fun a found hmem => absurd hmem List.not_mem_nil⟩
  | cons repoId ids ih =>
    obtain ⟨items, hitems⟩ := h repoId List.mem_cons_self
    obtain ⟨pins, hpins, hids, hkeys⟩ := ih fun a ha => h a (List.mem_cons_of_mem _ ha)
    unfold readPins parseInternalGitPins
    rw [hitems, hpins]
    refine ⟨_, rfl, congrArg _ hids, fun a found hmem key => ?_⟩
    rcases List.mem_cons.1 hmem with heq | hmem
    · cases heq
      rw [mem_keys_collectPins]
      constructor
      · rintro (hempty | ⟨name, source, hsource, hpin, hkey⟩)
        · exact absurd hempty List.not_mem_nil
        · exact ⟨name, ⟨items, source, hitems, hsource, hpin⟩, hkey⟩
      · rintro ⟨name, ⟨items', source, hitems', hsource, hpin⟩, hkey⟩
        rw [hitems] at hitems'
        cases hitems'
        exact .inr ⟨name, source, hsource, hpin, hkey⟩
    · exact hkeys a found hmem key

theorem sources_error {text : String} {e : GraphError} (h : sources loads text = .error e) (msg : String) :
    e ≠ .cyclicDependency msg := by
  have hentries : ∀ {value : Toml} {e : GraphError}, value.entries = .error e → e ≠ .cyclicDependency msg := by
    intro value e hvalue
    cases value with
    | str s =>
      cases hvalue
      exact GraphError.noConfusion
    | table entries => cases hvalue
    | other typeName =>
      cases hvalue
      exact GraphError.noConfusion
  unfold sources at h
  split at h
  · cases h
    exact GraphError.noConfusion
  · split at h
    · rename_i htool
      cases h
      exact hentries htool
    · split at h
      · rename_i huv
        cases h
        exact hentries huv
      · split at h <;> cases h

/-- Where the sources of a repository cannot be read, an error that reports no cycle is raised. -/
theorem readPins_of_not_readable (lower : String → String) (registry : Finset String) {ids : List String}
    (h : ¬∀ repoId ∈ ids, ∃ items, sources loads ((pyprojectMap.get repoId).getD "") = .ok items) :
    ∃ e, readPins loads lower pyprojectMap registry ids = .error e ∧ ∀ msg, e ≠ .cyclicDependency msg := by
  induction ids with
  | nil => exact absurd (List.forall_mem_nil _) h
  | cons repoId ids ih =>
    unfold readPins parseInternalGitPins
    cases hitems : sources loads ((pyprojectMap.get repoId).getD "") with
    | error e => exact ⟨e, rfl, sources_error hitems⟩
    | ok items =>
      have hrest : ¬∀ a ∈ ids, ∃ items, sources loads ((pyprojectMap.get a).getD "") = .ok items := by
        intro hrest
        refine h fun a ha => ?_
        rcases List.mem_cons.1 ha with rfl | ha
        · exact ⟨items, hitems⟩
        · exact hrest a ha
      obtain ⟨e, he, hcycle⟩ := ih hrest
      rw [he]
      exact ⟨e, rfl, hcycle⟩

/-- The graph that is sorted: the active repositories and the edges of the code. -/
theorem build_of_readable (lower : String → String) (h : Readable loads pyprojectMap registry) :
    ∃ preds, Precedes preds = Edge loads lower pyprojectMap registry ∧
      (∀ a, a ∈ graphNodes preds ↔ a ∈ activeIds pyprojectMap registry) ∧
      ∀ staticOrder : Sorter,
        (∀ msg, staticOrder preds = .error msg →
          buildInternalDepGraph loads lower staticOrder pyprojectMap registry = .error (.cyclicDependency msg)) ∧
        (∀ order, staticOrder preds = .ok order → ∃ graph : InternalDepGraph, graph.topoOrder = order ∧
          buildInternalDepGraph loads lower staticOrder pyprojectMap registry = .ok graph) := by
  obtain ⟨pins, hpins, hids, hkeys⟩ := readPins_of_readable lower registry h
  have hentry : ∀ a bs, (a, bs) ∈ predecessors (activeIds pyprojectMap registry) pins ↔
      ∃ found, (a, found) ∈ pins ∧
        bs = found.keys.filter fun depId => decide (depId ∈ activeIds pyprojectMap registry) := by
    intro a bs
    unfold predecessors
    rw [List.mem_map]
    constructor
    · rintro ⟨⟨a', found⟩, hmem, heq⟩
      cases heq
      exact ⟨found, hmem, rfl⟩
    · rintro ⟨found, hmem, rfl⟩
      exact ⟨(a, found), hmem, rfl⟩
  have hactive : ∀ a, a ∈ activeIds pyprojectMap registry ↔ ∃ found, (a, found) ∈ pins := by
    intro a
    rw [← hids, List.mem_map]
    exact ⟨fun ⟨⟨a', found⟩, hmem, heq⟩ => ⟨found, heq ▸ hmem⟩, fun ⟨found, hmem⟩ => ⟨(a, found), hmem, rfl⟩⟩
  refine ⟨predecessors (activeIds pyprojectMap registry) pins, ?_, fun a => ?_, fun staticOrder => ⟨?_, ?_⟩⟩
  · funext a b
    refine propext ⟨?_, ?_⟩
    · rintro ⟨bs, hbs, hb⟩
      obtain ⟨found, hfound, rfl⟩ := (hentry a bs).1 hbs
      obtain ⟨hkey, hmem⟩ := List.mem_filter.1 hb
      exact ⟨(hactive a).2 ⟨found, hfound⟩, of_decide_eq_true hmem, (hkeys a found hfound b).1 hkey⟩
    · rintro ⟨ha, hb, hname⟩
      obtain ⟨found, hfound⟩ := (hactive a).1 ha
      refine ⟨_, (hentry a _).2 ⟨found, hfound, rfl⟩, ?_⟩
      exact List.mem_filter.2 ⟨(hkeys a found hfound b).2 hname, decide_eq_true hb⟩
  · unfold graphNodes
    rw [List.mem_flatMap]
    constructor
    · rintro ⟨⟨b, bs⟩, hmem, ha⟩
      obtain ⟨found, hfound, rfl⟩ := (hentry b bs).1 hmem
      rcases List.mem_cons.1 ha with rfl | ha
      · exact (hactive a).2 ⟨found, hfound⟩
      · exact of_decide_eq_true (List.mem_filter.1 ha).2
    · intro ha
      obtain ⟨found, hfound⟩ := (hactive a).1 ha
      exact ⟨_, (hentry a _).2 ⟨found, hfound, rfl⟩, List.mem_cons_self⟩
  · intro msg hsort
    unfold buildInternalDepGraph
    dsimp only
    rw [hpins]
    dsimp only
    rw [hsort]
  · intro order hsort
    refine ⟨{ pins := pins, topoOrder := order }, rfl, ?_⟩
    unfold buildInternalDepGraph
    dsimp only
    rw [hpins]
    dsimp only
    rw [hsort]

theorem build_of_not_readable (lower : String → String) (h : ¬Readable loads pyprojectMap registry)
    (staticOrder : Sorter) :
    ∃ e, buildInternalDepGraph loads lower staticOrder pyprojectMap registry = .error e ∧
      ∀ msg, e ≠ .cyclicDependency msg := by
  obtain ⟨e, he, hcycle⟩ := readPins_of_not_readable lower registry h
  refine ⟨e, ?_, hcycle⟩
  unfold buildInternalDepGraph
  dsimp only
  rw [he]

end Build

/-! ## Any correct sort -/

theorem SortsGraph.of_acyclic {preds : List (String × List String)} {result : Except String (List String)}
    (h : SortsGraph preds result) (hacyclic : ¬Cyclic (Precedes preds)) :
    ∃ order, result = .ok order ∧ Topological (Precedes preds) (graphNodes preds) order :=
  h.resolve_left fun hcycle => hacyclic hcycle.1

theorem SortsGraph.of_cyclic {preds : List (String × List String)} {result : Except String (List String)}
    (h : SortsGraph preds result) (hcyclic : Cyclic (Precedes preds)) : ∃ msg, result = .error msg := by
  rcases h with ⟨-, herror⟩ | ⟨order, -, horder⟩
  · exact herror
  · exact absurd hcyclic (not_cyclic_iff.2 horder.acyclic)

theorem mem_graphNodes {preds : List (String × List String)} {a b : String} (h : Precedes preds a b) :
    a ∈ graphNodes preds ∧ b ∈ graphNodes preds := by
  obtain ⟨bs, hbs, hb⟩ := h
  exact ⟨List.mem_flatMap.2 ⟨_, hbs, List.mem_cons_self⟩, List.mem_flatMap.2 ⟨_, hbs, List.mem_cons_of_mem _ hb⟩⟩

theorem exists_sortsGraph (preds : List (String × List String)) : ∃ result, SortsGraph preds result := by
  by_cases hcyclic : Cyclic (Precedes preds)
  · exact ⟨.error "", .inl ⟨hcyclic, "", rfl⟩⟩
  · obtain ⟨order, horder⟩ := exists_topological (not_cyclic_iff.1 hcyclic) fun a b => mem_graphNodes
    exact ⟨.ok order, .inr ⟨order, rfl, horder⟩⟩

/-- Whatever sorts one graph is what some correct sort does to it. -/
theorem exists_correct {preds : List (String × List String)} {result : Except String (List String)}
    (h : SortsGraph preds result) : ∃ staticOrder : Sorter, Correct staticOrder ∧ staticOrder preds = result := by
  classical
  choose sort hsort using exists_sortsGraph
  refine ⟨Function.update sort preds result, fun other => ?_, Function.update_self ..⟩
  by_cases hother : other = preds
  · subst hother
    rw [Function.update_self]
    exact h
  · rw [Function.update_of_ne hother]
    exact hsort other

section Orders

variable {loads : String → Except String (List (String × Toml))} {lower : String → String}
  {pyprojectMap : Table String String} {registry : Finset String}

/-- The orders of the graph that is sorted. -/
theorem topological_edge_iff {preds : List (String × List String)}
    (hprecedes : Precedes preds = Edge loads lower pyprojectMap registry)
    (hnodes : ∀ a, a ∈ graphNodes preds ↔ a ∈ activeIds pyprojectMap registry) (order : List String) :
    Topological (Edge loads lower pyprojectMap registry) (activeIds pyprojectMap registry) order ↔
      Topological (Precedes preds) (graphNodes preds) order := by
  rw [hprecedes]
  exact ⟨fun h => ⟨h.nodup, fun a => (h.mem a).trans (hnodes a).symm, h.before⟩,
    fun h => ⟨h.nodup, fun a => (h.mem a).trans (hnodes a), h.before⟩⟩

/-- A dependency that is kept by every order is a path of the code's edges. -/
theorem path_of_ordered (hreadable : Readable loads pyprojectMap registry)
    (hordered : ∀ staticOrder, Correct staticOrder → Ordered loads lower pyprojectMap registry
      (buildInternalDepGraph loads lower staticOrder pyprojectMap registry))
    (hacyclic : ¬Cyclic (Edge loads lower pyprojectMap registry)) {a b : String}
    (hab : Depends loads lower pyprojectMap registry a b) :
    TransGen (Edge loads lower pyprojectMap registry) a b := by
  obtain ⟨preds, hprecedes, hnodes, hbuild⟩ := build_of_readable lower hreadable
  have hforced : ∀ order, Topological (Edge loads lower pyprojectMap registry)
      (activeIds pyprojectMap registry) order → order.idxOf b < order.idxOf a := by
    intro order horder
    -- some sort picks this order
    obtain ⟨staticOrder, hcorrect, hpicked⟩ :=
      exists_correct (.inr ⟨order, rfl, (topological_edge_iff hprecedes hnodes order).1 horder⟩)
    obtain ⟨graph, rfl, hgraph⟩ := (hbuild staticOrder).2 order hpicked
    rcases hordered staticOrder hcorrect with ⟨⟨msg, hmsg⟩, -⟩ | ⟨-, graph', hgraph', hall⟩
    · rw [hgraph] at hmsg
      cases hmsg
    · rw [hgraph] at hgraph'
      cases hgraph'
      exact hall.before a b hab
  have hactive : ∀ u v, Edge loads lower pyprojectMap registry u v →
      u ∈ activeIds pyprojectMap registry ∧ v ∈ activeIds pyprojectMap registry := fun u v huv => ⟨huv.1, huv.2.1⟩
  have hnot := not_cyclic_iff.1 hacyclic
  obtain ⟨order, horder⟩ := exists_topological hnot hactive
  refine (topological_forces_iff hnot hactive hab.1 hab.2.1 ?_).1 hforced
  rintro rfl
  exact lt_irrefl _ (hforced order horder)

end Orders

/-- **When the order is one of the dependencies.** Whatever order `static_order` picks, the build reports a cyclic
    dependency exactly if there is one and sorts the repositories by their dependencies otherwise, if and only if the
    sources can be read, a cycle of the code's edges comes with one of the dependencies, and without such a cycle every
    dependency is a path of the code's edges. -/
theorem dep_graph_ordered_iff (loads : String → Except String (List (String × Toml))) (lower : String → String)
    (pyprojectMap : Table String String) (registry : Finset String) :
    (∀ staticOrder, Correct staticOrder → Ordered loads lower pyprojectMap registry
        (buildInternalDepGraph loads lower staticOrder pyprojectMap registry)) ↔
      Readable loads pyprojectMap registry ∧
      (Cyclic (Edge loads lower pyprojectMap registry) → Cyclic (Depends loads lower pyprojectMap registry)) ∧
      (¬Cyclic (Edge loads lower pyprojectMap registry) → ∀ a b, Depends loads lower pyprojectMap registry a b →
        TransGen (Edge loads lower pyprojectMap registry) a b) := by
  by_cases hreadable : Readable loads pyprojectMap registry
  · obtain ⟨preds, hprecedes, hnodes, hbuild⟩ := build_of_readable lower hreadable
    constructor
    · intro hordered
      refine ⟨hreadable, fun hcyclic => ?_, fun hacyclic a b hab => path_of_ordered hreadable hordered hacyclic hab⟩
      obtain ⟨staticOrder, hcorrect, -⟩ := exists_correct (exists_sortsGraph preds).choose_spec
      rw [← hprecedes] at hcyclic
      obtain ⟨msg, hmsg⟩ := (hcorrect preds).of_cyclic hcyclic
      rcases hordered staticOrder hcorrect with ⟨-, hdepends⟩ | ⟨-, graph, hgraph, -⟩
      · exact hdepends
      · rw [(hbuild staticOrder).1 msg hmsg] at hgraph
        cases hgraph
    · rintro ⟨-, hcycles, hpaths⟩ staticOrder hcorrect
      by_cases hcyclic : Cyclic (Edge loads lower pyprojectMap registry)
      · obtain ⟨msg, hmsg⟩ := (hcorrect preds).of_cyclic (hprecedes ▸ hcyclic)
        exact .inl ⟨⟨msg, (hbuild staticOrder).1 msg hmsg⟩, hcycles hcyclic⟩
      · obtain ⟨order, hpicked, horder⟩ := (hcorrect preds).of_acyclic (hprecedes ▸ hcyclic)
        obtain ⟨graph, rfl, hgraph⟩ := (hbuild staticOrder).2 order hpicked
        have hedges := (topological_edge_iff hprecedes hnodes graph.topoOrder).2 horder
        have hdepends : Topological (Depends loads lower pyprojectMap registry) (activeIds pyprojectMap registry)
            graph.topoOrder :=
          ⟨hedges.nodup, hedges.mem, fun a b hab => hedges.before_of_path (hpaths hcyclic a b hab)⟩
        exact .inr ⟨not_cyclic_iff.2 hdepends.acyclic, graph, hgraph, hdepends⟩
  · refine ⟨fun hordered => ?_, fun h => absurd h.1 hreadable⟩
    obtain ⟨staticOrder, hcorrect, -⟩ := exists_correct (exists_sortsGraph []).choose_spec
    obtain ⟨e, he, hcycle⟩ := build_of_not_readable lower hreadable staticOrder
    rcases hordered staticOrder hcorrect with ⟨⟨msg, hmsg⟩, -⟩ | ⟨-, graph, hgraph, -⟩
    · rw [he] at hmsg
      exact absurd (Except.error.inj hmsg) (hcycle msg)
    · rw [he] at hgraph
      cases hgraph

/-! ### An id that is not in normal form -/

/-- The sources of an application that pins a library. -/
def appSources : List (String × Toml) :=
  [("my_lib", .table [("git", .str "https://github.com/damien-robotsix/my_lib"), ("rev", .str "abc123")])]

/-- The text of the application's `pyproject.toml`; that of the library is empty. -/
def appText : String :=
  "[tool.uv.sources]\nmy_lib = \x7bgit = \"https://github.com/damien-robotsix/my_lib\", rev = \"abc123\"\x7d\n"

def appLoads (text : String) : Except String (List (String × Toml)) :=
  if text = appText then .ok [("tool", .table [("uv", .table [("sources", .table appSources)])])] else .ok []

def appProjects : Table String String := (Table.empty.put "my-app" appText).put "my_lib" ""

/-- The library's id has an underscore, so the edge to it is lost and the application may come first. -/
theorem underscored_id_unordered :
    ¬∀ staticOrder, Correct staticOrder → Ordered appLoads lower appProjects {"my-app", "my_lib"}
      (buildInternalDepGraph appLoads lower staticOrder appProjects {"my-app", "my_lib"}) := by
  intro hordered
  have hids : activeIds appProjects {"my-app", "my_lib"} = ["my-app", "my_lib"] := by decide
  have happ : sources appLoads ((appProjects.get "my-app").getD "") = .ok appSources := by
    have htext : (appProjects.get "my-app").getD "" = appText := rfl
    have hloads : appLoads appText = .ok [("tool", .table [("uv", .table [("sources", .table appSources)])])] :=
      if_pos rfl
    unfold sources
    rw [htext, hloads]
    rfl
  have hlib : sources appLoads ((appProjects.get "my_lib").getD "") = .ok [] := by
    have htext : (appProjects.get "my_lib").getD "" = "" := rfl
    have hloads : appLoads "" = .ok [] := if_neg (by decide)
    unfold sources
    rw [htext, hloads]
    rfl
  have hnoEdge : ∀ a b, ¬Edge appLoads lower appProjects {"my-app", "my_lib"} a b := by
    rintro a b ⟨ha, hb, name, ⟨items, source, hitems, hmem, -⟩, hname⟩
    rw [hids] at ha hb
    rcases List.mem_pair.1 ha with rfl | rfl
    · rw [happ] at hitems
      cases hitems
      cases List.mem_singleton.1 hmem
      have hnormal : normalise lower "my_lib" = "my-lib" := by decide
      rw [← hname, hnormal] at hb
      exact absurd hb (by decide)
    · rw [hlib] at hitems
      cases hitems
      exact absurd hmem List.not_mem_nil
  have hreadable : Readable appLoads appProjects {"my-app", "my_lib"} := by
    intro repoId hrepo
    rw [hids] at hrepo
    rcases List.mem_pair.1 hrepo with rfl | rfl
    · exact ⟨_, happ⟩
    · exact ⟨_, hlib⟩
  have hacyclic : ¬Cyclic (Edge appLoads lower appProjects {"my-app", "my_lib"}) := by
    rintro ⟨a, ha⟩
    obtain ⟨b, hab, -⟩ := TransGen.head'_iff.1 ha
    exact hnoEdge a b hab
  have hdepends : Depends appLoads lower appProjects {"my-app", "my_lib"} "my-app" "my_lib" := by
    refine ⟨?_, ?_, "my_lib", ⟨appSources, _, happ, List.mem_singleton.2 rfl, by decide⟩, rfl⟩
    · rw [hids]
      exact List.mem_cons_self
    · rw [hids]
      exact List.mem_cons_of_mem _ List.mem_cons_self
  obtain ⟨b, hab, -⟩ := TransGen.head'_iff.1 (path_of_ordered hreadable hordered hacyclic hdepends)
  exact hnoEdge _ b hab

end Deps
end RobotsixMill
