import RobotsixMill.Agents.BoundedResumes
import RobotsixMill.Lib.Kosaraju
import RobotsixMill.Lib.Runs

/-!
# `Agents.Deadlocks` — the cycles of blocked tickets

The runner finds the tickets that wait for each other in a circle as the strongly connected components of the
waits-for graph with two members or more. It leaves those tickets alone and comments on each of them. It looks at one
board at a time, so that a circle through two boards goes unseen.

- `WellFormed.findsComponents` — the runner's two searches are those of `Lib.Kosaraju`, and find the components;
- `mem_edges_build` — the edges of the runner's graph are who waits for whom;
- `leavesOnCycle_scan` — the tickets on cycles of their board are left alone;
- `reportedOnce_step` — no ticket gets a second comment about its cycle on a board.
-/

namespace RobotsixMill
namespace Agents
open RobotsixMill.Core Lib Service

namespace WaitsFor

/-! ## The graph -/

/-- The nodes of a graph. -/
def nodes (g : WaitsFor) : List TicketId := g.map Prod.fst

/-- A dict of sets: no key twice, no neighbour twice, and every neighbour is a key. -/
structure WellFormed (g : WaitsFor) : Prop where
  nodup : g.nodes.Nodup
  edges_nodup : ∀ n, (g.edges n).Nodup
  closed : ∀ n, ∀ m ∈ g.edges n, m ∈ g.nodes

theorem edges_of_mem {g : WaitsFor} (hnodup : g.nodes.Nodup) {row : TicketId × List TicketId} (hrow : row ∈ g) :
    g.edges row.1 = row.2 := by
  induction g with
  | nil => exact absurd hrow List.not_mem_nil
  | cons first g ih =>
    obtain ⟨hfirst, hrest⟩ := List.nodup_cons.1 hnodup
    unfold edges
    rcases List.mem_cons.1 hrow with rfl | hmem
    · have hfound : (row :: g).find? (fun r => r.1 = row.1) = some row := List.find?_cons_of_pos (by simp)
      rw [hfound]
      rfl
    · have hne : first.1 ≠ row.1 := fun heq => hfirst (List.mem_map.2 ⟨row, hmem, heq.symm⟩)
      have hskip : (first :: g).find? (fun r => r.1 = row.1) = g.find? fun r => r.1 = row.1 :=
        List.find?_cons_of_neg (by simpa using hne)
      rw [hskip]
      exact ih hrest hmem

theorem edges_of_notMem {g : WaitsFor} {n : TicketId} (h : n ∉ g.nodes) : g.edges n = [] := by
  have hnone : g.find? (fun row => row.1 = n) = none := by
    rw [List.find?_eq_none]
    intro row hrow heq
    exact h (List.mem_map.2 ⟨row, hrow, of_decide_eq_true heq⟩)
  unfold edges
  rw [hnone]
  rfl

@[simp] theorem nodes_add (g : WaitsFor) (a b : TicketId) : (g.add a b).nodes = g.nodes := by
  unfold nodes add
  rw [List.map_map]
  apply List.map_congr_left
  intro row _
  show (if row.1 = a ∧ b ∉ row.2 then (row.1, row.2 ++ [b]) else row).1 = row.1
  split <;> rfl

theorem edges_add (g : WaitsFor) (a b n : TicketId) : (g.add a b).edges n =
    if n = a ∧ n ∈ g.nodes ∧ b ∉ g.edges n then g.edges n ++ [b] else g.edges n := by
  have hkeys : ∀ row : TicketId × List TicketId,
      (if row.1 = a ∧ b ∉ row.2 then (row.1, row.2 ++ [b]) else row).1 = row.1 := by
    intro row
    split <;> rfl
  have hfind : (g.add a b).find? (fun row => row.1 = n) = (g.find? fun row => row.1 = n).map
      fun row => if row.1 = a ∧ b ∉ row.2 then (row.1, row.2 ++ [b]) else row := by
    unfold add
    rw [List.find?_map]
    congr 2
    funext row
    rw [Function.comp_apply, hkeys]
  by_cases hmem : n ∈ g.nodes
  · obtain ⟨row, hrow, hn⟩ := List.mem_map.1 hmem
    unfold edges at hfind ⊢
    rw [hfind]
    cases hfound : g.find? (fun row => row.1 = n) with
    | none =>
      rw [List.find?_eq_none] at hfound
      exact absurd (decide_eq_true hn) (hfound row hrow)
    | some found =>
      have hkey := List.find?_some hfound
      have hfirst : found.1 = n := of_decide_eq_true hkey
      show (if found.1 = a ∧ b ∉ found.2 then (found.1, found.2 ++ [b]) else found).2 =
        if n = a ∧ n ∈ g.nodes ∧ b ∉ found.2 then found.2 ++ [b] else found.2
      rw [hfirst]
      by_cases hadds : n = a ∧ b ∉ found.2
      · rw [if_pos hadds, if_pos ⟨hadds.1, hmem, hadds.2⟩]
      · rw [if_neg hadds, if_neg fun h => hadds ⟨h.1, h.2.2⟩]
  · have hmem' : n ∉ (g.add a b).nodes := by rw [nodes_add]; exact hmem
    rw [if_neg fun h => hmem h.2.1, edges_of_notMem hmem, edges_of_notMem hmem']

theorem mem_edges_add {g : WaitsFor} {a b n m : TicketId} :
    m ∈ (g.add a b).edges n ↔ m ∈ g.edges n ∨ (n ∈ g.nodes ∧ (n, m) = (a, b)) := by
  rw [edges_add, Prod.mk.injEq]
  by_cases hadds : n = a ∧ n ∈ g.nodes ∧ b ∉ g.edges n
  · rw [if_pos hadds, List.mem_append, List.mem_singleton]
    simp [hadds.1 ▸ hadds.2.1, hadds.1]
  · rw [if_neg hadds]
    refine ⟨.inl, fun h => ?_⟩
    rcases h with h | ⟨hn, rfl, rfl⟩
    · exact h
    · by_contra hm
      exact hadds ⟨rfl, hn, hm⟩

theorem edges_nodup_add {g : WaitsFor} (h : ∀ n, (g.edges n).Nodup) (a b n : TicketId) :
    ((g.add a b).edges n).Nodup := by
  rw [edges_add]
  split
  · rename_i hadds
    exact List.nodup_append.2 ⟨h n, List.nodup_singleton b, fun x hx y hy heq => by
      rw [heq, List.mem_singleton.1 hy] at hx
      exact hadds.2.2 hx⟩
  · exact h n

/-- A graph with edges added, one after the other. -/
def addAll (g : WaitsFor) (es : List (TicketId × TicketId)) : WaitsFor := es.foldl (fun g e => g.add e.1 e.2) g

@[simp] theorem nodes_addAll (g : WaitsFor) (es : List (TicketId × TicketId)) : (g.addAll es).nodes = g.nodes := by
  unfold addAll
  induction es generalizing g with
  | nil => rfl
  | cons e es ih => rw [List.foldl_cons, ih, nodes_add]

theorem mem_edges_addAll {g : WaitsFor} {es : List (TicketId × TicketId)} {n m : TicketId} :
    m ∈ (g.addAll es).edges n ↔ m ∈ g.edges n ∨ (n ∈ g.nodes ∧ (n, m) ∈ es) := by
  unfold addAll
  induction es generalizing g with
  | nil => simp
  | cons e es ih =>
    rw [List.foldl_cons, ih, mem_edges_add, nodes_add, List.mem_cons]
    tauto

theorem edges_nodup_addAll {g : WaitsFor} (h : ∀ n, (g.edges n).Nodup) (es : List (TicketId × TicketId)) :
    ∀ n, ((g.addAll es).edges n).Nodup := by
  unfold addAll
  induction es generalizing g with
  | nil => exact h
  | cons e es ih => exact ih (edges_nodup_add h e.1 e.2)

/-- The nodes without their edges. -/
def bare (ids : List TicketId) : WaitsFor := ids.map fun id => (id, [])

@[simp] theorem nodes_bare (ids : List TicketId) : (bare ids).nodes = ids := by
  unfold nodes bare
  rw [List.map_map]
  exact List.map_id' ids

@[simp] theorem edges_bare (ids : List TicketId) (n : TicketId) : (bare ids).edges n = [] := by
  unfold edges bare
  rw [List.find?_map]
  cases ids.find? ((fun row : TicketId × List TicketId => decide (row.1 = n)) ∘ fun id => (id, [])) <;> rfl

/-! ### Built and turned round -/

/-- The edges that a ticket declares. -/
def declared (ids : List TicketId) (t : TicketId × Ticket) : List (TicketId × TicketId) :=
  ((parseDependsOnStr t.2.dependsOn).filter fun dep => dep ∈ ids).map (fun dep => (t.1, dep)) ++
    ((parseDependsOnStr t.2.unblocks).filter fun target => target ∈ ids).map fun target => (target, t.1)

theorem build_eq (tickets : List (TicketId × Ticket)) : build tickets =
    (bare (tickets.map Prod.fst)).addAll (tickets.flatMap (declared (tickets.map Prod.fst))) := by
  unfold build addAll
  rw [List.foldl_flatMap]
  dsimp only
  apply List.foldl_ext
  intro g t _
  rw [declared, List.foldl_append, List.foldl_map, List.foldl_map]

theorem transpose_eq (g : WaitsFor) :
    g.transpose = (bare g.nodes).addAll (g.flatMap fun row => row.2.map fun dep => (dep, row.1)) := by
  unfold transpose addAll bare nodes
  rw [List.foldl_flatMap, List.map_map]
  apply List.foldl_ext
  intro t row _
  rw [List.foldl_map]

/-- One ticket waits for another: it depends on it, or the other unblocks it. -/
def Waits (tickets : List (TicketId × Ticket)) (a b : TicketId) : Prop :=
  a ∈ tickets.map Prod.fst ∧ b ∈ tickets.map Prod.fst ∧
    ((∃ t, (a, t) ∈ tickets ∧ b ∈ parseDependsOnStr t.dependsOn) ∨
      ∃ t, (b, t) ∈ tickets ∧ a ∈ parseDependsOnStr t.unblocks)

/-- **The edges of the graph are who waits for whom.** -/
theorem mem_edges_build {tickets : List (TicketId × Ticket)} {a b : TicketId} :
    b ∈ (build tickets).edges a ↔ Waits tickets a b := by
  rw [build_eq, mem_edges_addAll, edges_bare, nodes_bare, Waits, List.mem_flatMap]
  simp only [declared, List.mem_append, List.mem_map, List.mem_filter, decide_eq_true_eq, Prod.mk.injEq,
    List.not_mem_nil, false_or]
  have hids : ∀ {t : TicketId × Ticket}, t ∈ tickets → ∃ row ∈ tickets, row.1 = t.1 := fun ht => ⟨_, ht, rfl⟩
  constructor
  · rintro ⟨ha, t, ht, ⟨dep, ⟨hdep, hin⟩, rfl, rfl⟩ | ⟨target, ⟨htarget, hin⟩, rfl, rfl⟩⟩
    · exact ⟨ha, hin, .inl ⟨t.2, ht, hdep⟩⟩
    · exact ⟨ha, hids ht, .inr ⟨t.2, ht, htarget⟩⟩
  · rintro ⟨ha, hb, ⟨t, ht, hdep⟩ | ⟨t, ht, htarget⟩⟩
    · exact ⟨ha, _, ht, .inl ⟨b, ⟨hdep, hb⟩, rfl, rfl⟩⟩
    · exact ⟨ha, _, ht, .inr ⟨a, ⟨htarget, ha⟩, rfl, rfl⟩⟩

theorem wellFormed_build {tickets : List (TicketId × Ticket)} (h : (tickets.map Prod.fst).Nodup) :
    (build tickets).WellFormed where
  nodup := by
    rw [build_eq, nodes_addAll, nodes_bare]
    exact h
  edges_nodup := by
    rw [build_eq]
    apply edges_nodup_addAll
    intro n
    rw [edges_bare]
    exact List.nodup_nil
  closed n m hm := by
    rw [build_eq, nodes_addAll, nodes_bare]
    exact (mem_edges_build.1 hm).2.1

/-- The transpose lists the predecessors. -/
theorem WellFormed.reverses {g : WaitsFor} (h : g.WellFormed) :
    Kosaraju.Reverses g.edges g.transpose.edges g.nodes where
  mem_iff a ha b := by
    rw [transpose_eq, mem_edges_addAll, edges_bare, nodes_bare, List.mem_flatMap]
    simp only [List.mem_map, Prod.mk.injEq, List.not_mem_nil, false_or]
    constructor
    · rintro ⟨-, row, hrow, dep, hdep, rfl, rfl⟩
      refine ⟨List.mem_map.2 ⟨row, hrow, rfl⟩, ?_⟩
      rw [edges_of_mem h.nodup hrow]
      exact hdep
    · rintro ⟨hb, hedge⟩
      obtain ⟨row, hrow, rfl⟩ := List.mem_map.1 hb
      rw [edges_of_mem h.nodup hrow] at hedge
      exact ⟨ha, row, hrow, a, hedge, rfl, rfl⟩
  nodup := by
    rw [transpose_eq]
    apply edges_nodup_addAll
    intro n
    rw [edges_bare]
    exact List.nodup_nil

/-! ### The two searches -/

theorem finish_eq (g : WaitsFor) (fuel : Nat) (stack : List (TicketId × List TicketId))
    (found : List TicketId × List TicketId) : g.finish fuel stack found = Kosaraju.finish g.edges fuel stack found := by
  induction fuel generalizing stack found with
  | zero => rfl
  | succ fuel ih =>
    cases stack with
    | nil => rfl
    | cons top stack =>
      obtain ⟨node, it⟩ := top
      obtain ⟨seen, order⟩ := found
      rw [finish, Kosaraju.finish]
      cases it.dropWhile fun nxt => nxt ∈ seen with
      | nil => exact ih _ _
      | cons nxt rest => exact ih _ _

theorem collectComponent_eq (g : WaitsFor) (fuel : Nat) (stack : List TicketId)
    (found : List TicketId × List TicketId) :
    g.collectComponent fuel stack found = Kosaraju.collect g.edges fuel stack found := by
  induction fuel generalizing stack found with
  | zero => rfl
  | succ fuel ih =>
    cases stack with
    | nil => rfl
    | cons node stack =>
      obtain ⟨comp, assigned⟩ := found
      exact ih _ _

/-- `_strongly_connected_components`, stopped after so many steps of each search. -/
def componentsWithin (g : WaitsFor) (steps steps' : Nat) : List (List TicketId) :=
  let order := (g.foldl (fun found row =>
    if row.1 ∈ found.1 then found else g.finish steps [row] (row.1 :: found.1, found.2)) ([], [])).2
  (order.reverse.foldl (fun found node =>
    if node ∈ found.2 then found
    else
      let collected := g.transpose.collectComponent steps' [node] ([], node :: found.2)
      (found.1 ++ [collected.1], collected.2)) ([], [])).1

theorem componentsWithin_eq {g : WaitsFor} (hnodup : g.nodes.Nodup) (steps steps' : Nat) :
    g.componentsWithin steps steps' =
      (Kosaraju.components g.transpose.edges steps' (Kosaraju.finishOrder g.edges steps g.nodes).reverse).1 := by
  have horder : (g.foldl (fun found row =>
      if row.1 ∈ found.1 then found else g.finish steps [row] (row.1 :: found.1, found.2)) ([], [])).2 =
      Kosaraju.finishOrder g.edges steps g.nodes := by
    unfold Kosaraju.finishOrder nodes
    rw [List.foldl_map]
    apply congrArg Prod.snd
    apply List.foldl_ext
    intro found row hrow
    rw [finish_eq, edges_of_mem hnodup hrow]
  unfold componentsWithin Kosaraju.components
  rw [horder]
  simp only [collectComponent_eq]

/-- One ticket waits for another by way of others, or of none. -/
def Reaches (g : WaitsFor) : TicketId → TicketId → Prop := Relation.ReflTransGen fun a b => b ∈ g.edges a

/-- The components are a partition of the nodes, two nodes share one if and only if each is reachable from the other,
    and more steps would change nothing. -/
structure FindsComponents (g : WaitsFor) : Prop where
  terminates : ∀ steps steps', 2 * g.length + 1 ≤ steps → g.length + 1 ≤ steps' →
    g.componentsWithin steps steps' = g.components
  partition : g.components.flatten.Perm g.nodes
  ne_nil : ∀ comp ∈ g.components, comp ≠ []
  strong : ∀ a ∈ g.nodes, ∀ b ∈ g.nodes,
    (∃ comp ∈ g.components, a ∈ comp ∧ b ∈ comp) ↔ g.Reaches a b ∧ g.Reaches b a

theorem WellFormed.findsComponents {g : WaitsFor} (h : g.WellFormed) : g.FindsComponents := by
  obtain ⟨comps, hperm, hne, hstrong, hrun⟩ :=
    Kosaraju.components_spec h.nodup (fun a _ b hb => h.closed a b hb) h.reverses
  have hlength : g.nodes.length = g.length := List.length_map ..
  have hwithin : ∀ steps steps', 2 * g.length + 1 ≤ steps → g.length + 1 ≤ steps' →
      g.componentsWithin steps steps' = comps := by
    intro steps steps' hsteps hsteps'
    rw [componentsWithin_eq h.nodup]
    exact hrun steps steps' (by omega) (by omega)
  have hcomponents : g.components = comps := hwithin _ _ (Nat.le_refl _) (Nat.le_refl _)
  constructor
  · intro steps steps' hsteps hsteps'
    rw [hwithin steps steps' hsteps hsteps', hcomponents]
  · rw [hcomponents]
    exact hperm
  · rw [hcomponents]
    exact hne
  · rw [hcomponents]
    exact hstrong

/-! ### Deadlocks -/

/-- The ticket lies on a waits-for cycle of at least two of the tickets. -/
def OnCycle (tickets : List (TicketId × Ticket)) (tid : TicketId) : Prop :=
  ∃ c : Cycle TicketId, c.Nodup ∧ 2 ≤ c.length ∧ tid ∈ c ∧ c.Chain (Waits tickets)

theorem onCycle_iff {tickets : List (TicketId × Ticket)} {tid : TicketId} : OnCycle tickets tid ↔
    ∃ other, other ≠ tid ∧ (build tickets).Reaches tid other ∧ (build tickets).Reaches other tid := by
  have hedges : (fun a b => b ∈ (build tickets).edges a) = Waits tickets := by
    funext a b
    exact propext mem_edges_build
  unfold OnCycle Reaches
  rw [hedges]
  exact Kosaraju.exists_cycle_iff

/-- A node that another one reaches is a ticket of the graph, if it is another. -/
theorem WellFormed.mem_of_reaches {g : WaitsFor} (h : g.WellFormed) {a b : TicketId} (hab : g.Reaches a b)
    (hne : b ≠ a) : b ∈ g.nodes := by
  cases hab with
  | refl => exact absurd rfl hne
  | tail _ hedge => exact h.closed _ _ hedge

/-- **The members of the components of two and more are the tickets on cycles.** -/
theorem mem_deadlocks_iff {tickets : List (TicketId × Ticket)} (h : (tickets.map Prod.fst).Nodup) {tid : TicketId}
    (htid : tid ∈ tickets.map Prod.fst) : tid ∈ (deadlocks tickets).flatten ↔ OnCycle tickets tid := by
  have hwell := wellFormed_build h
  have hfinds := hwell.findsComponents
  have hnodes : (build tickets).nodes = tickets.map Prod.fst := by rw [build_eq, nodes_addAll, nodes_bare]
  have hnodup : (build tickets).components.flatten.Nodup := hfinds.partition.nodup_iff.2 hwell.nodup
  have hmem : ∀ comp ∈ (build tickets).components, ∀ a ∈ comp, a ∈ (build tickets).nodes := fun comp hcomp a ha =>
    hfinds.partition.subset (List.mem_flatten.2 ⟨comp, hcomp, ha⟩)
  rw [onCycle_iff, List.mem_flatten]
  constructor
  · rintro ⟨comp, hcomp, ha⟩
    obtain ⟨hcomp, hlength⟩ := List.mem_filter.1 hcomp
    have hcompNodup : comp.Nodup := (List.nodup_flatten.1 hnodup).1 comp hcomp
    obtain ⟨other, hother, hne⟩ : ∃ other ∈ comp, other ≠ tid := by
      by_contra hnone
      have hall : ∀ other ∈ comp, other = tid := fun other hother => by
        by_contra hne
        exact hnone ⟨other, hother, hne⟩
      have hle : comp.length ≤ 1 := by
        rw [List.eq_replicate_of_mem hall, List.nodup_replicate] at hcompNodup
        exact hcompNodup
      have htwo := of_decide_eq_true hlength
      omega
    exact ⟨other, hne, (hfinds.strong tid (hmem comp hcomp tid ha) other (hmem comp hcomp other hother)).1
      ⟨comp, hcomp, ha, hother⟩⟩
  · rintro ⟨other, hne, hto, hback⟩
    have hother := hwell.mem_of_reaches hto hne
    obtain ⟨comp, hcomp, ha, hb⟩ := (hfinds.strong tid (hnodes ▸ htid) other hother).2 ⟨hto, hback⟩
    have hpair : [tid, other].Nodup := List.nodup_cons.2
      ⟨fun hmem => hne (List.mem_singleton.1 hmem).symm, List.nodup_singleton other⟩
    have hsub : [tid, other] ⊆ comp := by
      intro a hmem
      rcases List.mem_pair.1 hmem with rfl | rfl
      · exact ha
      · exact hb
    exact ⟨comp, List.mem_filter.2 ⟨hcomp, decide_eq_true (List.subperm_of_subset hpair hsub).length_le⟩, ha⟩

end WaitsFor

/-! ## A pass -/

/-- The tickets of a board are listed once each. -/
theorem nodup_listBlocked (board : BoardId) (σ : Mill) : ((listBlocked board σ).map Prod.fst).Nodup := by
  have hrows : (σ.records.rows.map Prod.fst).Nodup := by
    rw [Table.map_fst_rows]
    exact σ.records.nodup
  have hkeys : ((σ.records.rows.filter fun row =>
      decide (row.1.1 = board) && decide (row.2.ticket.state = .blocked)).map Prod.fst).Nodup :=
    (List.filter_sublist.map _).nodup hrows
  have hids : (((σ.records.rows.filter fun row =>
      decide (row.1.1 = board) && decide (row.2.ticket.state = .blocked)).map Prod.fst).map Prod.snd).Nodup := by
    refine hkeys.map_on ?_
    intro k hk k' hk' heq
    obtain ⟨row, hrow, rfl⟩ := List.mem_map.1 hk
    obtain ⟨row', hrow', rfl⟩ := List.mem_map.1 hk'
    have hboard := (Bool.and_eq_true_iff.1 (List.mem_filter.1 hrow).2).1
    have hboard' := (Bool.and_eq_true_iff.1 (List.mem_filter.1 hrow').2).1
    exact Prod.ext ((of_decide_eq_true hboard).trans (of_decide_eq_true hboard').symm) heq
  unfold listBlocked
  rw [List.map_map]
  rw [List.map_map] at hids
  exact ((List.mergeSort_perm _ _).map _).nodup_iff.2 hids

theorem mem_listBlocked {board : BoardId} {σ : Mill} {tid : TicketId} {t : Ticket} : (tid, t) ∈ listBlocked board σ ↔
    ∃ r, σ.records.get (board, tid) = some r ∧ r.ticket = t ∧ t.state = .blocked := by
  unfold listBlocked
  simp only [List.mem_map, List.mem_mergeSort, List.mem_filter, Bool.and_eq_true, decide_eq_true_eq, Prod.mk.injEq]
  constructor
  · rintro ⟨⟨⟨b, id⟩, r⟩, ⟨hrow, rfl, hblocked⟩, rfl, rfl⟩
    exact ⟨r, Table.mem_rows.1 hrow, rfl, hblocked⟩
  · rintro ⟨r, hget, rfl, hblocked⟩
    exact ⟨((board, tid), r), ⟨Table.mem_rows.2 hget, rfl, hblocked⟩, rfl, rfl⟩

/-- A pass leaves those blocked tickets of the board alone that lie on a cycle of the board. -/
theorem leavesOnCycle_scan (env : Env) (board : BoardId) (boards : List BoardId) (p : Pass) (σ : Mill) :
    ∀ t ∈ listBlocked board σ, t.1 ∉ (p.scan env board boards σ).2.waiting.map Listed.id ↔
      WaitsFor.OnCycle (listBlocked board σ) t.1 := by
  intro t ht
  rw [← WaitsFor.mem_deadlocks_iff (nodup_listBlocked board σ) (List.mem_map.2 ⟨t, ht, rfl⟩)]
  have hwaiting : (p.scan env board boards σ).2.waiting.map Listed.id =
      ((listBlocked board σ).filter fun t => decide (t.1 ∉ (deadlocks (listBlocked board σ)).flatten)).map
        Prod.fst := by
    unfold Pass.scan
    rw [List.map_map]
    rfl
  rw [hwaiting, List.mem_map, not_iff_comm]
  constructor
  · intro hnot
    exact ⟨t, List.mem_filter.2 ⟨ht, decide_eq_true hnot⟩, rfl⟩
  · rintro ⟨t', ht', heq⟩
    rw [← heq]
    exact of_decide_eq_true (List.mem_filter.1 ht').2

/-! ### Cycles through several boards -/

/-- One blocked ticket waits for another, on whatever boards: it depends on it, or the other unblocks it. -/
def BlockedOn (σ : Mill) (a b : Key) : Prop :=
  ∃ r r', σ.records.get a = some r ∧ r.ticket.state = .blocked ∧
    σ.records.get b = some r' ∧ r'.ticket.state = .blocked ∧
    (b.2 ∈ parseDependsOnStr r.ticket.dependsOn ∨ a.2 ∈ parseDependsOnStr r'.ticket.unblocks)

/-- The same, between tickets of one board. -/
def BlockedOnBoard (board : BoardId) (σ : Mill) (a b : Key) : Prop := BlockedOn σ a b ∧ a.1 = board ∧ b.1 = board

/-- The ticket lies on a cycle of at least two tickets that wait for each other. -/
def Deadlocked (waits : Key → Key → Prop) (k : Key) : Prop :=
  ∃ c : Cycle Key, c.Nodup ∧ 2 ≤ c.length ∧ k ∈ c ∧ c.Chain waits

/-- A pass leaves exactly those blocked tickets of the board alone that lie on a cycle of blocked tickets. -/
def SkipsDeadlocked (board : BoardId) (σ : Mill) (p : Pass) : Prop :=
  ∀ t ∈ listBlocked board σ, t.1 ∉ p.waiting.map Listed.id ↔ Deadlocked (BlockedOn σ) (board, t.1)

/-- The blocked tickets of the board that lie on a cycle lie on one within the board. -/
def CyclesOnBoard (board : BoardId) (σ : Mill) : Prop :=
  ∀ tid, Deadlocked (BlockedOn σ) (board, tid) → Deadlocked (BlockedOnBoard board σ) (board, tid)

theorem waits_listBlocked {board : BoardId} {σ : Mill} {a b : TicketId} :
    WaitsFor.Waits (listBlocked board σ) a b ↔ BlockedOn σ (board, a) (board, b) := by
  have hids : ∀ {tid}, tid ∈ (listBlocked board σ).map Prod.fst ↔
      ∃ r, σ.records.get (board, tid) = some r ∧ r.ticket.state = .blocked := by
    intro tid
    constructor
    · intro hmem
      obtain ⟨⟨id, t⟩, ht, rfl⟩ := List.mem_map.1 hmem
      obtain ⟨r, hget, rfl, hblocked⟩ := mem_listBlocked.1 ht
      exact ⟨r, hget, hblocked⟩
    · rintro ⟨r, hget, hblocked⟩
      exact List.mem_map.2 ⟨(tid, r.ticket), mem_listBlocked.2 ⟨r, hget, rfl, hblocked⟩, rfl⟩
  unfold WaitsFor.Waits BlockedOn
  rw [hids, hids]
  constructor
  · rintro ⟨⟨r, hr, hblocked⟩, ⟨r', hr', hblocked'⟩, ⟨t, ht, hdep⟩ | ⟨t, ht, htarget⟩⟩
    · obtain ⟨_, hget, rfl, -⟩ := mem_listBlocked.1 ht
      obtain rfl := Option.some.inj (hr.symm.trans hget)
      exact ⟨r, r', hr, hblocked, hr', hblocked', .inl hdep⟩
    · obtain ⟨_, hget, rfl, -⟩ := mem_listBlocked.1 ht
      obtain rfl := Option.some.inj (hr'.symm.trans hget)
      exact ⟨r, r', hr, hblocked, hr', hblocked', .inr htarget⟩
  · rintro ⟨r, r', hr, hblocked, hr', hblocked', hdep | htarget⟩
    · exact ⟨⟨r, hr, hblocked⟩, ⟨r', hr', hblocked'⟩, .inl ⟨_, mem_listBlocked.2 ⟨r, hr, rfl, hblocked⟩, hdep⟩⟩
    · exact ⟨⟨r, hr, hblocked⟩, ⟨r', hr', hblocked'⟩,
        .inr ⟨_, mem_listBlocked.2 ⟨r', hr', rfl, hblocked'⟩, htarget⟩⟩

/-- **The runner's cycles are those within the board.** -/
theorem onCycle_listBlocked_iff {board : BoardId} {σ : Mill} {tid : TicketId} :
    WaitsFor.OnCycle (listBlocked board σ) tid ↔ Deadlocked (BlockedOnBoard board σ) (board, tid) := by
  unfold WaitsFor.OnCycle Deadlocked
  rw [Kosaraju.exists_cycle_iff, Kosaraju.exists_cycle_iff]
  have hto : ∀ {a b}, Relation.ReflTransGen (WaitsFor.Waits (listBlocked board σ)) a b →
      Relation.ReflTransGen (BlockedOnBoard board σ) (board, a) (board, b) :=
    fun h => h.lift (fun id => (board, id)) fun _ _ hwaits => ⟨waits_listBlocked.1 hwaits, rfl, rfl⟩
  have hback : ∀ {k k' : Key}, Relation.ReflTransGen (BlockedOnBoard board σ) k k' →
      Relation.ReflTransGen (WaitsFor.Waits (listBlocked board σ)) k.2 k'.2 := by
    refine fun h => h.lift Prod.snd ?_
    rintro ⟨_, a⟩ ⟨_, b⟩ ⟨hwaits, rfl, rfl⟩
    exact waits_listBlocked.2 hwaits
  constructor
  · rintro ⟨other, hne, hthere, hhome⟩
    exact ⟨(board, other), fun heq => hne (Prod.ext_iff.1 heq).2, hto hthere, hto hhome⟩
  · rintro ⟨⟨b, other⟩, hne, hthere, hhome⟩
    refine ⟨other, fun heq => hne ?_, hback hthere, hback hhome⟩
    -- the last ticket of a walk within the board is one of the board
    rcases Relation.ReflTransGen.cases_tail hthere with heq' | ⟨_, -, -, -, hboard⟩
    · exact heq'
    · exact Prod.ext hboard heq

theorem Deadlocked.of_board {board : BoardId} {σ : Mill} {k : Key} (h : Deadlocked (BlockedOnBoard board σ) k) :
    Deadlocked (BlockedOn σ) k := by
  unfold Deadlocked at h ⊢
  rw [Kosaraju.exists_cycle_iff] at h ⊢
  obtain ⟨other, hne, hthere, hhome⟩ := h
  exact ⟨other, hne, hthere.lift id fun _ _ hwaits => hwaits.1, hhome.lift id fun _ _ hwaits => hwaits.1⟩

/-- A ticket on a cycle is blocked. -/
theorem Deadlocked.mem_listBlocked {σ : Mill} {board : BoardId} {tid : TicketId}
    (h : Deadlocked (BlockedOn σ) (board, tid)) : ∃ t, (tid, t) ∈ listBlocked board σ := by
  unfold Deadlocked at h
  rw [Kosaraju.exists_cycle_iff] at h
  obtain ⟨other, hne, hthere, -⟩ := h
  rcases Relation.ReflTransGen.cases_head hthere with heq | ⟨_, ⟨r, -, hget, hblocked, -⟩, -⟩
  · exact absurd heq.symm hne
  · exact ⟨r.ticket, Agents.mem_listBlocked.2 ⟨r, hget, rfl, hblocked⟩⟩

/-- **The tickets on cycles are left alone exactly where the cycles stay on the board.** -/
theorem skipsDeadlocked_iff (env : Env) (board : BoardId) (boards : List BoardId) (p : Pass) (σ : Mill) :
    SkipsDeadlocked board σ (p.scan env board boards σ).2 ↔ CyclesOnBoard board σ := by
  have hscan := leavesOnCycle_scan env board boards p σ
  constructor
  · intro hskips tid hdead
    obtain ⟨t, ht⟩ := hdead.mem_listBlocked
    exact onCycle_listBlocked_iff.1 ((hscan (tid, t) ht).1 ((hskips (tid, t) ht).2 hdead))
  · intro hwithin t ht
    rw [hscan t ht, onCycle_listBlocked_iff]
    exact ⟨Deadlocked.of_board, hwithin t.1⟩

/-! ## The comments -/

/-- A comment of the runner about a cycle. -/
def isCycleComment (c : Comment) : Bool :=
  decide (c.author = "blocked-auto-resume") && startsWith c.body CYCLE_MARKER

def cycleComments (cs : List Comment) : Nat := cs.countP isCycleComment

/-- No record has two of them. -/
def ReportedOnce (σ : Mill) : Prop := σ.records.AllRows fun _ r => cycleComments r.comments ≤ 1

/-- What others do: they neither delete nor write such a comment, and a record that appears on a board has none, or
    those it had elsewhere. -/
def KeepsCycleComments (σ τ : Mill) : Prop :=
  ∀ k r', τ.records.get k = some r' →
    match σ.records.get k with
    | some r => cycleComments r'.comments = cycleComments r.comments
    | none => cycleComments r'.comments = 0 ∨
        ∃ k₀ r₀, σ.records.get k₀ = some r₀ ∧ cycleComments r'.comments = cycleComments r₀.comments

/-- A pass of the runner goes on, or anything else happens: a call, a change by another program. -/
inductive CycleAct
  | advance (cfg : AutoResumeSettings) (p : Pass)
  | elsewhere

def CycleStep (env : Env) (σ : Mill) : CycleAct → Mill → Prop
  | .advance cfg p, τ => τ = (p.advance env cfg σ).1
  | .elsewhere, τ => KeepsCycleComments σ τ

/-- One member gets a comment if it has none. -/
theorem ReportedOnce.member {env : Env} {board : BoardId} {note : String} {σ : Mill} {tid : TicketId}
    (h : ReportedOnce σ) : ReportedOnce (escalateMember env board note σ tid).1 := by
  unfold escalateMember addComment fetched
  cases hfetch : fetch env board σ tid with
  | error e => exact h
  | ok found =>
    obtain ⟨k, r⟩ := found
    dsimp only
    by_cases hany : (r.comments.any fun c => startsWith c.body CYCLE_MARKER) = true
    · rw [if_pos hany]
      exact h
    · rw [if_neg hany]
      have hnone : cycleComments r.comments = 0 := by
        apply List.countP_eq_zero.2
        intro c hc hcycle
        exact hany (List.any_eq_true.2 ⟨c, hc, (Bool.and_eq_true_iff.1 hcycle).2⟩)
      apply Table.AllRows.put h
      show (r.comments ++ [_]).countP isCycleComment ≤ 1
      rw [List.countP_append, show r.comments.countP isCycleComment = 0 from hnone, Nat.zero_add]
      exact List.countP_le_length

/-- The members of a component, one after the other. -/
theorem ReportedOnce.members {env : Env} {board : BoardId} {note : String} (tids : List TicketId)
    {done : Mill × Nat} (h : ReportedOnce done.1) : ReportedOnce (escalateMembers env board note tids done).1 := by
  induction tids generalizing done with
  | nil => exact h
  | cons tid tids ih => exact ih h.member

/-- The components of a board. -/
theorem ReportedOnce.cycles {env : Env} {board : BoardId} (comps : List (List TicketId)) {done : Mill × Nat}
    (h : ReportedOnce done.1) : ReportedOnce (escalateCycles env board comps done).1 := by
  induction comps generalizing done with
  | nil => exact h
  | cons comp comps ih => exact ih (h.members comp)

/-- A resume writes a comment of its own, in the operator's name. -/
theorem ReportedOnce.resume {env : Env} {σ : Mill} (h : ReportedOnce σ) (svc : BoardId) (tid : TicketId)
    (note : String) : ReportedOnce (resumeBlocked env svc tid note σ).1 := by
  cases hfetch : fetch env svc σ tid with
  | error e =>
    unfold resumeBlocked
    rw [hfetch]
    exact h
  | ok found =>
    obtain ⟨k, r⟩ := found
    cases hrefused : resumeRefusal tid r.ticket with
    | some e =>
      unfold resumeBlocked
      simp only [hfetch, hrefused]
      exact h
    | none =>
      obtain ⟨cid, eventNote, hrecords⟩ := records_resumeBlocked note hfetch hrefused
      unfold ReportedOnce
      rw [hrecords]
      apply Table.AllRows.put h
      have hkept := h k r (get_of_fetch hfetch).2
      unfold resumeRecord
      dsimp only
      split
      · exact hkept
      · unfold cycleComments at hkept ⊢
        rw [List.countP_append, List.countP_cons_of_neg (by simp [isCycleComment]), List.countP_nil]
        exact hkept

/-- **One step** leaves every ticket with at most one comment. -/
theorem reportedOnce_step {env : Env} {σ τ : Mill} {act : CycleAct} (h : ReportedOnce σ)
    (hstep : CycleStep env σ act τ) : ReportedOnce τ := by
  cases act with
  | advance cfg p =>
    obtain rfl := hstep
    unfold Pass.advance
    split
    · rename_i t resumeNote _
      have hresumed := @ReportedOnce.resume env σ h p.board t.id resumeNote
      unfold Pass.resume
      dsimp only
      split
      · rename_i hresume
        rw [hresume] at hresumed
        exact hresumed
      · rename_i hresume
        rw [hresume] at hresumed
        exact hresumed
    · exact h
    · exact h
    · exact h.cycles _
    · exact h
  | elsewhere =>
    intro k r' hget
    have hkept := hstep k r' hget
    cases hold : σ.records.get k with
    | some r =>
      rw [hold] at hkept
      exact hkept.trans_le (h k r hold)
    | none =>
      rw [hold] at hkept
      rcases hkept with hzero | ⟨k₀, r₀, hget₀, heq⟩
      · omega
      · exact heq.trans_le (h k₀ r₀ hget₀)

/-- In every run that begins with at most one comment about its cycle on every ticket, no ticket gets a second one on
    a board. -/
def CommentsOnce (env : Env) : Prop := ∀ σ acts τ, ReportedOnce σ → Run (CycleStep env) σ acts τ → ReportedOnce τ

theorem commentsOnce (env : Env) : CommentsOnce env := fun _ _ _ hstart hrun =>
  hrun.invariant (fun _ _ _ hs hstep => reportedOnce_step hs hstep) hstart

/-! ## Deadlock detection -/

/-- A finite directed graph, as a dict of sets. -/
structure DirectedGraph where
  rows : WaitsFor
  wellFormed : rows.WellFormed

/-- **Deadlock detection.** The components of every graph are found; a pass leaves exactly those blocked tickets of a
    board alone that lie on a waits-for cycle of at least two, exactly where these cycles stay on the board; and no
    ticket gets two comments about it on a board. -/
theorem deadlocks_detected (g : DirectedGraph) (env : Env) (board : BoardId) (boards : List BoardId) (p : Pass)
    (σ : Mill) :
    g.rows.FindsComponents ∧ (SkipsDeadlocked board σ (p.scan env board boards σ).2 ↔ CyclesOnBoard board σ) ∧
      CommentsOnce env :=
  ⟨g.wellFormed.findsComponents, skipsDeadlocked_iff env board boards p σ, commentsOnce env⟩

/-! ### Two boards -/

/-- A blocked ticket that depends on another. -/
def blockedBy (dep : TicketId) : TicketRecord where
  ticket := { title := "ticket", state := .blocked, blockedFrom := some .ready, dependsOn := some [dep]
              createdAt := 0, updatedAt := 0 }
  events := []
  comments := []

/-- Two blocked tickets on two boards that depend on each other. -/
def twoBoards : Mill :=
  (Mill.empty.putRecord ("front", "t-1") (blockedBy "t-2")).putRecord ("back", "t-2") (blockedBy "t-1")

/-- A pass that has yet to scan the two boards. -/
def twoBoardPass : Pass where
  now := 0
  boards := ["front", "back"]
  board := ""
  waiting := []
  inspection := .idle
  counts := {}

theorem deadlocked_twoBoards : Deadlocked (BlockedOn twoBoards) ("front", "t-1") := by
  have hfront : BlockedOn twoBoards ("front", "t-1") ("back", "t-2") :=
    ⟨blockedBy "t-2", blockedBy "t-1", by decide, rfl, by decide, rfl, .inl (by decide)⟩
  have hback : BlockedOn twoBoards ("back", "t-2") ("front", "t-1") :=
    ⟨blockedBy "t-1", blockedBy "t-2", by decide, rfl, by decide, rfl, .inl (by decide)⟩
  exact Kosaraju.exists_cycle_iff.2 ⟨("back", "t-2"), by decide, .single hfront, .single hback⟩

/-- The ticket on the first board is on a cycle, and the pass goes on to look at it. -/
theorem two_board_cycle_missed :
    (Pass.scan .cappedComments "front" ["back"] twoBoardPass twoBoards).2.waiting.map Listed.id = ["t-1"] ∧
    ¬ ∀ env board boards p σ, SkipsDeadlocked board σ (Pass.scan env board boards p σ).2 := by
  have hwaiting : (Pass.scan .cappedComments "front" ["back"] twoBoardPass twoBoards).2.waiting.map Listed.id =
      ["t-1"] := by
    decide +kernel
  refine ⟨hwaiting, fun hclaim => ?_⟩
  have hlisted : ("t-1", (blockedBy "t-2").ticket) ∈ listBlocked "front" twoBoards :=
    mem_listBlocked.2 ⟨blockedBy "t-2", by decide, rfl, rfl⟩
  have hskipped := (hclaim .cappedComments "front" ["back"] twoBoardPass twoBoards _ hlisted).2 deadlocked_twoBoards
  rw [hwaiting] at hskipped
  exact hskipped (List.mem_singleton_self _)

end Agents
end RobotsixMill
