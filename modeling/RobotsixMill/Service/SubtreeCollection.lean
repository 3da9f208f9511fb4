import RobotsixMill.Service.SubtreeMigration
import RobotsixMill.Lib.Descent

/-!
# `Service.SubtreeCollection` — the two walks down the parent links

`collectSubtree` keeps no list of the tickets that it has met, its sibling `allDescendants` does. The links below a
ticket are whatever `create` and `setParent` wrote, and `setParent` checks nothing.

- `subtree_collected_iff` — the two agree, unless the first does not end, which is when its root is its own ancestor.
-/

namespace RobotsixMill
namespace Service
open RobotsixMill.Core Lib

variable (env : Env) (svc : BoardId)

/-! ## The writers of the links -/

/-- `set_parent`. -/
def setParent (tid parent_id : TicketId) (σ : Mill) : Result Unit :=
  match fetch env svc σ tid with
  | .error e => (σ, .error e)
  | .ok (k, r) =>
    let ticket := { r.ticket with parentId := some parent_id, updatedAt := σ.now env 0 }
    ((σ.putRecord k { r with ticket := ticket }).tick, .ok ())

/-- A call that writes a parent link. -/
inductive ParentCall
  | create (svc : BoardId) (args : CreateArgs)
  | setParent (svc : BoardId) (tid parent_id : TicketId)

/-- Perform a call. -/
def ParentCall.run (σ : Mill) : ParentCall → Result Unit
  | create svc args => Service.create env svc args σ
  | setParent svc tid parent_id => Service.setParent env svc tid parent_id σ

/-- The store a list of calls leaves behind. -/
def runParentCalls : Mill → List ParentCall → Mill
  | σ, [] => σ
  | σ, call :: calls => runParentCalls (call.run env σ).1 calls

/-! ## The walks -/

/-- The list of `_collect_subtree` when its loop ends within that many rounds. -/
def collectRounds (σ : Mill) (board : BoardId) (root : TicketId) (rounds : Nat) : Option (List TicketId) :=
  collectBelow (childrenOn σ board) rounds [root] [root]

/-- `_all_descendants`; `none` when the search does not end. -/
def allDescendants (tid : TicketId) (σ : Mill) : Except ServiceError (Option (List TicketId)) :=
  match boardFor env svc σ tid with
  | .error e => .error e
  | .ok board => .ok (descend (childrenOn σ board) (σ.records.keys.length + 2) ⟨[tid], [], [tid]⟩)

/-- A ticket of the board and one of its children. -/
def IsChild (σ : Mill) (board : BoardId) (p c : TicketId) : Prop := c ∈ childrenOn σ board p

/-- `_collect_subtree` ends with the list `ts`, and `ts` is what it should be. -/
structure CollectsSubtree (σ : Mill) (board : BoardId) (root : TicketId) (ts : List TicketId) : Prop where
  ends : ∃ rounds, collectRounds σ board root rounds = some ts
  nodup : ts.Nodup
  mem_iff : ∀ x, x ∈ ts ↔ Relation.ReflTransGen (IsChild σ board) root x
  /-- Parents are listed before their children, except along a cycle. -/
  ordered : ∀ p ∈ ts, ∀ c, IsChild σ board p c →
    ts.idxOf p < ts.idxOf c ∨ Relation.TransGen (IsChild σ board) c c
  /-- Apart from the root it lists what `_all_descendants` lists. -/
  agrees : ∃ ds, allDescendants env svc root σ = .ok (some ds) ∧ ∀ x, x ∈ ts ↔ x = root ∨ x ∈ ds

/-! ## When the collection is right -/

section Collect

variable {env svc} {σ : Mill} {board : BoardId} {root : TicketId}

/-- What lies below a ticket is stored. -/
theorem mem_of_below {x : TicketId} (h : Below (childrenOn σ board) root x) :
    x ∈ root :: σ.records.keys.map Prod.snd := by
  cases h with
  | root => exact List.mem_cons_self
  | child _ hchild =>
    obtain ⟨r, hget, -⟩ := mem_childrenOn.1 hchild
    exact List.mem_cons_of_mem _
      (List.mem_map.2 ⟨(board, x), (σ.records.mem_keys _).2 (by simp [hget]), rfl⟩)

theorem below_iff {x : TicketId} :
    Below (childrenOn σ board) root x ↔ Relation.ReflTransGen (IsChild σ board) root x :=
  ⟨Below.reach, Below.of_reach⟩

theorem length_candidates :
    (root :: σ.records.keys.map Prod.snd).length = σ.records.keys.length + 1 := by
  rw [List.length_cons, List.length_map]

/-- `_all_descendants` ends on every graph. -/
theorem allDescendants_ends {r : TicketRecord} (h : fetch env svc σ root = .ok ((board, root), r)) :
    ∃ ds, allDescendants env svc root σ = .ok (some ds) ∧
      ∀ x, x = root ∨ x ∈ ds ↔ Relation.ReflTransGen (IsChild σ board) root x := by
  obtain ⟨ds, hds, hmem⟩ := @descend_spec _ (childrenOn σ board) root _ _ fun x => mem_of_below
  have hboard : boardFor env svc σ root = .ok board := by
    unfold fetch at h
    cases hb : boardFor env svc σ root with
    | error e => rw [hb] at h; cases h
    | ok b =>
      rw [hb] at h
      dsimp only at h
      cases hget : σ.records.get (b, root) with
      | none => rw [hget] at h; cases h
      | some r' =>
        rw [hget] at h
        cases h
        rfl
  refine ⟨ds, ?_, fun x => (hmem x).trans below_iff⟩
  rw [length_candidates] at hds
  rw [allDescendants, hboard]
  exact congrArg Except.ok hds

/-- **Without a cycle at its root** the collection ends, within the rounds that `collectSubtree` grants it. -/
theorem collectSubtree_of_not_cycle (h : ¬ Relation.TransGen (IsChild σ board) root root) :
    ∃ ts, collectSubtree σ board root = some ts ∧ ∀ p ∈ ts, ∀ c ∈ childrenOn σ board p, ts.idxOf p < ts.idxOf c := by
  have hspec := @collectBelow_spec _ (childrenOn σ board) root _ (nodup_childrenOn σ board) childrenOn_parent h _
    fun x => mem_of_below
  rwa [length_candidates] at hspec

theorem collectsSubtree_of_not_cycle {r : TicketRecord} (hroot : fetch env svc σ root = .ok ((board, root), r))
    (h : ¬ Relation.TransGen (IsChild σ board) root root) : ∃ ts, CollectsSubtree env svc σ board root ts := by
  obtain ⟨ts, hts, hord⟩ := collectSubtree_of_not_cycle h
  obtain ⟨ds, hds, hmem⟩ := allDescendants_ends hroot
  have hbelow : ∀ x, x ∈ ts ↔ Relation.ReflTransGen (IsChild σ board) root x :=
    fun x => (mem_collectBelow hts).trans below_iff
  exact ⟨ts, ⟨_, hts⟩, nodup_collectSubtree hts, hbelow, fun p hp c hc => .inl (hord p hp c hc), ds, hds,
    fun x => (hbelow x).trans (hmem x).symm⟩

/-- **On a cycle it goes on for ever.** -/
theorem collectRounds_of_cycle (h : Relation.TransGen (IsChild σ board) root root) (rounds : Nat) :
    collectRounds σ board root rounds = none :=
  collectBelow_of_cycle (nodup_childrenOn σ board) childrenOn_parent h rounds

/-- **The collection of a subtree** ends with every ticket of it once, parents first, exactly if the root is not its own
    ancestor on the board. -/
theorem subtree_collected_iff (env : Env) (svc : BoardId) (σ : Mill) (board : BoardId) (root : TicketId)
    (r : TicketRecord) (hroot : fetch env svc σ root = .ok ((board, root), r)) :
    (∃ ts, CollectsSubtree env svc σ board root ts) ↔ ¬ Relation.TransGen (IsChild σ board) root root := by
  constructor
  · rintro ⟨ts, hcollects⟩ hcycle
    obtain ⟨rounds, hrounds⟩ := hcollects.ends
    rw [collectRounds_of_cycle hcycle] at hrounds
    cases hrounds
  · exact collectsSubtree_of_not_cycle hroot

end Collect

/-- An epic and a child of it. -/
def familyCalls : List ParentCall :=
  [.create "mill" { id := "epic", title := "", kind := .epic },
    .create "mill" { id := "child", title := "", parentId := some "epic" }]

theorem subtree_collected_iff_family :
    (∃ ts, CollectsSubtree .standalone "mill" (runParentCalls .standalone .empty familyCalls) "mill" "epic" ts) ↔
      ¬ Relation.TransGen (IsChild (runParentCalls .standalone .empty familyCalls) "mill") "epic" "epic" :=
  subtree_collected_iff .standalone "mill" (runParentCalls .standalone .empty familyCalls) "mill" "epic" _ rfl

/-! ### A ticket that is its own parent -/

/-- A ticket becomes its own parent. -/
def ownParentCalls : List ParentCall :=
  [.create "mill" { id := "epic", title := "", kind := .epic }, .setParent "mill" "epic" "epic"]

/-- Its subtree is never collected. -/
theorem own_parent_not_collected : ¬ ∀ env svc calls board root r,
    fetch env svc (runParentCalls env .empty calls) root = .ok ((board, root), r) →
      ∃ ts, CollectsSubtree env svc (runParentCalls env .empty calls) board root ts := by
  intro hclaim
  obtain ⟨ts, hcollects⟩ := hclaim .standalone "mill" ownParentCalls "mill" "epic" _ rfl
  obtain ⟨rounds, hrounds⟩ := hcollects.ends
  have hchild : IsChild (runParentCalls .standalone .empty ownParentCalls) "mill" "epic" "epic" :=
    mem_childrenOn.2 ⟨_, rfl, rfl⟩
  rw [collectRounds_of_cycle (.single hchild)] at hrounds
  cases hrounds

end Service
end RobotsixMill
