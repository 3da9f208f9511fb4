import RobotsixMill.Service.Runs
import RobotsixMill.Lib.Acyclic

/-!
# `Service.Dependencies` — the dependency gate and the writers of `depends_on`

`unmetDependencies` is what the worker and the refine and implement stages ask before they touch a ticket.
The lists it reads are written by `create` and `setDependsOn`, which refuse a ticket that depends on
itself, and by `editDependencies`, which searches the whole graph for a cycle (`detectDependencyCycle`). That
search finds a cycle exactly if there is one (`dependency_cycle_exact`); the depth of its recursion is not bounded.
-/

namespace RobotsixMill
namespace Service
open RobotsixMill.Core Lib

variable (env : Env) (svc : BoardId)

/-! ## The gate -/

/-- The states in which a dependency is satisfied. -/
def DEPENDENCY_MET_STATES : List State := [.closed, .done]

/-- `unmet_dependencies` of the ticket `tid`: a missing dependency counts as satisfied, and so does one
    that depends on `tid` itself. -/
def unmetDependencies (σ : Mill) (tid : TicketId) (t : Ticket) : List TicketId :=
  (parseDependsOnStr t.dependsOn).filter fun dep_id =>
    match get env svc σ dep_id with
    | none => false
    | some (_, dep) =>
      !decide (tid ∈ parseDependsOnStr dep.ticket.dependsOn) &&
        !decide (dep.ticket.state ∈ DEPENDENCY_MET_STATES)

/-! ## The writers -/

/-- The record `set_depends_on` commits; an empty list empties the column. -/
def setDependsOnRecord (now : DateTime) (ids : List TicketId) (r : TicketRecord) : TicketRecord :=
  { r with ticket := { r.ticket with
      dependsOn := if ids = [] then none else some ids, updatedAt := now } }

/-- `set_depends_on`. -/
def setDependsOn (tid : TicketId) (ids : List TicketId) (σ : Mill) : Result Unit :=
  if tid ∈ ids then (σ, .error (.valueError s!"Ticket cannot depend on itself: {tid}"))
  else
    match fetch env svc σ tid with
    | .error e => (σ, .error e)
    | .ok (k, r) => ((σ.putRecord k (setDependsOnRecord (σ.now env 0) ids r)).tick, .ok ())

/-- `_edges`: the proposed list for the edited ticket, the stored ones elsewhere. -/
def dependencyEdges (σ : Mill) (tid : TicketId) (proposed : List TicketId) (t : TicketId) :
    List TicketId :=
  if t = tid then proposed
  else
    match get env svc σ t with
    | none => []
    | some (_, r) => parseDependsOnStr r.ticket.dependsOn

/-- One unit of fuel for each stored ticket and each of its dependencies. -/
def dependencySearchFuel (σ : Mill) (tid : TicketId) (proposed : List TicketId) : Nat :=
  proposed.length + 1 +
    unseenCost (dependencyEdges env svc σ tid proposed) (tid :: σ.records.keys.map Prod.snd) []

/-- `_detect_dependency_cycle`: the cycle the proposed list would close. -/
def detectDependencyCycle (σ : Mill) (tid : TicketId) (proposed : List TicketId) :
    Option (List TicketId) :=
  match walkBack (dependencyEdges env svc σ tid proposed) tid
      (dependencySearchFuel env svc σ tid proposed) proposed [tid] [] with
  | some (found, _) => found
  | none => none

/-- The ids `edit_dependencies` keeps: each once, none empty. -/
def cleanedIds (ids : List TicketId) : List TicketId := ids.eraseDups.filter (· ≠ "")

/-- The history note of an edit. -/
def editNote (cleaned : List TicketId) (reason : String) : String :=
  let listed := ", ".intercalate (cleaned.map reprStr)
  s!"dependencies set to [{listed}]" ++ (if reason = "" then "" else s!" — {reason}")

/-- The end of `edit_dependencies`: a blocked ticket without unmet dependencies is resumed; a refused
    resume is dropped. -/
def unparkEdited (tid : TicketId) (reason : String) (σ : Mill) : Result Unit :=
  match get env svc σ tid with
  | none => (σ, .error (.keyError tid))
  | some (_, r) =>
    if r.ticket.state = .blocked ∧ r.ticket.blockedFrom.isSome ∧
        unmetDependencies env svc σ tid r.ticket = [] then
      match resumeBlocked env svc tid (if reason = "" then "dependencies edited" else reason) σ with
      | (σ', .error (.transitionError _)) => (σ', .ok ())
      | res => res
    else (σ, .ok ())

/-- `edit_dependencies`. -/
def editDependencies (tid : TicketId) (ids : List TicketId) (reason : String) (σ : Mill) :
    Result Unit :=
  let cleaned := cleanedIds ids
  if tid ∈ cleaned then (σ, .error (.valueError s!"Ticket cannot depend on itself: {tid}"))
  else
    match get env svc σ tid with
    | none => (σ, .error (.keyError tid))
    | some _ =>
      match detectDependencyCycle env svc σ tid cleaned with
      | some cycle =>
        (σ, .error (.valueError ("dependency edit would create a cycle: " ++ " -> ".intercalate cycle)))
      | none =>
        match setDependsOn env svc tid cleaned σ with
        | (σ₁, .error e) => (σ₁, .error e)
        | (σ₁, .ok ()) =>
          match addHistoryNote env svc tid (editNote cleaned reason) σ₁ with
          | (σ₂, .error e) => (σ₂, .error e)
          | (σ₂, .ok ()) => unparkEdited env svc tid reason σ₂

/-! ## Runs of the writers -/

/-- A call that writes a `depends_on` list. -/
inductive DependencyCall
  | create (svc : BoardId) (args : CreateArgs)
  | setDependsOn (svc : BoardId) (tid : TicketId) (ids : List TicketId)
  | editDependencies (svc : BoardId) (tid : TicketId) (ids : List TicketId) (reason : String)

/-- Perform a call. -/
def DependencyCall.run (σ : Mill) : DependencyCall → Result Unit
  | create svc args => Service.create env svc args σ
  | setDependsOn svc tid ids => Service.setDependsOn env svc tid ids σ
  | editDependencies svc tid ids reason => Service.editDependencies env svc tid ids reason σ

/-- The store a list of calls leaves behind. -/
def runDependencyCalls : Mill → List DependencyCall → Mill
  | σ, [] => σ
  | σ, call :: calls => runDependencyCalls (call.run env σ).1 calls

/-- The same tickets in other states. -/
def Mill.assignStates (states : Key → State) (σ : Mill) : Mill :=
  { σ with records := σ.records.mapRows fun k r => { r with ticket := { r.ticket with state := states k } } }

/-! ## What the search for a cycle shows -/

section Search

variable {env svc} {σ : Mill} {tid : TicketId} {proposed : List TicketId}

/-- Only the edited ticket and stored tickets have dependencies. -/
theorem mem_of_dependencyEdges {t : TicketId} (h : dependencyEdges env svc σ tid proposed t ≠ []) :
    t ∈ tid :: σ.records.keys.map Prod.snd := by
  unfold dependencyEdges at h
  split at h
  · rename_i ht
    subst ht
    exact List.mem_cons_self
  · cases hg : get env svc σ t with
    | none => simp [hg] at h
    | some kr =>
        obtain ⟨k, r⟩ := kr
        obtain ⟨rfl, hget⟩ := get_of_fetch (fetch_of_get hg)
        apply List.mem_cons_of_mem
        exact List.mem_map.2 ⟨k, (σ.records.mem_keys k).2 (by simp [hget]), rfl⟩

/-- **The search ends**, so `none` means that no way back was found. -/
theorem exists_walkBack (σ : Mill) (tid : TicketId) (proposed : List TicketId) :
    ∃ seen, walkBack (dependencyEdges env svc σ tid proposed) tid
      (dependencySearchFuel env svc σ tid proposed) proposed [tid] [] =
        some (detectDependencyCycle env svc σ tid proposed, seen) := by
  have hfuel := @walkBack_ne_none _ _ (dependencyEdges env svc σ tid proposed) tid
    (tid :: σ.records.keys.map Prod.snd) (fun v => mem_of_dependencyEdges)
    (dependencySearchFuel env svc σ tid proposed) proposed [tid] [] (Nat.le_refl _)
  obtain ⟨⟨found, seen⟩, hw⟩ := Option.ne_none_iff_exists'.1 hfuel
  refine ⟨seen, ?_⟩
  unfold detectDependencyCycle
  rw [hw]

/-- **An edit that passes the search closes no cycle through the edited ticket.** -/
theorem not_cycle_of_detectDependencyCycle (h : detectDependencyCycle env svc σ tid proposed = none) :
    ¬ Relation.TransGen (fun a b => b ∈ dependencyEdges env svc σ tid proposed a) tid tid := by
  obtain ⟨seen, hw⟩ := @exists_walkBack env svc σ tid proposed
  rw [h] at hw
  have hself : dependencyEdges env svc σ tid proposed tid = proposed := if_pos rfl
  exact not_cycle_of_walkBack hself hw

/-- `a` depends on `b`, once the list of `tid` is replaced by `proposed`. -/
def DependsAfter (env : Env) (svc : BoardId) (σ : Mill) (tid : TicketId) (proposed : List TicketId)
    (a b : TicketId) : Prop :=
  if a = tid then b ∈ proposed
  else ∃ k r, get env svc σ a = some (k, r) ∧ b ∈ parseDependsOnStr r.ticket.dependsOn

theorem mem_dependencyEdges {a b : TicketId} :
    b ∈ dependencyEdges env svc σ tid proposed a ↔ DependsAfter env svc σ tid proposed a b := by
  unfold dependencyEdges DependsAfter
  by_cases ha : a = tid
  · rw [if_pos ha, if_pos ha]
  · rw [if_neg ha, if_neg ha]
    cases hg : get env svc σ a with
    | none => simp
    | some kr =>
      constructor
      · exact fun hb => ⟨kr.1, kr.2, rfl, hb⟩
      · rintro ⟨k, r, heq, hb⟩
        cases heq
        exact hb

/-- What the search finds is a cycle through the edited ticket. -/
theorem cycle_of_detectDependencyCycle {path : List TicketId}
    (h : detectDependencyCycle env svc σ tid proposed = some path) :
    (∃ more, path = tid :: more ∧ more.getLast? = some tid) ∧
      path.IsChain (DependsAfter env svc σ tid proposed) := by
  obtain ⟨seen, hw⟩ := @exists_walkBack env svc σ tid proposed
  rw [h] at hw
  have hself : dependencyEdges env svc σ tid proposed tid = proposed := if_pos rfl
  obtain ⟨hpath, hchain⟩ := @path_of_walkBack _ _ _ _ _ _ [tid] _ _ _ tid rfl (fun x hx => hself.symm ▸ hx)
    (List.isChain_singleton tid) hw
  exact ⟨hpath, hchain.imp fun a b hab => mem_dependencyEdges.1 hab⟩

theorem transGen_of_isChain {α : Type*} {r : α → α → Prop} {a b : α} {more : List α}
    (hchain : (a :: more).IsChain r) (hlast : more.getLast? = some b) : Relation.TransGen r a b := by
  induction more generalizing a with
  | nil => cases hlast
  | cons c more ih =>
    obtain ⟨hac, hrest⟩ := List.isChain_cons_cons.1 hchain
    cases more with
    | nil =>
      obtain rfl := Option.some.inj hlast
      exact .single hac
    | cons d more => exact .head hac (ih hrest hlast)

/-- **The search for a cycle is exact**: it ends, it finds nothing exactly if the edited ticket would not depend on
    itself, and what it finds otherwise is a path from the ticket back to it. -/
theorem dependency_cycle_exact (env : Env) (svc : BoardId) (σ : Mill) (tid : TicketId) (proposed : List TicketId) :
    (∃ fuel seen, walkBack (dependencyEdges env svc σ tid proposed) tid fuel proposed [tid] [] =
      some (detectDependencyCycle env svc σ tid proposed, seen)) ∧
    (detectDependencyCycle env svc σ tid proposed = none ↔
      ¬ Relation.TransGen (DependsAfter env svc σ tid proposed) tid tid) ∧
    ∀ path, detectDependencyCycle env svc σ tid proposed = some path →
      (∃ more, path = tid :: more ∧ more.getLast? = some tid) ∧
        path.IsChain (DependsAfter env svc σ tid proposed) := by
  refine ⟨⟨_, exists_walkBack σ tid proposed⟩, ⟨fun hnone hcycle => ?_, fun hnot => ?_⟩, fun path hpath => ?_⟩
  · exact not_cycle_of_detectDependencyCycle hnone
      (hcycle.lift id fun a b hab => mem_dependencyEdges.2 hab)
  · cases hpath : detectDependencyCycle env svc σ tid proposed with
    | none => rfl
    | some path =>
      obtain ⟨⟨more, rfl, hlast⟩, hchain⟩ := cycle_of_detectDependencyCycle hpath
      exact absurd (transGen_of_isChain hchain hlast) hnot
  · exact cycle_of_detectDependencyCycle hpath

end Search

end Service
end RobotsixMill
