import RobotsixMill.Service.Dependencies

/-!
# `Service.DependencyGate` — when the dependency gate deadlocks a board

A board is live when some unfinished ticket has no unmet dependency, and no finished ticket is reported
as unmet. The gate forgives exactly the dependencies that depend back, so longer cycles stop all of their
members; and it counts only `done` and `closed` as met, so a dependency that ends as an answered inquiry or
a closed epic is never met.

- `Needs`, `Waits` — the dependencies the gate does not forgive, and those on unfinished tickets.
- `gate_live_iff` — exactly when a store is live; on the way out of a vertex that leads to no cycle there is
  a ticket that waits for nothing (`AcyclicFrom.exists_sink`).
- `editDependencies_acyclic` — the writer that searches for cycles keeps the graph acyclic.
-/

namespace RobotsixMill
namespace Service
open RobotsixMill.Core Lib

/-- The states of a finished ticket. -/
def FINISHED_STATES : List State := [.done, .closed, .answered, .epicClosed]

/-- Finished, and not what the gate counts as met. -/
def FINISHED_UNMET_STATES : List State := [.answered, .epicClosed]

variable (env : Env) (svc : BoardId)

/-- The ticket `t` is found and in none of the finished states. -/
def Unfinished (σ : Mill) (t : TicketId) : Prop :=
  ∃ k r, get env svc σ t = some (k, r) ∧ r.ticket.state ∉ FINISHED_STATES

/-- The gate of the ticket `t` is open. -/
def GateOpen (σ : Mill) (t : TicketId) : Prop :=
  ∃ k r, get env svc σ t = some (k, r) ∧ unmetDependencies env svc σ t r.ticket = []

/-- The gate never deadlocks: an unfinished ticket with an open gate exists if any unfinished one does, and
    a finished dependency is not unmet. -/
structure GateLive (σ : Mill) : Prop where
  progress : (∃ t, Unfinished env svc σ t) → ∃ t, Unfinished env svc σ t ∧ GateOpen env svc σ t
  finished : ∀ t k r d kd rd, get env svc σ t = some (k, r) → get env svc σ d = some (kd, rd) →
    rd.ticket.state ∈ FINISHED_STATES → d ∉ unmetDependencies env svc σ t r.ticket

/-- `t` lists `d`, both exist, and `d` does not list `t`. -/
def Needs (σ : Mill) (t d : TicketId) : Prop :=
  ∃ k r kd rd, get env svc σ t = some (k, r) ∧ get env svc σ d = some (kd, rd) ∧
    d ∈ parseDependsOnStr r.ticket.dependsOn ∧ t ∉ parseDependsOnStr rd.ticket.dependsOn

/-- `t` needs the unfinished ticket `d`. -/
def Waits (σ : Mill) (t d : TicketId) : Prop := Needs env svc σ t d ∧ Unfinished env svc σ d

/-- No ticket needs one that ended as an answered inquiry or a closed epic. -/
def NeedsNoInquiryOrEpic (σ : Mill) : Prop :=
  ∀ t d kd rd, Needs env svc σ t d → get env svc σ d = some (kd, rd) →
    rd.ticket.state ∉ FINISHED_UNMET_STATES

variable {env svc} {σ : Mill}

theorem mem_unmetDependencies {t d : TicketId} {tk : Ticket} :
    d ∈ unmetDependencies env svc σ t tk ↔ d ∈ parseDependsOnStr tk.dependsOn ∧
      ∃ kd rd, get env svc σ d = some (kd, rd) ∧ t ∉ parseDependsOnStr rd.ticket.dependsOn ∧
        rd.ticket.state ∉ DEPENDENCY_MET_STATES := by
  unfold unmetDependencies
  rw [List.mem_filter]
  apply and_congr_right
  intro _
  cases get env svc σ d with
  | none => simp
  | some kr =>
      obtain ⟨⟨b, i⟩, rd⟩ := kr
      simp

/-- An unmet dependency is one that is waited for, or one that ended unmet. -/
theorem waits_or_of_unmet {t d : TicketId} {k : Key} {r : TicketRecord}
    (hg : get env svc σ t = some (k, r)) (hd : d ∈ unmetDependencies env svc σ t r.ticket) :
    Needs env svc σ t d ∧ (Unfinished env svc σ d ∨
      ∃ kd rd, get env svc σ d = some (kd, rd) ∧ rd.ticket.state ∈ FINISHED_UNMET_STATES) := by
  obtain ⟨hmem, kd, rd, hgd, hback, hstate⟩ := mem_unmetDependencies.1 hd
  refine ⟨⟨k, r, kd, rd, hg, hgd, hmem, hback⟩, ?_⟩
  by_cases hfin : rd.ticket.state ∈ FINISHED_STATES
  · refine .inr ⟨kd, rd, hgd, ?_⟩
    simp only [FINISHED_STATES, DEPENDENCY_MET_STATES, FINISHED_UNMET_STATES, List.mem_cons,
      List.not_mem_nil, or_false, not_or] at hfin hstate ⊢
    tauto
  · exact .inl ⟨kd, rd, hgd, hfin⟩

/-- A ticket that waits for another has a closed gate. -/
theorem unmet_of_waits {t d : TicketId} {k : Key} {r : TicketRecord} (hw : Waits env svc σ t d)
    (hg : get env svc σ t = some (k, r)) : d ∈ unmetDependencies env svc σ t r.ticket := by
  obtain ⟨⟨k', r', kd, rd, hg', hgd, hmem, hback⟩, ⟨kd', rd', hgd', hfin⟩⟩ := hw
  rw [hg] at hg'
  cases hg'
  rw [hgd] at hgd'
  cases hgd'
  refine mem_unmetDependencies.2 ⟨hmem, kd, rd, hgd, hback, ?_⟩
  intro hmet
  apply hfin
  simp only [FINISHED_STATES, DEPENDENCY_MET_STATES, List.mem_cons, List.not_mem_nil,
    or_false] at hmet ⊢
  tauto

/-- Only stored tickets are waited for. -/
theorem finite_waits (t : TicketId) : {d | Relation.ReflTransGen (Waits env svc σ) t d}.Finite := by
  refine ((t :: σ.records.keys.map Prod.snd).finite_toSet).subset ?_
  intro d hd
  rcases Relation.ReflTransGen.cases_tail hd with rfl | ⟨c, -, hw⟩
  · exact List.mem_cons_self
  · obtain ⟨kd, rd, hgd, -⟩ := hw.2
    obtain ⟨rfl, hget⟩ := get_of_fetch (fetch_of_get hgd)
    apply List.mem_cons_of_mem
    exact List.mem_map.2 ⟨kd, (σ.records.mem_keys kd).2 (by simp [hget]), rfl⟩

/-- **Exactly when a store is live**: no dependency ended as an inquiry or an epic, and, if there is an
    unfinished ticket at all, there is one from which waiting leads to no cycle. -/
theorem gate_live_iff : GateLive env svc σ ↔ NeedsNoInquiryOrEpic env svc σ ∧
    ((∃ t, Unfinished env svc σ t) →
      ∃ t, Unfinished env svc σ t ∧ AcyclicFrom (Waits env svc σ) t) := by
  constructor
  · intro h
    constructor
    · rintro t d kd rd ⟨k, r, kd', rd', hg, hgd', hmem, hback⟩ hgd hstate
      rw [hgd] at hgd'
      cases hgd'
      have hfin : rd.ticket.state ∈ FINISHED_STATES := by
        simp only [FINISHED_STATES, FINISHED_UNMET_STATES, List.mem_cons, List.not_mem_nil,
          or_false] at hstate ⊢
        tauto
      refine h.finished t k r d kd rd hg hgd hfin (mem_unmetDependencies.2 ⟨hmem, kd, rd, hgd, hback, ?_⟩)
      simp only [DEPENDENCY_MET_STATES, FINISHED_UNMET_STATES, List.mem_cons, List.not_mem_nil,
        or_false] at hstate ⊢
      rcases hstate with hstate | hstate <;> simp [hstate]
    · intro hex
      obtain ⟨t, hun, k, r, hg, hopen⟩ := h.progress hex
      refine ⟨t, hun, acyclicFrom_of_sink fun d hw => ?_⟩
      have hmem := unmet_of_waits hw hg
      rw [hopen] at hmem
      cases hmem
  · rintro ⟨hmet, hlive⟩
    constructor
    · intro hex
      obtain ⟨t, hun, hacyclic⟩ := hlive hex
      obtain ⟨u, htu, hsink⟩ := hacyclic.exists_sink (finite_waits t)
      -- what is waited for is unfinished
      have hunu : Unfinished env svc σ u := by
        rcases Relation.ReflTransGen.cases_tail htu with rfl | ⟨c, -, hw⟩
        · exact hun
        · exact hw.2
      obtain ⟨k, r, hg, hstate⟩ := hunu
      refine ⟨u, ⟨k, r, hg, hstate⟩, k, r, hg, ?_⟩
      apply List.eq_nil_iff_forall_not_mem.2
      intro d hd
      obtain ⟨hneeds, hun | ⟨kd, rd, hgd, hended⟩⟩ := waits_or_of_unmet hg hd
      · exact hsink d ⟨hneeds, hun⟩
      · exact hmet u d kd rd hneeds hgd hended
    · intro t k r d kd rd hg hgd hfin hd
      obtain ⟨hneeds, ⟨kd', rd', hgd', hun⟩ | ⟨kd', rd', hgd', hended⟩⟩ := waits_or_of_unmet hg hd
      · rw [hgd] at hgd'
        cases hgd'
        exact hun hfin
      · exact hmet t d kd' rd' hneeds hgd' hended

/-- **The dependency gate.** For every sequence of writes of dependency lists and every assignment of
    states, the board is live exactly when no ticket needs one that ended as an inquiry or an epic, and some
    unfinished ticket, if there is one, is led to no cycle by what it waits for. -/
theorem dependency_gate_live (env : Env) (svc : BoardId) (calls : List DependencyCall)
    (states : Key → State) :
    let σ := (runDependencyCalls env .empty calls).assignStates states
    GateLive env svc σ ↔ NeedsNoInquiryOrEpic env svc σ ∧
      ((∃ t, Unfinished env svc σ t) →
        ∃ t, Unfinished env svc σ t ∧ AcyclicFrom (Waits env svc σ) t) :=
  gate_live_iff

/-- Three tickets, each waiting for the next. -/
def threeCycleCalls : List DependencyCall :=
  [.create "board" { id := "t-1", title := "a" }, .create "board" { id := "t-2", title := "b" },
    .create "board" { id := "t-3", title := "c" }, .setDependsOn "board" "t-1" ["t-2"],
    .setDependsOn "board" "t-2" ["t-3"], .setDependsOn "board" "t-3" ["t-1"]]

/-- `set_depends_on` closes a cycle of three drafts, and none of them is ever let through. -/
theorem three_cycle_deadlocks :
    ¬ GateLive .standalone "board" ((runDependencyCalls .standalone .empty threeCycleCalls).assignStates
      fun _ => .draft) := by
  have hclosed : (((runDependencyCalls .standalone .empty threeCycleCalls).assignStates
      fun _ => .draft).records.keys.all fun k =>
        (get .standalone "board" ((runDependencyCalls .standalone .empty
          threeCycleCalls).assignStates fun _ => .draft) k.2).all fun row =>
            !(unmetDependencies .standalone "board" ((runDependencyCalls .standalone .empty
              threeCycleCalls).assignStates fun _ => .draft) k.2 row.2.ticket).isEmpty) = true := by
    decide +kernel
  have hfirst : Unfinished .standalone "board" ((runDependencyCalls .standalone .empty
      threeCycleCalls).assignStates fun _ => .draft) "t-1" := ⟨("board", "t-1"), _, rfl, by decide⟩
  generalize (runDependencyCalls .standalone .empty threeCycleCalls).assignStates
    (fun _ => .draft) = σ at hclosed hfirst ⊢
  intro h
  obtain ⟨t, -, k, r, hg, hopen⟩ := h.progress ⟨"t-1", hfirst⟩
  obtain ⟨rfl, hget⟩ := get_of_fetch (fetch_of_get hg)
  have hk := List.all_eq_true.1 hclosed k ((σ.records.mem_keys k).2 (by simp [hget]))
  rw [hg] at hk
  simp [hopen] at hk

/-! ## The writer that searches -/

/-- `t` lists `d`. -/
def Depends (env : Env) (svc : BoardId) (σ : Mill) (t d : TicketId) : Prop :=
  ∃ k r, get env svc σ t = some (k, r) ∧ d ∈ parseDependsOnStr r.ticket.dependsOn

/-- No ticket lists more than it did. -/
def KeepsDependencies (env : Env) (svc : BoardId) (σ σ' : Mill) : Prop :=
  ∀ t d, Depends env svc σ' t d → Depends env svc σ t d

theorem get_of_get_putRecord {σ₁ : Mill} {k : Key} {r r' : TicketRecord}
    (hget : σ.records.get k = some r) (hrec : σ₁.records = σ.records.put k r') {t : TicketId} {k₁ : Key}
    {r₁ : TicketRecord} (hg : get env svc σ₁ t = some (k₁, r₁)) :
    ∃ r₀, get env svc σ t = some (k₁, r₀) ∧ (k₁ = k ∧ r₁ = r' ∨ k₁ ≠ k ∧ r₁ = r₀) := by
  have hloc : locate env svc σ₁ t = locate env svc σ t := by
    rw [@locate_congr env svc (σ.putRecord k r') σ₁ hrec, locate_putRecord hget]
  unfold get at hg ⊢
  rw [hloc] at hg
  cases hl : locate env svc σ t with
  | none => rw [hl] at hg; cases hg
  | some b =>
      rw [hl] at hg
      simp only [Option.bind_some, Option.map_eq_some_iff, Prod.mk.injEq] at hg ⊢
      obtain ⟨r₂, hget₁, rfl, rfl⟩ := hg
      rw [hrec] at hget₁
      by_cases hk : (b, t) = k
      · subst hk
        rw [Table.get_put_self] at hget₁
        exact ⟨r, ⟨r, hget, rfl, rfl⟩, .inl ⟨rfl, (Option.some.inj hget₁).symm⟩⟩
      · rw [Table.get_put_ne _ _ hk] at hget₁
        exact ⟨r₂, ⟨r₂, hget₁, rfl, rfl⟩, .inr ⟨hk, rfl⟩⟩

theorem keepsDependencies_put {σ₁ : Mill} {k : Key} {r r' : TicketRecord}
    (hget : σ.records.get k = some r) (hrec : σ₁.records = σ.records.put k r')
    (hdeps : r'.ticket.dependsOn = r.ticket.dependsOn) : KeepsDependencies env svc σ σ₁ := by
  rintro t d ⟨k₁, r₁, hg, hd⟩
  obtain ⟨r₀, hg₀, ⟨rfl, rfl⟩ | ⟨-, rfl⟩⟩ := get_of_get_putRecord hget hrec hg
  · have hr : r₀ = r := Option.some.inj ((get_of_fetch (fetch_of_get hg₀)).2.symm.trans hget)
    subst hr
    exact ⟨k₁, r₀, hg₀, hdeps ▸ hd⟩
  · exact ⟨k₁, r₁, hg₀, hd⟩

theorem keepsDependencies_addHistoryNote (tid : TicketId) (note : String) (σ : Mill) :
    KeepsDependencies env svc σ (addHistoryNote env svc tid note σ).1 := by
  unfold addHistoryNote
  cases hf : fetch env svc σ tid with
  | error e => exact fun _ _ h => h
  | ok kr => exact keepsDependencies_put (get_of_fetch hf).2 rfl rfl

theorem keepsDependencies_resumeBlocked (tid : TicketId) (note : String) (σ : Mill) :
    KeepsDependencies env svc σ (resumeBlocked env svc tid note σ).1 := by
  unfold resumeBlocked
  cases hf : fetch env svc σ tid with
  | error e => exact fun _ _ h => h
  | ok kr =>
      obtain ⟨k, r⟩ := kr
      cases hr : resumeRefusal tid r.ticket with
      | some e =>
          simp only [hr]
          exact fun _ _ h => h
      | none =>
          simp only [hr]
          exact keepsDependencies_put (get_of_fetch hf).2 rfl rfl

theorem keepsDependencies_unparkEdited (tid : TicketId) (reason : String) (σ : Mill) :
    KeepsDependencies env svc σ (unparkEdited env svc tid reason σ).1 := by
  unfold unparkEdited
  split
  · exact fun _ _ h => h
  · split
    · have hkeeps := @keepsDependencies_resumeBlocked env svc tid
        (if reason = "" then "dependencies edited" else reason) σ
      split
      · rename_i heq
        rw [heq] at hkeeps
        exact hkeeps
      · exact hkeeps
    · exact fun _ _ h => h

/-- After the write, dependencies are those the search looked at. -/
theorem edges_of_setDependsOn {tid : TicketId} {ids : List TicketId} {k : Key} {r : TicketRecord}
    (hg : get env svc σ tid = some (k, r)) {t d : TicketId}
    (h : Depends env svc (setDependsOn env svc tid ids σ).1 t d) :
    d ∈ dependencyEdges env svc σ tid ids t ∨ tid ∈ ids := by
  by_cases hself : tid ∈ ids
  · exact .inr hself
  · left
    have hf := fetch_of_get hg
    obtain ⟨rfl, hget⟩ := get_of_fetch hf
    obtain ⟨k₁, r₁, hg₁, hd⟩ := h
    simp only [setDependsOn, if_neg hself, hf] at hg₁
    obtain ⟨r₀, hg₀, ⟨rfl, rfl⟩ | ⟨hne, rfl⟩⟩ := get_of_get_putRecord hget rfl hg₁
    · -- the edited ticket
      have ht : t = k₁.2 := (get_of_fetch (fetch_of_get hg₀)).1.symm
      subst ht
      rw [dependencyEdges, if_pos rfl]
      have hcol : parseDependsOnStr (setDependsOnRecord (σ.now env 0) ids r).ticket.dependsOn = ids := by
        unfold setDependsOnRecord parseDependsOnStr
        by_cases hnil : ids = []
        · simp [hnil]
        · simp [hnil]
      rwa [hcol] at hd
    · have ht : t ≠ k.2 := by
        rintro rfl
        rw [hg] at hg₀
        cases hg₀
        exact hne rfl
      rw [dependencyEdges, if_neg ht, hg₀]
      exact hd

/-- **`edit_dependencies` keeps the graph acyclic**, whatever it is asked to write. -/
theorem editDependencies_acyclic {tid : TicketId} {ids : List TicketId} {reason : String}
    (h : Acyclic (Depends env svc σ)) :
    Acyclic (Depends env svc (editDependencies env svc tid ids reason σ).1) := by
  unfold editDependencies
  dsimp only
  split
  · exact h
  · rename_i hself
    cases hg : get env svc σ tid with
    | none => exact h
    | some kr =>
        obtain ⟨k, r⟩ := kr
        dsimp only
        cases hc : detectDependencyCycle env svc σ tid (cleanedIds ids) with
        | some cycle => exact h
        | none =>
            -- the new edges leave `tid` only, and none of them leads back
            have hset : Acyclic (Depends env svc (setDependsOn env svc tid (cleanedIds ids) σ).1) := by
              refine Acyclic.mono (r := fun a b => b ∈ dependencyEdges env svc σ tid (cleanedIds ids) a)
                ?_ fun a b hab => (edges_of_setDependsOn hg hab).resolve_right hself
              refine h.update (x := tid) ?_ (not_cycle_of_detectDependencyCycle hc)
              intro a b ha hab
              unfold dependencyEdges at hab
              rw [if_neg ha] at hab
              cases hga : get env svc σ a with
              | none => simp [hga] at hab
              | some kr =>
                  rw [hga] at hab
                  exact ⟨kr.1, kr.2, hga, hab⟩
            dsimp only
            split
            · rename_i heq
              rw [heq] at hset
              exact hset
            · rename_i σ₁ heq
              rw [heq] at hset
              have hnote := @keepsDependencies_addHistoryNote env svc tid
                (editNote (cleanedIds ids) reason) σ₁
              split
              · rename_i heq
                rw [heq] at hnote
                exact hset.mono hnote
              · rename_i σ₂ heq
                rw [heq] at hnote
                exact (hset.mono hnote).mono (keepsDependencies_unparkEdited tid reason σ₂)

end Service
end RobotsixMill
