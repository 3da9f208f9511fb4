import RobotsixMill.Agents.BumpChildren
import RobotsixMill.Lib.Acyclic

/-!
# `Agents.PlanSoundness` — when the planned dependencies are sound

Nothing checks the plan for cycles before it is applied. Without the bump children in between
(`acyclic_of_bypass`) its edges are the base edges and those from a child to the tickets it needs.

- `PlanSound` — no cycle, no edge missing;
- `OneProducer`, `OrderedNeeds` — what that takes of the batch;
- `plan_sound` — the two are equivalent.
-/

namespace RobotsixMill
namespace Agents
open RobotsixMill.Core Lib

section Plan

variable {ctx : BreakdownContext} {x : CrossRepo} {children : List Child} {pred : Option TicketId}

/-! ## Base edges -/

theorem chainEdges_cons (prev : Option TicketId) (c : Child) (cs : List Child) (edges : EdgeMap) :
    chainEdges prev (c :: cs) edges = chainEdges (some c.id) cs (match prev with
      | none => edges
      | some p => edges.put c.id [p]) := rfl

/-- Outside the batch, a chain changes nothing; in it, each child follows the one before. -/
theorem get_chainEdges (cs : List Child) (hnd : (cs.map Child.id).Nodup) (prev : Option TicketId)
    (edges : EdgeMap) :
    (∀ t, t ∉ cs.map Child.id → (chainEdges prev cs edges).get t = edges.get t) ∧
    ∀ before c after, cs = before ++ c :: after → (chainEdges prev cs edges).get c.id =
      (((before.getLast?.map Child.id).or prev).map fun p => [p]).or (edges.get c.id) := by
  induction cs generalizing prev edges with
  | nil => exact ⟨fun _ _ => rfl, fun before c after h => by simp at h⟩
  | cons c cs ih =>
      rw [List.map_cons, List.nodup_cons] at hnd
      obtain ⟨hout, hin⟩ := ih hnd.2 (some c.id) (match prev with
        | none => edges
        | some p => edges.put c.id [p])
      constructor
      · intro t ht
        rw [List.map_cons, List.mem_cons, not_or] at ht
        rw [chainEdges_cons, hout t ht.2]
        cases prev with
        | none => rfl
        | some p => exact Table.get_put_ne edges _ ht.1
      · intro before c' after heq
        cases before with
        | nil =>
            cases heq
            rw [chainEdges_cons, hout c.id hnd.1]
            cases prev with
            | none => rfl
            | some p => simp
        | cons c₀ before =>
            cases heq
            have hne : c'.id ≠ c.id := fun h => hnd.1 (by rw [← h]; simp)
            rw [chainEdges_cons, hin before c' after rfl, List.getLast?_cons]
            cases prev with
            | none => cases before.getLast? <;> rfl
            | some p =>
                rw [Table.get_put_ne edges _ hne]
                cases before.getLast? <;> rfl

/-- The edges of the chain. -/
theorem dependsOn_chain (hnd : (children.map Child.id).Nodup) {t d : TicketId} :
    DependsOn (chainEdges pred children .empty) t d ↔
      ∃ before c after, children = before ++ c :: after ∧ c.id = t ∧
        (before.getLast?.map Child.id).or pred = some d := by
  obtain ⟨hout, hin⟩ := get_chainEdges children hnd pred .empty
  constructor
  · rintro ⟨deps, hget, hd⟩
    by_cases ht : t ∈ children.map Child.id
    · obtain ⟨c, hc, rfl⟩ := List.mem_map.1 ht
      obtain ⟨before, after, heq⟩ := List.append_of_mem hc
      rw [hin before c after heq, Table.get_empty, Option.or_none] at hget
      obtain ⟨p, hp, rfl⟩ := Option.map_eq_some_iff.1 hget
      rw [List.mem_singleton] at hd
      exact ⟨before, c, after, heq, rfl, hd ▸ hp⟩
    · rw [hout t ht] at hget
      cases hget
  · rintro ⟨before, c, after, heq, rfl, hd⟩
    refine ⟨[d], ?_, List.mem_singleton_self d⟩
    rw [hin before c after heq, hd]
    rfl

theorem splitInit_eq_some {init : Child} {others : List Child} (h : splitInit ctx children = some (init, others)) :
    children.Perm (init :: others) := by
  unfold splitInit at h
  rw [List.span_eq_takeWhile_dropWhile] at h
  have hall := List.takeWhile_append_dropWhile (p := fun c : Child => !ctx.isInitRepoChild c.title c.body)
    (l := children)
  cases hdrop : children.dropWhile fun c => !ctx.isInitRepoChild c.title c.body with
  | nil =>
      rw [hdrop] at h
      cases h
  | cons c after =>
      rw [hdrop] at h hall
      cases h
      conv_lhs => rw [← hall]
      exact List.perm_middle

/-- The edges of the star. -/
theorem dependsOn_star {init : Child} {others : List Child} (hnd : ((init :: others).map Child.id).Nodup)
    (h : splitInit ctx children = some (init, others)) {t d : TicketId} :
    DependsOn (computeBaseEdges ctx children pred) t d ↔
      t = init.id ∧ pred = some d ∨ (∃ c ∈ others, c.id = t) ∧ d = init.id := by
  have hstar : ∀ (l : List Child) (edges : EdgeMap), (l.foldl (fun e c => e.put c.id [init.id]) edges).get t =
      if t ∈ l.map Child.id then some [init.id] else edges.get t := by
    intro l
    induction l with
    | nil => exact fun _ => rfl
    | cons c l ih =>
        intro edges
        rw [List.foldl_cons, ih]
        by_cases hc : t = c.id
        · subst hc
          simp
        · simp [hc]
  have hinit : init.id ∉ others.map Child.id := (List.nodup_cons.1 hnd).1
  unfold DependsOn computeBaseEdges
  simp only [h]
  rw [hstar]
  by_cases ht : t ∈ others.map Child.id
  · have hne : t ≠ init.id := fun heq => hinit (heq ▸ ht)
    simpa [ht, hne] using fun _ => List.mem_map.1 ht
  · have hno : ¬ ∃ c ∈ others, c.id = t := fun ⟨c, hc, heq⟩ => ht (List.mem_map.2 ⟨c, hc, heq⟩)
    rw [if_neg ht]
    by_cases hne : t = init.id
    · subst hne
      cases pred with
      | none => simp [hno]
      | some p =>
          simp only [hno, false_and, or_false, true_and, Table.get_put_self]
          simp [eq_comm]
    · cases pred with
      | none => simp [hno, hne]
      | some p => simp [hno, hne]

/-- Base edges lead from the batch into the batch, or to the predecessor. -/
theorem mem_of_dependsOn_base (hnd : (children.map Child.id).Nodup) {t d : TicketId}
    (h : DependsOn (computeBaseEdges ctx children pred) t d) :
    t ∈ children.map Child.id ∧ (pred = some d ∨ d ∈ children.map Child.id) := by
  cases hsplit : splitInit ctx children with
  | none =>
      simp only [computeBaseEdges, hsplit] at h
      obtain ⟨before, c, after, rfl, rfl, hd⟩ := (dependsOn_chain hnd).1 h
      refine ⟨by simp, ?_⟩
      cases hlast : before.getLast? with
      | none =>
          rw [hlast] at hd
          exact .inl hd
      | some e =>
          rw [hlast] at hd
          cases hd
          exact .inr (List.mem_map_of_mem (List.mem_append_left _ (List.mem_of_getLast? hlast)))
  | some split =>
      obtain ⟨init, others⟩ := split
      have hperm := splitInit_eq_some hsplit
      have hids := hperm.map Child.id
      rw [hids.mem_iff, hids.mem_iff]
      rcases (dependsOn_star (hids.nodup_iff.1 hnd) hsplit).1 h with ⟨rfl, hd⟩ | ⟨⟨c, hc, rfl⟩, rfl⟩
      · exact ⟨by simp, .inl hd⟩
      · exact ⟨List.mem_cons_of_mem _ (List.mem_map_of_mem hc), .inr (by simp)⟩

theorem child_eq_of_id (hnd : (children.map Child.id).Nodup) {c c' : Child} (hc : c ∈ children)
    (hc' : c' ∈ children) (h : c.id = c'.id) : c = c' :=
  List.inj_on_of_nodup_map hnd hc hc' h

/-- Later children of the chain lead back to earlier ones. -/
theorem chain_path (hnd : (children.map Child.id).Nodup) {c e : Child} {before after : List Child}
    (heq : children = before ++ c :: after) (he : e ∈ after) :
    Relation.TransGen (DependsOn (chainEdges pred children .empty)) e.id c.id := by
  obtain ⟨mid, post, rfl⟩ := List.append_of_mem he
  clear he
  induction mid using List.reverseRecOn generalizing e post with
  | nil =>
      refine .single ((dependsOn_chain hnd).2 ⟨before ++ [c], e, post, by simp [heq], rfl, ?_⟩)
      simp
  | append_singleton mid m ih =>
      have hstep : DependsOn (chainEdges pred children .empty) e.id m.id := by
        refine (dependsOn_chain hnd).2 ⟨before ++ c :: (mid ++ [m]), e, post, by simp [heq], rfl, ?_⟩
        rw [← List.cons_append, ← List.append_assoc, List.getLast?_concat]
        rfl
      exact .head hstep (ih (e :: post) (by simp [heq]))

/-! ## Soundness of the plan -/

/-- **What a plan must be**: without cycles; each bump child waits for all children of its producer repo;
    each child waits for the bump child of each pair it needs. -/
structure PlanSound (ctx : BreakdownContext) (x : CrossRepo) (children : List Child) (pred : Option TicketId)
    (edges : EdgeMap) : Prop where
  acyclic : Acyclic (DependsOn edges)
  bumps : ∀ R P b d, Created ctx x children R P b → repoOf x children d = some P → DependsOn edges b d
  consumers : ∀ c ∈ children, ∀ R P, repoOf x children c.id = some R → Needs ctx x children c P →
    ∃ b, Created ctx x children R P b ∧ DependsOn edges c.id b

/-- Each child needs at most one producer repo. -/
def OneProducer (ctx : BreakdownContext) (x : CrossRepo) (children : List Child) : Prop :=
  ∀ c ∈ children, ∀ P Q, Needs ctx x children c P → Needs ctx x children c Q → P = Q

/-- `d` comes before `t` in the batch. -/
def Precedes (children : List Child) (d t : TicketId) : Prop :=
  ∃ before c after, children = before ++ c :: after ∧ c.id = t ∧ d ∈ before.map Child.id

/-- In a chain, the children of a needed repo come first; in a star, the child that creates the repository
    needs none, and the others do not need each other in a circle. -/
def OrderedNeeds (ctx : BreakdownContext) (x : CrossRepo) (children : List Child) : Prop :=
  match splitInit ctx children with
  | none => ∀ t d, Feeds ctx x children t d → Precedes children d t
  | some (init, _) => (∀ P, ¬ Needs ctx x children init P) ∧ Acyclic (Feeds ctx x children)

/-- Nobody feeds on a ticket of its own repo. -/
theorem Feeds.ne {t d : TicketId} (h : Feeds ctx x children t d) : t ≠ d := by
  rintro rfl
  obtain ⟨c, -, rfl, P, ⟨R, pkg, hR, -, -, hne⟩, hP⟩ := h
  exact hne (Option.some.inj (hP.symm.trans hR))

theorem Feeds.mem {t d : TicketId} (h : Feeds ctx x children t d) :
    t ∈ children.map Child.id ∧ d ∈ children.map Child.id := by
  obtain ⟨c, hc, rfl, P, -, hP⟩ := h
  exact ⟨List.mem_map_of_mem hc, mem_of_repoOf hP⟩

/-- A needed repo has a child. -/
theorem exists_feeds {c : Child} (hc : c ∈ children) {P : RepoId} (h : Needs ctx x children c P) :
    ∃ d, Feeds ctx x children c.id d := by
  have hneeds := h
  obtain ⟨R, pkg, -, -, hP, -⟩ := h
  obtain ⟨d, hd⟩ := mem_repoIdsPresent.1 (mem_of_buildPackageRepoMap hP)
  exact ⟨d, c, hc, rfl, P, hneeds, hd⟩

section Sound

variable (hnd : (children.map Child.id).Nodup) (hpred : ∀ p, pred = some p → p ∉ children.map Child.id)
  (hfresh : FreshIds x children pred)

include hfresh in
theorem not_created_of_pred {t : TicketId} (ht : pred = some t) (R P : RepoId) :
    ¬ Created ctx x children R P t := by
  rintro ⟨n, candidate, -, hid⟩
  exact hfresh.notPredecessor _ _ _ _ hid ht

include hnd hfresh in
/-- Base edges do not lead to bump children. -/
theorem not_created_of_base {t d : TicketId} (h : DependsOn (computeBaseEdges ctx children pred) t d)
    (R P : RepoId) : ¬ Created ctx x children R P d := by
  rcases (mem_of_dependsOn_base hnd h).2 with hd | hd
  · exact not_created_of_pred hfresh hd R P
  · exact not_created_of_mem hfresh hd R P

include hnd hfresh in
/-- With one producer for each child nothing is overwritten. -/
theorem consumers_of_oneProducer (hone : OneProducer ctx x children) {c : Child} (hc : c ∈ children)
    {R P : RepoId} (hR : repoOf x children c.id = some R) (hneeds : Needs ctx x children c P) :
    ∃ b, Created ctx x children R P b ∧
      DependsOn (planChildDependencies ctx children pred (some x)) c.id b := by
  obtain ⟨R', candidate, hR', hrow, hmem⟩ := exists_row_of_needs hc hneeds
  obtain ⟨b, hb⟩ := lastBump_isSome hfresh (n := 0) hrow hmem
  have hdep := (dependsOn_of_not_created hfresh
    (not_created_of_mem hfresh (List.mem_map_of_mem hc))).2 hb
  obtain ⟨R₁, P₁, hcreated, c₁, hc₁, hid, hR₁, hneeds₁⟩ :=
    consumer_of_dependsOn hfresh (not_created_of_mem hfresh (List.mem_map_of_mem hc)) hdep
  have hsame := child_eq_of_id hnd hc₁ hc hid
  subst hsame
  rw [hR] at hR₁
  cases hR₁
  have hP := hone _ hc₁ P₁ P hneeds₁ hneeds
  subst hP
  exact ⟨b, hcreated, dependsOn_plan.2 (.inr hdep)⟩

include hnd hfresh in
/-- A child keeps one bump child, so completeness means one producer. -/
theorem oneProducer_of_sound
    (h : PlanSound ctx x children pred (planChildDependencies ctx children pred (some x))) :
    OneProducer ctx x children := by
  have hlast : ∀ c ∈ children, ∀ R P b, Created ctx x children R P b →
      DependsOn (planChildDependencies ctx children pred (some x)) c.id b →
      lastBump x c.id 0 (groupBumpCandidates ctx x children).rows = some b := by
    intro c hc R P b hb hdep
    rcases dependsOn_plan.1 hdep with hbase | hdetect
    · exact absurd hb (not_created_of_base hnd hfresh hbase R P)
    · exact (dependsOn_of_not_created hfresh
        (not_created_of_mem hfresh (List.mem_map_of_mem hc))).1 hdetect
  intro c hc P Q hP hQ
  obtain ⟨R, candidate, hR, -, -⟩ := exists_row_of_needs hc hP
  obtain ⟨b, hb, hdep⟩ := h.consumers c hc R P hR hP
  obtain ⟨b', hb', hdep'⟩ := h.consumers c hc R Q hR hQ
  have hsame := (hlast c hc R P b hb hdep).symm.trans (hlast c hc R Q b' hb' hdep')
  cases hsame
  exact (hb.unique hfresh hb').2

/-- In a sound plan, feeding means depending. -/
theorem transGen_of_feeds
    (h : PlanSound ctx x children pred (planChildDependencies ctx children pred (some x))) {t d : TicketId}
    (hf : Feeds ctx x children t d) :
    Relation.TransGen (DependsOn (planChildDependencies ctx children pred (some x))) t d := by
  obtain ⟨c, hc, rfl, P, hneeds, hd⟩ := hf
  obtain ⟨R, candidate, hR, -, -⟩ := exists_row_of_needs hc hneeds
  obtain ⟨b, hb, hdep⟩ := h.consumers c hc R P hR hneeds
  exact .tail (.single hdep) (h.bumps R P b d hb hd)

include hnd in
theorem orderedNeeds_of_sound
    (h : PlanSound ctx x children pred (planChildDependencies ctx children pred (some x))) :
    OrderedNeeds ctx x children := by
  have hbase : ∀ {t d}, DependsOn (computeBaseEdges ctx children pred) t d →
      DependsOn (planChildDependencies ctx children pred (some x)) t d :=
    fun hb => dependsOn_plan.2 (.inl hb)
  unfold OrderedNeeds
  cases hsplit : splitInit ctx children with
  | none =>
      intro t d hf
      obtain ⟨ht, hd⟩ := hf.mem
      obtain ⟨c, hc, rfl⟩ := List.mem_map.1 ht
      obtain ⟨e, he, rfl⟩ := List.mem_map.1 hd
      obtain ⟨before, after, heq⟩ := List.append_of_mem hc
      rw [heq, List.mem_append, List.mem_cons] at he
      rcases he with hbefore | rfl | hafter
      · exact ⟨before, c, after, heq, rfl, List.mem_map_of_mem hbefore⟩
      · exact absurd rfl hf.ne
      · -- a producer behind its consumer depends on it along the chain
        have hpath := @chain_path children pred hnd c e before after heq hafter
        have hbasepath : Relation.TransGen (DependsOn (planChildDependencies ctx children pred (some x)))
            e.id c.id := by
          refine Relation.TransGen.mono ?_ _ _ hpath
          intro a b hab
          refine hbase ?_
          simpa only [computeBaseEdges, hsplit] using hab
        exact absurd ((transGen_of_feeds h hf).trans hbasepath) (h.acyclic _)
  | some split =>
      obtain ⟨init, others⟩ := split
      have hids := (splitInit_eq_some hsplit).map Child.id
      have hinit : init ∈ children := (splitInit_eq_some hsplit).mem_iff.2 List.mem_cons_self
      refine ⟨fun P hneeds => ?_, fun t ht => ?_⟩
      · obtain ⟨d, hf⟩ := exists_feeds hinit hneeds
        have hd := hids.mem_iff.1 hf.mem.2
        rw [List.map_cons, List.mem_cons] at hd
        obtain ⟨e, he, rfl⟩ := List.mem_map.1 (hd.resolve_left hf.ne.symm)
        have hback : DependsOn (computeBaseEdges ctx children pred) e.id init.id :=
          (dependsOn_star (hids.nodup_iff.1 hnd) hsplit).2 (.inr ⟨⟨e, he, rfl⟩, rfl⟩)
        exact h.acyclic _ ((transGen_of_feeds h hf).tail (hbase hback))
      · refine h.acyclic t ?_
        have hlift : ∀ {a b}, Relation.TransGen (Feeds ctx x children) a b →
            Relation.TransGen (DependsOn (planChildDependencies ctx children pred (some x))) a b := by
          intro a b hab
          induction hab with
          | single hb => exact transGen_of_feeds h hb
          | tail _ hbc ih => exact ih.trans (transGen_of_feeds h hbc)
        exact hlift ht

include hnd hpred in
/-- The base edges and the needs, without the bump children in between. -/
theorem acyclic_around_bumps (hord : OrderedNeeds ctx x children) :
    Acyclic fun t d => DependsOn (computeBaseEdges ctx children pred) t d ∨ Feeds ctx x children t d := by
  have hnopred : ∀ {t d}, pred = some t →
      ¬ (DependsOn (computeBaseEdges ctx children pred) t d ∨ Feeds ctx x children t d) := by
    rintro t d ht (hb | hf)
    · exact hpred t ht (mem_of_dependsOn_base hnd hb).1
    · exact hpred t ht hf.mem.1
  unfold OrderedNeeds at hord
  cases hsplit : splitInit ctx children with
  | none =>
      simp only [hsplit] at hord
      -- both kinds of edges lead to the front
      refine acyclic_of_rank (fun t =>
        if t ∈ children.map Child.id then (children.map Child.id).idxOf t + 1 else 0) ?_
      have hrank : ∀ {before c after} {d : TicketId}, children = before ++ c :: after →
          d ∈ before.map Child.id → (children.map Child.id).idxOf d < (children.map Child.id).idxOf c.id := by
        intro before c after d heq hd
        have hc : c.id ∉ before.map Child.id := by
          rw [heq, List.map_append, List.nodup_append] at hnd
          exact fun hmem => hnd.2.2 _ hmem _ (by simp) rfl
        rw [heq, List.map_append, List.map_cons, List.idxOf_append_of_mem hd,
          List.idxOf_append_of_notMem hc, List.idxOf_cons_self]
        have := List.idxOf_lt_length_iff.2 hd
        omega
      rintro t d (hb | hf)
      · have ht := (mem_of_dependsOn_base hnd hb).1
        simp only [computeBaseEdges, hsplit] at hb
        obtain ⟨before, c, after, heq, rfl, hd⟩ := (dependsOn_chain hnd).1 hb
        simp only [if_pos ht]
        cases hlast : before.getLast? with
        | none =>
            rw [hlast] at hd
            rw [if_neg (hpred d hd)]
            omega
        | some e =>
            rw [hlast] at hd
            cases hd
            have hmem : e.id ∈ before.map Child.id := List.mem_map_of_mem (List.mem_of_getLast? hlast)
            have := hrank heq hmem
            split <;> omega
      · obtain ⟨ht, hd⟩ := hf.mem
        obtain ⟨before, c, after, heq, rfl, hmem⟩ := hord t d hf
        have := hrank heq hmem
        simp only [if_pos ht, if_pos hd]
        omega
  | some split =>
      obtain ⟨init, others⟩ := split
      simp only [hsplit] at hord
      obtain ⟨hnone, hacyclic⟩ := hord
      have hids := (splitInit_eq_some hsplit).map Child.id
      have hstar : ∀ {t d}, DependsOn (computeBaseEdges ctx children pred) t d ↔
          t = init.id ∧ pred = some d ∨ (∃ c ∈ others, c.id = t) ∧ d = init.id :=
        dependsOn_star (hids.nodup_iff.1 hnd) hsplit
      have hinitmem : init ∈ children := (splitInit_eq_some hsplit).mem_iff.2 List.mem_cons_self
      have hinitnot : init.id ∉ others.map Child.id := (List.nodup_cons.1 (hids.nodup_iff.1 hnd)).1
      have hfrominit : ∀ {d}, DependsOn (computeBaseEdges ctx children pred) init.id d ∨
          Feeds ctx x children init.id d → pred = some d := by
        rintro d (hb | ⟨c, hc, hid, P, hneeds, -⟩)
        · rcases hstar.1 hb with ⟨-, hd⟩ | ⟨⟨c, hc, hid⟩, -⟩
          · exact hd
          · exact absurd (hid ▸ List.mem_map_of_mem hc) hinitnot
        · rw [child_eq_of_id hnd hc hinitmem hid] at hneeds
          exact absurd hneeds (hnone P)
      refine hacyclic.of_exit (D := fun t => t = init.id ∨ pred = some t) ?_ ?_ ?_
      · rintro t d (rfl | ht) hedge
        · exact .inr (hfrominit hedge)
        · exact absurd hedge (hnopred ht)
      · rintro t (rfl | ht) hcycle
        · obtain ⟨d, hd, hback⟩ := Relation.TransGen.head'_iff.1 hcycle
          have hd := hfrominit hd
          rcases hback.cases_head with rfl | ⟨e, hde, -⟩
          · exact hpred _ hd (hids.mem_iff.2 (by simp))
          · exact hnopred hd hde
        · obtain ⟨d, hd, -⟩ := Relation.TransGen.head'_iff.1 hcycle
          exact hnopred ht hd
      · rintro t d ht hd (hb | hf)
        · rcases hstar.1 hb with ⟨heq, -⟩ | ⟨-, heq⟩
          · exact absurd (.inl heq) ht
          · exact absurd (.inl heq) hd
        · exact hf

end Sound

/-- **The planned dependencies.** For a batch with distinct ids, a predecessor outside it and fresh ids for
    the bump children, the plan has no cycle and lacks no edge exactly if each child needs at most one
    producer repo and the needs fit the base edges. -/
theorem plan_sound (hnd : (children.map Child.id).Nodup)
    (hpred : ∀ p, pred = some p → p ∉ children.map Child.id) (hfresh : FreshIds x children pred) :
    PlanSound ctx x children pred (planChildDependencies ctx children pred (some x)) ↔
      OneProducer ctx x children ∧ OrderedNeeds ctx x children := by
  constructor
  · exact fun h => ⟨oneProducer_of_sound hnd hfresh h, orderedNeeds_of_sound hnd h⟩
  · rintro ⟨hone, hord⟩
    refine ⟨?_, fun R P b d hb hd => dependsOn_plan.2 (.inr ((dependsOn_of_created hfresh hb).2 hd)),
      fun c hc R P hR hneeds => consumers_of_oneProducer hnd hfresh hone hc hR hneeds⟩
    refine acyclic_of_bypass (S := fun t => ∃ R P, Created ctx x children R P t)
      ((acyclic_around_bumps hnd hpred hord).mono ?_) ?_
    · rintro t d ⟨ht, hd, hedge | ⟨b, ⟨R, P, hb⟩, htb, hbd⟩⟩
      · rcases dependsOn_plan.1 hedge with hbase | hdetect
        · exact .inl hbase
        · obtain ⟨R, P, hcreated, -⟩ :=
            consumer_of_dependsOn hfresh (fun R P h => ht ⟨R, P, h⟩) hdetect
          exact absurd ⟨R, P, hcreated⟩ hd
      · right
        rcases dependsOn_plan.1 htb with hbase | hdetect
        · exact absurd hb (not_created_of_base hnd hfresh hbase R P)
        · obtain ⟨R', P', hcreated, c, hc, hid, -, hneeds⟩ :=
            consumer_of_dependsOn hfresh (fun R P h => ht ⟨R, P, h⟩) hdetect
          obtain ⟨-, rfl⟩ := hb.unique hfresh hcreated
          rcases dependsOn_plan.1 hbd with hbase | hdetect'
          · exact absurd hb (not_created_of_mem hfresh (mem_of_dependsOn_base hnd hbase).1 R P)
          · exact ⟨c, hc, hid, P, hneeds, (dependsOn_of_created hfresh hb).1 hdetect'⟩
    · rintro b d ⟨R, P, hb⟩ hedge ⟨R', P', hd⟩
      rcases dependsOn_plan.1 hedge with hbase | hdetect
      · exact not_created_of_mem hfresh (mem_of_dependsOn_base hnd hbase).1 R P hb
      · exact not_created_of_mem hfresh (mem_of_repoOf ((dependsOn_of_created hfresh hb).1 hdetect)) R' P' hd

end Plan

/-! ## A library and the application that uses it -/

/-- The body of a child that imports the library. -/
def importingBody : String := "## Prerequisites\n\n```prereq\nimport lib\n```\n"

def useApi : Child := { id := "c-app", title := "Use the API", body := importingBody }
def addApi : Child := { id := "c-lib", title := "Add the API", body := "" }

/-- No child creates a repository. -/
def importContext : BreakdownContext where
  isInitRepoChild _ _ := false
  parsePrereqPackages body := if body = importingBody then ["lib"] else []
  setOrder := id
  setOrder_perm _ := .refl _

/-- One child in each repo; the bump children are numbered. -/
def twoRepos : CrossRepo where
  childBoardId t := if t = "c-app" then "app-board" else "lib-board"
  createChild n _ _ := some (toString n)
  repos := [("app", "app-board"), ("lib", "lib-board")]

/-- A number is the id of no child, and each number is written once. -/
theorem freshIds_twoRepos {children : List Child} (h : ∀ c ∈ children, c = useApi ∨ c = addApi) :
    FreshIds twoRepos children none where
  returns n _ _ := ⟨toString n, rfl⟩
  outside n title body id hid hmem := by
    cases hid
    obtain ⟨c, hc, heq⟩ := List.mem_map.1 hmem
    have hread : parseInt c.id = some (n : Int) := by rw [heq, parseInt_toString]
    rcases h c hc with rfl | rfl
    · have : parseInt useApi.id = none := by decide +kernel
      rw [this] at hread
      cases hread
    · have : parseInt addApi.id = none := by decide +kernel
      rw [this] at hread
      cases hread
  notPredecessor n title body id hid h := by cases h
  distinct n m _ _ _ _ id hn hm := by
    cases hn
    have heq : toString m = toString n := Option.some.inj hm
    have hread := congrArg parseInt heq
    rw [parseInt_toString, parseInt_toString] at hread
    exact (Int.ofNat.inj (Option.some.inj hread)).symm

/-- The producer first. -/
theorem plan_sound_library_first :
    PlanSound importContext twoRepos [addApi, useApi] none
      (planChildDependencies importContext [addApi, useApi] none (some twoRepos)) := by
  have hpkg : ∀ {c : Child} {P : RepoId}, Needs importContext twoRepos [addApi, useApi] c P →
      c.body = importingBody ∧ P = "lib" := by
    rintro c P ⟨R, pkg, -, hpkg, hP, -⟩
    have hbody : c.body = importingBody := by
      by_contra hno
      simp [importContext, hno] at hpkg
    have hlib : pkg = "lib" := by simpa [importContext, hbody] using hpkg
    subst hlib
    have hmap : (buildPackageRepoMap (repoIdsPresent importContext twoRepos [addApi, useApi])).get "lib" =
        some "lib" := by decide +kernel
    rw [hmap] at hP
    exact ⟨hbody, (Option.some.inj hP).symm⟩
  refine (plan_sound (by decide) (by simp) (freshIds_twoRepos (by simp))).2 ⟨?_, ?_⟩
  · exact fun c _ P Q hP hQ => (hpkg hP).2.trans (hpkg hQ).2.symm
  · rintro t d ⟨c, hc, rfl, P, hneeds, hd⟩
    obtain ⟨hbody, rfl⟩ := hpkg hneeds
    have hmem := mem_of_repoOf hd
    simp only [List.map_cons, List.map_nil, List.mem_cons, List.not_mem_nil, or_false] at hmem hc
    have happ : repoOf twoRepos [addApi, useApi] useApi.id = some "app" := by decide +kernel
    rcases hmem with rfl | rfl
    · rcases hc with rfl | rfl
      · exact absurd hbody (by decide)
      · exact ⟨[addApi], useApi, [], rfl, rfl, by simp⟩
    · rw [happ] at hd
      exact absurd hd (by decide)

/-- **The consumer first**: the chain makes the library wait for the application, the bump child the
    application for the library. -/
theorem consumer_first_deadlocks :
    FreshIds twoRepos [useApi, addApi] none ∧ ([useApi, addApi].map Child.id).Nodup ∧
    ¬ Acyclic (DependsOn
      (planChildDependencies importContext [useApi, addApi] none (some twoRepos))) := by
  have happ : (planChildDependencies importContext [useApi, addApi] none (some twoRepos)).get "c-app" =
      some ["0"] := by decide +kernel
  have hbump : (planChildDependencies importContext [useApi, addApi] none (some twoRepos)).get "0" =
      some ["c-lib"] := by decide +kernel
  have hlib : (planChildDependencies importContext [useApi, addApi] none (some twoRepos)).get "c-lib" =
      some ["c-app"] := by decide +kernel
  refine ⟨freshIds_twoRepos (by simp), by decide, fun h => h "c-app" ?_⟩
  exact ((Relation.TransGen.single ⟨_, happ, List.mem_singleton_self _⟩).tail
    ⟨_, hbump, List.mem_singleton_self _⟩).tail ⟨_, hlib, List.mem_singleton_self _⟩

end Agents
end RobotsixMill
