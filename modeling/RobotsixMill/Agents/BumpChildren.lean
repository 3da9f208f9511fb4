import RobotsixMill.Agents.EpicBreakdown

/-!
# `Agents.BumpChildren` — who waits for which bump child

`Needs` reads the producer repos of a child off its prerequisites, `Created` names the bump child of a pair
of repos. The detection wires the bump children one after the other and overwrites what it wired before:

- `dependsOn_of_created`: a bump child waits for all children of its producer repo;
- `dependsOn_of_not_created`: a consumer waits for one bump child only, the last one wired to it;
- `dependsOn_plan`: the plan has these edges and the base edges, and no others.
-/

namespace RobotsixMill
namespace Agents
open RobotsixMill.Core Lib

/-! ## What the children need -/

section Needs

variable (ctx : BreakdownContext) (x : CrossRepo) (children : List Child)

/-- The repo of a ticket of the batch. -/
abbrev repoOf (t : TicketId) : Option RepoId := (buildChildRepoMap x children).get t

/-- The child imports a package of the repo `P`, which is not its own. -/
def Needs (c : Child) (P : RepoId) : Prop :=
  ∃ R pkg, repoOf x children c.id = some R ∧ pkg ∈ ctx.parsePrereqPackages c.body ∧
    (buildPackageRepoMap (repoIdsPresent ctx x children)).get pkg = some P ∧ P ≠ R

/-- `t` needs the repo that `d` is in. -/
def Feeds (t d : TicketId) : Prop :=
  ∃ c ∈ children, c.id = t ∧ ∃ P, Needs ctx x children c P ∧ repoOf x children d = some P

/-- `b` is the bump child created for a pair of repos. -/
def Created (R P : RepoId) (b : TicketId) : Prop :=
  ∃ n candidate, (groupBumpCandidates ctx x children).rows[n]? = some ((R, P), candidate) ∧
    bumpId x n (R, P) candidate = some b

variable {ctx x children}

/-- `create_child` returns ids that are new: none of the batch, not the predecessor, never the same. -/
structure FreshIds (x : CrossRepo) (children : List Child) (predecessorId : Option TicketId) : Prop where
  returns : ∀ n title body, ∃ id, x.createChild n title body = some id
  outside : ∀ n title body id, x.createChild n title body = some id → id ∉ children.map Child.id
  notPredecessor : ∀ n title body id, x.createChild n title body = some id → predecessorId ≠ some id
  distinct : ∀ n m title title' body body' id, x.createChild n title body = some id →
    x.createChild m title' body' = some id → n = m

theorem mem_childRepoPairs {t : TicketId} {repo : RepoId} (h : (t, repo) ∈ childRepoPairs x children) :
    t ∈ children.map Child.id := by
  obtain ⟨c, hc, heq⟩ := List.mem_filterMap.1 h
  obtain ⟨repo', -, heq⟩ := Option.map_eq_some_iff.1 heq
  cases heq
  exact List.mem_map_of_mem hc

/-- Only tickets of the batch have a repo. -/
theorem mem_of_repoOf {t : TicketId} {repo : RepoId} (h : repoOf x children t = some repo) :
    t ∈ children.map Child.id := by
  rw [repoOf, buildChildRepoMap, Table.get_ofPairs] at h
  obtain ⟨p, hp, rfl⟩ := Option.map_eq_some_iff.1 h
  obtain ⟨hmem, hk⟩ := List.mem_filter.1 (List.mem_of_getLast? hp)
  have hk : p.1 = t := by simpa using hk
  subst hk
  exact mem_childRepoPairs hmem

theorem mem_repoIdsPresent {repo : RepoId} :
    repo ∈ repoIdsPresent ctx x children ↔ ∃ t, repoOf x children t = some repo := by
  rw [repoIdsPresent, (ctx.setOrder_perm _).mem_iff, List.mem_eraseDups, List.mem_map]
  constructor
  · rintro ⟨⟨t, r⟩, hrow, rfl⟩
    exact ⟨t, Table.mem_rows.1 hrow⟩
  · rintro ⟨t, ht⟩
    exact ⟨(t, repo), Table.mem_rows.2 ht, rfl⟩

/-- A package stands for one of the repos. -/
theorem mem_of_buildPackageRepoMap {repoIds : List RepoId} {pkg : String} {P : RepoId}
    (h : (buildPackageRepoMap repoIds).get pkg = some P) : P ∈ repoIds := by
  rw [buildPackageRepoMap, Table.get_ofPairs] at h
  obtain ⟨p, hp, rfl⟩ := Option.map_eq_some_iff.1 h
  obtain ⟨rid, hrid, rfl⟩ := List.mem_map.1 (List.mem_filter.1 (List.mem_of_getLast? hp)).1
  exact hrid

theorem foldl_append {α β : Type} (f : α → β) (l : List α) (o : Option (List β)) :
    (l.foldl (fun o a => some (o.getD [] ++ [f a])) o).getD [] = o.getD [] ++ l.map f := by
  induction l generalizing o with
  | nil => simp
  | cons a l ih => rw [List.foldl_cons, ih]; simp

/-- The children of a repo are the tickets in it. -/
theorem mem_repoChildren {P : RepoId} {t : TicketId} :
    t ∈ ((repoChildren x children).get P).getD [] ↔ repoOf x children t = some P := by
  rw [repoChildren, Table.get_foldl_upsert Prod.snd (fun row ids => ids.getD [] ++ [row.1]),
    Table.get_empty, foldl_append Prod.fst, Option.getD_none, List.nil_append, List.mem_map]
  constructor
  · rintro ⟨⟨t', P'⟩, hrow, rfl⟩
    obtain ⟨hmem, hP⟩ := List.mem_filter.1 hrow
    have hP : P' = P := by simpa using hP
    subst hP
    exact Table.mem_rows.1 hmem
  · intro h
    exact ⟨(t, P), List.mem_filter.2 ⟨Table.mem_rows.2 h, by simp⟩, rfl⟩

theorem repoChildren_ne_nil {P : RepoId} (h : P ∈ repoIdsPresent ctx x children) :
    ((repoChildren x children).get P).getD [] ≠ [] := by
  obtain ⟨t, ht⟩ := mem_repoIdsPresent.1 h
  exact List.ne_nil_of_mem (mem_repoChildren.2 ht)

/-- The grouping loops run over what the children need. -/
theorem mem_crossRepoUses {u : Use} :
    u ∈ crossRepoUses ctx x children ↔ ∃ c ∈ children, u.consumer = c.id ∧
      repoOf x children c.id = some u.consumerRepo ∧ u.package ∈ ctx.parsePrereqPackages c.body ∧
      (buildPackageRepoMap (repoIdsPresent ctx x children)).get u.package = some u.producerRepo ∧
      u.producerRepo ≠ u.consumerRepo := by
  rw [crossRepoUses, List.mem_flatMap]
  refine exists_congr fun c => and_congr_right fun _ => ?_
  cases hrepo : repoOf x children c.id with
  | none => simp [hrepo]
  | some R =>
      simp only [hrepo, List.mem_filterMap]
      constructor
      · rintro ⟨pkg, hpkg, heq⟩
        cases hP : (buildPackageRepoMap (repoIdsPresent ctx x children)).get pkg with
        | none => simp [hP] at heq
        | some P =>
            simp only [hP] at heq
            split at heq
            · cases heq
            · rename_i hne
              split at heq
              · cases heq
              · cases heq
                exact ⟨rfl, rfl, hpkg, hP, hne⟩
      · rintro ⟨hc, hR, hpkg, hP, hne⟩
        cases hR
        refine ⟨u.package, hpkg, ?_⟩
        simp only [hP]
        rw [if_neg hne, if_neg (repoChildren_ne_nil (mem_of_buildPackageRepoMap hP)), ← hc]

theorem mem_foldl_addUse {t : TicketId} (l : List Use) (o : Option Candidate) :
    t ∈ ((l.foldl (fun o u => some (addUse u o)) o).getD ([], [])).1 ↔
      t ∈ (o.getD ([], [])).1 ∨ ∃ u ∈ l, u.consumer = t := by
  induction l generalizing o with
  | nil => simp
  | cons u l ih =>
      rw [List.foldl_cons, ih]
      simp only [addUse, Option.getD_some, List.mem_cons, exists_eq_or_imp]
      by_cases hu : u.consumer ∈ (o.getD ([], [])).1
      · rw [if_pos hu]
        constructor
        · tauto
        · rintro (h | rfl | h)
          · exact .inl h
          · exact .inl hu
          · exact .inr h
      · rw [if_neg hu, List.mem_append, List.mem_singleton]
        tauto

theorem nodup_foldl_addUse (l : List Use) (o : Option Candidate) (h : (o.getD ([], [])).1.Nodup) :
    ((l.foldl (fun o u => some (addUse u o)) o).getD ([], [])).1.Nodup := by
  induction l generalizing o with
  | nil => exact h
  | cons u l ih =>
      refine ih _ ?_
      show (if u.consumer ∈ (o.getD ([], [])).1 then (o.getD ([], [])).1
        else (o.getD ([], [])).1 ++ [u.consumer]).Nodup
      split
      · exact h
      · rename_i hu
        exact List.nodup_append.2 ⟨h, List.nodup_singleton _, by
          rintro a ha b hb rfl
          exact hu (List.mem_singleton.1 hb ▸ ha)⟩

/-- What the grouping leaves for a pair. -/
theorem groupBumpCandidates_spec {R P : RepoId} {candidate : Candidate}
    (h : (groupBumpCandidates ctx x children).get (R, P) = some candidate) :
    candidate.1.Nodup ∧ ∀ t, t ∈ candidate.1 ↔
      ∃ u ∈ crossRepoUses ctx x children, u.consumerRepo = R ∧ u.producerRepo = P ∧ u.consumer = t := by
  rw [groupBumpCandidates,
    Table.get_foldl_upsert (fun u : Use => (u.consumerRepo, u.producerRepo)) addUse, Table.get_empty] at h
  have hval : candidate = ((List.foldl (fun o u => some (addUse u o)) none
      ((crossRepoUses ctx x children).filter fun u =>
        decide ((u.consumerRepo, u.producerRepo) = (R, P)))).getD ([], [])) := by rw [h]; rfl
  rw [hval]
  refine ⟨nodup_foldl_addUse _ _ List.nodup_nil, fun t => ?_⟩
  rw [mem_foldl_addUse]
  simp only [Option.getD_none, List.not_mem_nil, false_or, List.mem_filter, decide_eq_true_eq,
    Prod.mk.injEq]
  constructor
  · rintro ⟨u, ⟨hu, hR, hP⟩, ht⟩
    exact ⟨u, hu, hR, hP, ht⟩
  · rintro ⟨u, hu, hR, hP, ht⟩
    exact ⟨u, ⟨hu, hR, hP⟩, ht⟩

/-- Every use has a candidate. -/
theorem exists_candidate {u : Use} (hu : u ∈ crossRepoUses ctx x children) :
    ∃ candidate, (groupBumpCandidates ctx x children).get (u.consumerRepo, u.producerRepo) =
      some candidate := by
  rw [groupBumpCandidates,
    Table.get_foldl_upsert (fun u : Use => (u.consumerRepo, u.producerRepo)) addUse, Table.get_empty]
  have hmem : u ∈ (crossRepoUses ctx x children).filter fun v =>
      decide ((v.consumerRepo, v.producerRepo) = (u.consumerRepo, u.producerRepo)) :=
    List.mem_filter.2 ⟨hu, by simp⟩
  generalize (crossRepoUses ctx x children).filter _ = l at hmem ⊢
  cases l using List.reverseRecOn with
  | nil => cases hmem
  | append_singleton l v => exact ⟨_, by rw [List.foldl_append]; rfl⟩

/-! ## What the bump children wait for -/

/-- The edges of one bump child. -/
theorem get_bumpEdges {bump : TicketId} {consumers producers : List TicketId} (hnd : consumers.Nodup)
    (hbump : bump ∉ consumers) (t : TicketId) :
    (bumpEdges bump consumers producers).get t =
      if t = bump then some producers else if t ∈ consumers then some [bump] else none := by
  refine (Table.get_foldl_upsert id (fun _ deps => deps.getD [] ++ [bump]) consumers _ t).trans ?_
  have hcount : (consumers.filter fun y => decide (id y = t)) = if t ∈ consumers then [t] else [] := by
    rw [show (fun y : TicketId => decide (id y = t)) = (fun y => y == t) from rfl, List.filter_beq]
    by_cases hc : t ∈ consumers
    · rw [if_pos hc, List.count_eq_one_of_mem hnd hc]
      rfl
    · rw [if_neg hc, List.count_eq_zero_of_not_mem hc]
      rfl
  rw [hcount]
  by_cases ht : t = bump
  · subst ht
    rw [if_neg hbump, if_pos rfl]
    simp
  · rw [if_neg ht]
    by_cases hc : t ∈ consumers
    · rw [if_pos hc, if_pos hc]
      simp [ht]
    · rw [if_neg hc, if_neg hc]
      simp [ht]

variable (x) in
/-- The last bump child wired to `t`; every earlier one is overwritten. -/
def lastBump (t : TicketId) : Nat → List ((RepoId × RepoId) × Candidate) → Option TicketId
  | _, [] => none
  | n, (pair, candidate) :: rest =>
    (lastBump t (n + 1) rest).or (if t ∈ candidate.1 then bumpId x n pair candidate else none)

/-- The rows `wireBumps` works on. -/
structure Wirable (x : CrossRepo) (children : List Child)
    (rows : List ((RepoId × RepoId) × Candidate)) : Prop where
  nodup : ∀ row ∈ rows, row.2.1.Nodup
  consumers : ∀ row ∈ rows, ∀ t ∈ row.2.1, t ∈ children.map Child.id
  producers : ∀ row ∈ rows, ((repoChildren x children).get row.1.2).getD [] ≠ []

variable {pred : Option TicketId}

/-- One row wired. -/
theorem wireBumps_cons (hfresh : FreshIds x children pred) {n : Nat} {pair : RepoId × RepoId}
    {candidate : Candidate} {rest : List ((RepoId × RepoId) × Candidate)} (edges : EdgeMap)
    (hw : Wirable x children ((pair, candidate) :: rest)) :
    ∃ bump, bumpId x n pair candidate = some bump ∧
      wireBumps x children n ((pair, candidate) :: rest) edges = wireBumps x children (n + 1) rest
        (edges.update (bumpEdges bump candidate.1 (((repoChildren x children).get pair.2).getD []))) := by
  obtain ⟨bump, hbump⟩ := hfresh.returns n (bumpTitle pair.1 pair.2 candidate.2)
    (bumpBody pair.1 pair.2 candidate.2)
  have hbump : bumpId x n pair candidate = some bump := hbump
  refine ⟨bump, hbump, ?_⟩
  rw [wireBumps, if_neg (hw.producers _ List.mem_cons_self), hbump]

theorem Wirable.tail {row : (RepoId × RepoId) × Candidate} {rest : List ((RepoId × RepoId) × Candidate)}
    (h : Wirable x children (row :: rest)) : Wirable x children rest where
  nodup r hr := h.nodup r (List.mem_cons_of_mem _ hr)
  consumers r hr := h.consumers r (List.mem_cons_of_mem _ hr)
  producers r hr := h.producers r (List.mem_cons_of_mem _ hr)

/-- **A consumer keeps its last bump child**: what is left under a ticket that is no bump child. -/
theorem get_wireBumps_of_not_bump (hfresh : FreshIds x children pred) {n : Nat}
    {rows : List ((RepoId × RepoId) × Candidate)} {edges : EdgeMap} (hw : Wirable x children rows)
    {t : TicketId} (ht : ∀ i row, rows[i]? = some row → bumpId x (n + i) row.1 row.2 ≠ some t) :
    (wireBumps x children n rows edges).get t =
      ((lastBump x t n rows).map fun b => [b]).or (edges.get t) := by
  induction rows generalizing n edges with
  | nil => rfl
  | cons row rest ih =>
      obtain ⟨pair, candidate⟩ := row
      obtain ⟨bump, hbump, heq⟩ := wireBumps_cons hfresh (n := n) edges hw
      have hnot : bump ∉ candidate.1 := fun hmem =>
        hfresh.outside _ _ _ _ hbump (hw.consumers _ List.mem_cons_self bump hmem)
      have hne : t ≠ bump := by
        rintro rfl
        exact ht 0 _ rfl hbump
      have hrest : ∀ i row, rest[i]? = some row → bumpId x (n + 1 + i) row.1 row.2 ≠ some t := by
        intro i row hrow
        have := ht (i + 1) row (by rwa [List.getElem?_cons_succ])
        rwa [← Nat.add_assoc, Nat.add_right_comm] at this
      rw [heq, ih hw.tail hrest, Table.get_update, get_bumpEdges (hw.nodup _ List.mem_cons_self) hnot,
        if_neg hne, lastBump, hbump]
      cases lastBump x t (n + 1) rest with
      | some b => rfl
      | none => by_cases hc : t ∈ candidate.1 <;> simp [hc]

/-- **A bump child waits for the children of its producer repo.** -/
theorem get_wireBumps_of_bump (hfresh : FreshIds x children pred) {n i : Nat}
    {rows : List ((RepoId × RepoId) × Candidate)} {edges : EdgeMap} (hw : Wirable x children rows)
    {pair : RepoId × RepoId} {candidate : Candidate} (hrow : rows[i]? = some (pair, candidate))
    {b : TicketId} (hb : bumpId x (n + i) pair candidate = some b) :
    (wireBumps x children n rows edges).get b = some (((repoChildren x children).get pair.2).getD []) := by
  have hlater : ∀ {rows : List ((RepoId × RepoId) × Candidate)} {m : Nat} {edges : EdgeMap},
      Wirable x children rows → n + i < m → (wireBumps x children m rows edges).get b = edges.get b := by
    intro rows
    induction rows with
    | nil => exact fun _ _ => rfl
    | cons row rest ih =>
        intro m edges hw hm
        obtain ⟨pair', candidate'⟩ := row
        obtain ⟨bump, hbump, heq⟩ := wireBumps_cons hfresh (n := m) edges hw
        have hnot : bump ∉ candidate'.1 := fun hmem =>
          hfresh.outside _ _ _ _ hbump (hw.consumers _ List.mem_cons_self bump hmem)
        have hne : b ≠ bump := by
          rintro rfl
          have := hfresh.distinct _ _ _ _ _ _ _ hb hbump
          omega
        have hconsumer : b ∉ candidate'.1 := fun hmem =>
          hfresh.outside _ _ _ _ hb (hw.consumers _ List.mem_cons_self b hmem)
        rw [heq, ih hw.tail (by omega), Table.get_update,
          get_bumpEdges (hw.nodup _ List.mem_cons_self) hnot, if_neg hne, if_neg hconsumer]
        rfl
  induction rows generalizing n i edges with
  | nil => simp at hrow
  | cons row rest ih =>
      obtain ⟨pair', candidate'⟩ := row
      obtain ⟨bump, hbump, heq⟩ := wireBumps_cons hfresh (n := n) edges hw
      have hnot : bump ∉ candidate'.1 := fun hmem =>
        hfresh.outside _ _ _ _ hbump (hw.consumers _ List.mem_cons_self bump hmem)
      cases i with
      | zero =>
          rw [List.getElem?_cons_zero] at hrow
          cases hrow
          rw [Nat.add_zero, hbump] at hb
          cases hb
          rw [heq, hlater hw.tail (by omega), Table.get_update,
            get_bumpEdges (hw.nodup _ List.mem_cons_self) hnot, if_pos rfl]
          rfl
      | succ i =>
          rw [List.getElem?_cons_succ] at hrow
          rw [heq]
          refine ih hw.tail hrow ?_ ?_
          · rw [← hb]; congr 1; omega
          · intro rows m edges hw hm
            exact hlater hw (by omega)

/-! ## The edges of the plan -/

/-- `t` lists `d`. -/
def DependsOn (edges : EdgeMap) (t d : TicketId) : Prop := ∃ deps, edges.get t = some deps ∧ d ∈ deps

/-- The plan merges the base edges with those of the detection. -/
theorem dependsOn_plan {t d : TicketId} :
    DependsOn (planChildDependencies ctx children pred (some x)) t d ↔
      DependsOn (computeBaseEdges ctx children pred) t d ∨ DependsOn (detectCrossRepoDeps ctx x children) t d := by
  unfold DependsOn planChildDependencies
  dsimp only
  rw [Table.get_foldl_upsert Prod.fst (fun row deps => deps.getD [] ++ row.2), Table.filter_rows]
  cases hx : (detectCrossRepoDeps ctx x children).get t with
  | none => simp
  | some deps =>
      cases hb : (computeBaseEdges ctx children pred).get t with
      | none => simp
      | some base => simp

/-- Two repos that need each other's packages are two. -/
theorem crossRepoUses_eq_nil (h : (repoIdsPresent ctx x children).length ≤ 1) :
    crossRepoUses ctx x children = [] := by
  rw [List.eq_nil_iff_forall_not_mem]
  intro u hu
  obtain ⟨c, -, -, hR, -, hP, hne⟩ := mem_crossRepoUses.1 hu
  have hR : u.consumerRepo ∈ repoIdsPresent ctx x children := mem_repoIdsPresent.2 ⟨c.id, hR⟩
  have hP := mem_of_buildPackageRepoMap hP
  match repoIdsPresent ctx x children, h, hR, hP with
  | [r], _, hR, hP => exact hne ((List.mem_singleton.1 hP).trans (List.mem_singleton.1 hR).symm)

/-- The early return for a single repo only saves work. -/
theorem detectCrossRepoDeps_eq : detectCrossRepoDeps ctx x children =
    wireBumps x children 0 (groupBumpCandidates ctx x children).rows .empty := by
  unfold detectCrossRepoDeps
  split
  · rename_i h
    rw [groupBumpCandidates, crossRepoUses_eq_nil h]
    rfl
  · rfl

/-- Who consumes: the children of the repo that need the other one. -/
theorem mem_consumers {R P : RepoId} {candidate : Candidate}
    (h : ((R, P), candidate) ∈ (groupBumpCandidates ctx x children).rows) {t : TicketId} :
    t ∈ candidate.1 ↔ ∃ c ∈ children, c.id = t ∧ repoOf x children t = some R ∧ Needs ctx x children c P := by
  rw [(groupBumpCandidates_spec (Table.mem_rows.1 h)).2]
  constructor
  · rintro ⟨u, hu, rfl, rfl, rfl⟩
    obtain ⟨c, hc, hid, hR, hpkg, hP, hne⟩ := mem_crossRepoUses.1 hu
    exact ⟨c, hc, hid.symm, hid ▸ hR, u.consumerRepo, u.package, hR, hpkg, hP, hne⟩
  · rintro ⟨c, hc, rfl, hR, R', pkg, hR', hpkg, hP, hne⟩
    rw [hR] at hR'
    cases hR'
    exact ⟨{ consumerRepo := R, producerRepo := P, consumer := c.id, package := pkg },
      mem_crossRepoUses.2 ⟨c, hc, rfl, hR, hpkg, hP, hne⟩, rfl, rfl, rfl⟩

/-- A need has a candidate. -/
theorem exists_row_of_needs {c : Child} (hc : c ∈ children) {P : RepoId} (h : Needs ctx x children c P) :
    ∃ R candidate, repoOf x children c.id = some R ∧
      ((R, P), candidate) ∈ (groupBumpCandidates ctx x children).rows ∧ c.id ∈ candidate.1 := by
  obtain ⟨R, pkg, hR, hpkg, hP, hne⟩ := h
  obtain ⟨candidate, hcand⟩ := @exists_candidate ctx x children
    { consumerRepo := R, producerRepo := P, consumer := c.id, package := pkg }
    (mem_crossRepoUses.2 ⟨c, hc, rfl, hR, hpkg, hP, hne⟩)
  have hrow := Table.mem_rows.2 hcand
  exact ⟨R, candidate, hR, hrow, (mem_consumers hrow).2 ⟨c, hc, rfl, hR, R, pkg, hR, hpkg, hP, hne⟩⟩

theorem wirable_rows : Wirable x children (groupBumpCandidates ctx x children).rows where
  nodup := fun ⟨_, _⟩ hr => (groupBumpCandidates_spec (Table.mem_rows.1 hr)).1
  consumers := fun ⟨_, _⟩ hr t ht => by
    obtain ⟨c, hc, rfl, -⟩ := (mem_consumers hr).1 ht
    exact List.mem_map_of_mem hc
  producers := fun ⟨⟨R, P⟩, candidate⟩ hr => by
    have hget := Table.mem_rows.1 hr
    -- a pair without uses would not have been entered
    have hsome : ∃ u ∈ crossRepoUses ctx x children, u.producerRepo = P := by
      rw [groupBumpCandidates, Table.get_foldl_upsert (fun u : Use => (u.consumerRepo, u.producerRepo)) addUse,
        Table.get_empty] at hget
      by_contra hno
      have hnil : ((crossRepoUses ctx x children).filter fun u =>
          decide ((u.consumerRepo, u.producerRepo) = (R, P))) = [] := by
        refine List.filter_eq_nil_iff.2 fun u hu hk => hno ⟨u, hu, ?_⟩
        simp only [Prod.mk.injEq, decide_eq_true_eq] at hk
        exact hk.2
      rw [hnil] at hget
      cases hget
    obtain ⟨u, hu, rfl⟩ := hsome
    obtain ⟨c, -, -, -, -, hP, -⟩ := mem_crossRepoUses.1 hu
    exact repoChildren_ne_nil (mem_of_buildPackageRepoMap hP)

/-- The edges of a bump child. -/
theorem dependsOn_of_created (hfresh : FreshIds x children pred) {R P : RepoId} {b d : TicketId}
    (hb : Created ctx x children R P b) :
    DependsOn (detectCrossRepoDeps ctx x children) b d ↔ repoOf x children d = some P := by
  obtain ⟨n, candidate, hrow, hid⟩ := hb
  rw [detectCrossRepoDeps_eq, DependsOn,
    get_wireBumps_of_bump hfresh wirable_rows hrow (by rwa [Nat.zero_add]), ← mem_repoChildren]
  simp

theorem lastBump_of_eq_some {t b : TicketId} {n : Nat} {rows : List ((RepoId × RepoId) × Candidate)}
    (h : lastBump x t n rows = some b) :
    ∃ i pair candidate, rows[i]? = some (pair, candidate) ∧ t ∈ candidate.1 ∧
      bumpId x (n + i) pair candidate = some b := by
  induction rows generalizing n with
  | nil => cases h
  | cons row rest ih =>
      obtain ⟨pair, candidate⟩ := row
      rw [lastBump] at h
      cases hrest : lastBump x t (n + 1) rest with
      | some b' =>
          rw [hrest] at h
          cases h
          obtain ⟨i, pair', candidate', hrow, ht, hid⟩ := ih hrest
          exact ⟨i + 1, pair', candidate', hrow, ht, by rw [← hid]; congr 1; omega⟩
      | none =>
          rw [hrest, Option.none_or] at h
          split at h
          · rename_i ht
            exact ⟨0, pair, candidate, rfl, ht, h⟩
          · cases h

theorem lastBump_isSome (hfresh : FreshIds x children pred) {t : TicketId} {n : Nat}
    {rows : List ((RepoId × RepoId) × Candidate)} {row : (RepoId × RepoId) × Candidate} (hrow : row ∈ rows)
    (ht : t ∈ row.2.1) : ∃ b, lastBump x t n rows = some b := by
  induction rows generalizing n with
  | nil => cases hrow
  | cons row' rest ih =>
      obtain ⟨pair, candidate⟩ := row'
      rw [lastBump]
      rcases List.mem_cons.1 hrow with rfl | hrow
      · obtain ⟨b, hb⟩ := hfresh.returns n (bumpTitle pair.1 pair.2 candidate.2)
          (bumpBody pair.1 pair.2 candidate.2)
        have hb : bumpId x n pair candidate = some b := hb
        rw [if_pos ht, hb]
        cases lastBump x t (n + 1) rest with
        | none => exact ⟨b, rfl⟩
        | some b' => exact ⟨b', rfl⟩
      · obtain ⟨b, hb⟩ := ih (n := n + 1) hrow
        exact ⟨b, by rw [hb]; rfl⟩

/-- What is no bump child waits for one bump child, the last one wired to it. -/
theorem dependsOn_of_not_created (hfresh : FreshIds x children pred) {t d : TicketId}
    (ht : ∀ R P, ¬ Created ctx x children R P t) :
    DependsOn (detectCrossRepoDeps ctx x children) t d ↔
      lastBump x t 0 (groupBumpCandidates ctx x children).rows = some d := by
  have hnot : ∀ i row, (groupBumpCandidates ctx x children).rows[i]? = some row →
      bumpId x (0 + i) row.1 row.2 ≠ some t := by
    rintro i ⟨⟨R, P⟩, candidate⟩ hrow hid
    exact ht R P ⟨i, candidate, hrow, by rwa [Nat.zero_add] at hid⟩
  rw [detectCrossRepoDeps_eq, DependsOn, get_wireBumps_of_not_bump hfresh wirable_rows hnot, Table.get_empty]
  cases lastBump x t 0 (groupBumpCandidates ctx x children).rows with
  | none => simp
  | some b => simp [eq_comm]

theorem not_created_of_mem (hfresh : FreshIds x children pred) {t : TicketId}
    (ht : t ∈ children.map Child.id) (R P : RepoId) : ¬ Created ctx x children R P t := by
  rintro ⟨n, candidate, -, hid⟩
  exact hfresh.outside _ _ _ _ hid ht

/-- An edge of the detection that does not start at a bump child leads from a consumer to its bump. -/
theorem consumer_of_dependsOn (hfresh : FreshIds x children pred) {t b : TicketId}
    (ht : ∀ R P, ¬ Created ctx x children R P t) (h : DependsOn (detectCrossRepoDeps ctx x children) t b) :
    ∃ R P, Created ctx x children R P b ∧
      ∃ c ∈ children, c.id = t ∧ repoOf x children t = some R ∧ Needs ctx x children c P := by
  obtain ⟨i, ⟨R, P⟩, candidate, hrow, hmem, hid⟩ :=
    lastBump_of_eq_some ((dependsOn_of_not_created hfresh ht).1 h)
  rw [Nat.zero_add] at hid
  exact ⟨R, P, ⟨i, candidate, hrow, hid⟩, (mem_consumers (List.mem_of_getElem? hrow)).1 hmem⟩

/-- A bump child is created for one pair. -/
theorem Created.unique (hfresh : FreshIds x children pred) {R R' P P' : RepoId} {b : TicketId}
    (h : Created ctx x children R P b) (h' : Created ctx x children R' P' b) : R = R' ∧ P = P' := by
  obtain ⟨n, candidate, hrow, hid⟩ := h
  obtain ⟨m, candidate', hrow', hid'⟩ := h'
  have hnm := hfresh.distinct _ _ _ _ _ _ _ hid hid'
  subst hnm
  rw [hrow] at hrow'
  cases hrow'
  exact ⟨rfl, rfl⟩

end Needs

end Agents
end RobotsixMill
