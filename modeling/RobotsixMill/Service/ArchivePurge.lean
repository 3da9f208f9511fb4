import RobotsixMill.Service.Runs

/-!
# `Service.ArchivePurge` — what the purge of archived tickets deletes

`maybePurgeArchived` deletes the oldest archived tickets of the bound board above the cap, without those that
`hasActiveChild` protects. That check reads the bound board alone, while the children of an epic may live on others.

- `purgeLoop_eq` — the tickets that the loop deletes, read off the store before the first deletion;
- `purge_spares_parents` — when they are those it should delete.
-/

namespace RobotsixMill
namespace Service
open RobotsixMill.Core Lib

/-! ## What the purge should delete -/

/-- The ticket has a child that is not archived, on whatever board. -/
def ActiveChild (σ : Mill) (board : BoardId → Prop) (tid : TicketId) : Prop :=
  ∃ k r, σ.records.get k = some r ∧ board k.1 ∧ r.ticket.parentId = some tid ∧ r.ticket.state ∉ ARCHIVABLE_STATES

variable (env : Env) (svc : BoardId)

/-- How many archived tickets the board has above the cap. -/
def purgeExcess (σ : Mill) : Nat := (archivedRows svc σ).length - env.settings.maxArchivedTickets

open Classical in
/-- The archived tickets of the board that have no active child, oldest first. -/
noncomputable def unprotectedRows (σ : Mill) : List (Key × TicketRecord) :=
  (archivedRows svc σ).filter fun row => !decide (ActiveChild σ (fun _ => True) row.1.2)

/-- The purge takes the store from `σ` to `σ'` by deleting `deleted`. -/
structure Purges (σ σ' : Mill) (deleted : List Key) : Prop where
  nodup : deleted.Nodup
  records : ∀ k, σ'.records.get k = if k ∈ deleted then none else σ.records.get k
  workspaces : ∀ k, σ'.workspaces k = if k ∈ deleted then none else σ.workspaces k
  /-- They are archived tickets of the board, -/
  archived : ∀ k ∈ deleted, ∃ r, σ.records.get k = some r ∧ k.1 = svc ∧ r.ticket.state ∈ ARCHIVABLE_STATES
  /-- none with an active child, -/
  spares : ∀ k ∈ deleted, ¬ ActiveChild σ (fun _ => True) k.2
  /-- as many as are above the cap and may be deleted, -/
  count : deleted.length = min (purgeExcess env svc σ) (unprotectedRows svc σ).length
  /-- the oldest ones. -/
  oldest : ∀ k ∈ deleted, ∀ r, σ.records.get k = some r → ∀ row ∈ unprotectedRows svc σ, row.1 ∉ deleted →
    r.ticket.createdAt ≤ row.2.ticket.createdAt

/-- The tickets that the loop deletes: the oldest without an active child on the board itself. -/
def purgeTargets (σ : Mill) : List (Key × TicketRecord) :=
  ((archivedRows svc σ).filter fun row => !hasActiveChild svc σ row.1.2).take (purgeExcess env svc σ)

/-- None of them has an active child on another board. -/
def NoForeignChild (σ : Mill) : Prop :=
  ∀ row ∈ purgeTargets env svc σ, ¬ ActiveChild σ (· ≠ svc) row.1.2

/-! ## What the purge deletes -/

section Loop

variable {env svc} {σ σ' : Mill}

theorem hasActiveChild_iff {tid : TicketId} :
    hasActiveChild svc σ tid = true ↔ ActiveChild σ (· = svc) tid := by
  unfold hasActiveChild
  rw [List.any_eq_true]
  constructor
  · rintro ⟨⟨k, r⟩, hrow, hchild⟩
    simp only [Bool.and_eq_true, decide_eq_true_eq, Bool.not_eq_true', decide_eq_false_iff_not] at hchild
    exact ⟨k, r, Table.mem_rows.1 hrow, hchild.1.1, hchild.1.2, hchild.2⟩
  · rintro ⟨k, r, hget, hboard, hparent, hactive⟩
    refine ⟨(k, r), Table.mem_rows.2 hget, ?_⟩
    simp [hboard, hparent, hactive]

theorem activeChild_iff {tid : TicketId} :
    ActiveChild σ (fun _ => True) tid ↔ hasActiveChild svc σ tid = true ∨ ActiveChild σ (· ≠ svc) tid := by
  rw [hasActiveChild_iff]
  constructor
  · rintro ⟨k, r, hget, -, hchild⟩
    by_cases hboard : k.1 = svc
    · exact .inl ⟨k, r, hget, hboard, hchild⟩
    · exact .inr ⟨k, r, hget, hboard, hchild⟩
  · rintro (⟨k, r, hget, -, hchild⟩ | ⟨k, r, hget, -, hchild⟩) <;> exact ⟨k, r, hget, trivial, hchild⟩

/-- Deleting archived tickets takes no active child away. -/
theorem hasActiveChild_delete {k : Key} (h : ∀ r, σ.records.get k = some r → r.ticket.state ∈ ARCHIVABLE_STATES)
    (tid : TicketId) : hasActiveChild svc (σ.delete k) tid = hasActiveChild svc σ tid := by
  rw [Bool.eq_iff_iff, hasActiveChild_iff, hasActiveChild_iff]
  constructor
  · rintro ⟨k', r, hget, hchild⟩
    exact ⟨k', r, (Table.get_of_get_erase hget).2, hchild⟩
  · rintro ⟨k', r, hget, hboard, hparent, hactive⟩
    have hne : k' ≠ k := by
      rintro rfl
      exact hactive (h r hget)
    exact ⟨k', r, (Table.get_erase_ne _ hne).trans hget, hboard, hparent, hactive⟩

/-- **The loop** deletes the first unprotected candidates, as the store stood before it. -/
theorem purgeLoop_eq (n : Nat) {ks : List Key}
    (h : ∀ k ∈ ks, ∀ r, σ.records.get k = some r → r.ticket.state ∈ ARCHIVABLE_STATES) :
    purgeLoop svc n ks σ =
      ((ks.filter fun k => !hasActiveChild svc σ k.2).take n).foldl Mill.delete σ := by
  induction ks generalizing n σ with
  | nil =>
    cases n with
    | zero => rfl
    | succ n => rfl
  | cons k ks ih =>
    cases n with
    | zero => rfl
    | succ n =>
      have hks := fun k' hk' => h k' (List.mem_cons_of_mem k hk')
      unfold purgeLoop
      by_cases hchild : hasActiveChild svc σ k.2 = true
      · rw [if_pos hchild, ih (n + 1) hks, List.filter_cons_of_neg (by simpa using hchild)]
      · have hdelete := @hasActiveChild_delete svc σ k (h k List.mem_cons_self)
        have hkept : ∀ k' ∈ ks, ∀ r, (σ.delete k).records.get k' = some r → r.ticket.state ∈ ARCHIVABLE_STATES :=
          fun k' hk' r hget => hks k' hk' r (Table.get_of_get_erase hget).2
        rw [if_neg hchild, ih n hkept, List.filter_cons_of_pos (by simpa using hchild), List.take_succ_cons,
          List.foldl_cons]
        simp only [hdelete]

theorem records_foldl_delete (ks : List Key) (σ : Mill) (k : Key) :
    (ks.foldl Mill.delete σ).records.get k = if k ∈ ks then none else σ.records.get k := by
  induction ks generalizing σ with
  | nil => rfl
  | cons k' ks ih =>
    rw [List.foldl_cons, ih]
    by_cases hk : k = k'
    · subst hk
      simp [Mill.delete]
    · have hget : (σ.delete k').records.get k = σ.records.get k := Table.get_erase_ne _ hk
      simp [hget, hk]

theorem workspaces_foldl_delete (ks : List Key) (σ : Mill) (k : Key) :
    (ks.foldl Mill.delete σ).workspaces k = if k ∈ ks then none else σ.workspaces k := by
  induction ks generalizing σ with
  | nil => rfl
  | cons k' ks ih =>
    rw [List.foldl_cons, ih]
    by_cases hk : k = k'
    · subst hk
      simp [Mill.delete]
    · have hget : (σ.delete k').workspaces k = σ.workspaces k := Function.update_of_ne hk ..
      simp [hget, hk]

theorem mem_archivedRows {row : Key × TicketRecord} : row ∈ archivedRows svc σ ↔
    σ.records.get row.1 = some row.2 ∧ row.1.1 = svc ∧ row.2.ticket.state ∈ ARCHIVABLE_STATES := by
  unfold archivedRows
  rw [List.mem_insertionSort, List.mem_filter, Bool.and_eq_true, decide_eq_true_eq, decide_eq_true_eq]
  exact and_congr_left fun _ => Table.mem_rows

theorem nodup_archivedRows : ((archivedRows svc σ).map Prod.fst).Nodup := by
  have hperm := List.perm_insertionSort (fun a b : Key × TicketRecord => a.2.ticket.createdAt ≤ b.2.ticket.createdAt)
    (σ.records.rows.filter fun row => decide (row.1.1 = svc) && decide (row.2.ticket.state ∈ ARCHIVABLE_STATES))
  refine (hperm.map Prod.fst).nodup_iff.2 ?_
  have hrows : (σ.records.rows.map Prod.fst).Nodup := by
    rw [Table.map_fst_rows]
    exact σ.records.nodup
  exact hrows.sublist (List.filter_sublist.map Prod.fst)

theorem sorted_archivedRows : (archivedRows svc σ).Pairwise fun a b =>
    a.2.ticket.createdAt ≤ b.2.ticket.createdAt := by
  unfold archivedRows
  exact List.pairwise_insertionSort _ _

/-- **What the purge deletes.** -/
theorem maybePurgeArchived_eq (hsvc : svc ≠ "") (hmax : 0 < env.settings.maxArchivedTickets) :
    maybePurgeArchived env svc σ =
      .ok (((purgeTargets env svc σ).map Prod.fst).foldl Mill.delete σ) := by
  have harchived : ∀ k ∈ (archivedRows svc σ).map Prod.fst, ∀ r, σ.records.get k = some r →
      r.ticket.state ∈ ARCHIVABLE_STATES := by
    intro k hk r hget
    obtain ⟨row, hrow, rfl⟩ := List.mem_map.1 hk
    obtain ⟨hget', -, hstate⟩ := mem_archivedRows.1 hrow
    obtain rfl := Option.some.inj (hget.symm.trans hget')
    exact hstate
  have htargets : (purgeTargets env svc σ).map Prod.fst =
      (((archivedRows svc σ).map Prod.fst).filter fun k => !hasActiveChild svc σ k.2).take (purgeExcess env svc σ) := by
    rw [purgeTargets, List.map_take, List.filter_map]
    rfl
  unfold maybePurgeArchived
  dsimp only
  rw [if_neg hmax.ne', if_neg hsvc, htargets]
  by_cases hlen : (archivedRows svc σ).length ≤ env.settings.maxArchivedTickets
  · rw [if_pos hlen, purgeExcess, Nat.sub_eq_zero_of_le hlen]
    rfl
  · rw [if_neg hlen, purgeLoop_eq _ harchived]
    rfl

end Loop

/-! ## When it deletes the right tickets -/

section Purge

variable {env svc} {σ σ' : Mill} {row : Key × TicketRecord}

theorem mem_archivedRows_of_mem_purgeTargets (h : row ∈ purgeTargets env svc σ) :
    row ∈ archivedRows svc σ ∧ hasActiveChild svc σ row.1.2 = false := by
  have hfilter := List.mem_filter.1 (List.mem_of_mem_take h)
  exact ⟨hfilter.1, by simpa using hfilter.2⟩

theorem mem_unprotectedRows : row ∈ unprotectedRows svc σ ↔
    row ∈ archivedRows svc σ ∧ ¬ ActiveChild σ (fun _ => True) row.1.2 := by
  unfold unprotectedRows
  rw [List.mem_filter]
  simp

/-- The board's own check passes every ticket that may be deleted. -/
theorem unprotectedRows_eq_filter : unprotectedRows svc σ = (unprotectedRows svc σ).filter fun row =>
    !hasActiveChild svc σ row.1.2 := by
  refine (List.filter_eq_self.2 fun row hrow => ?_).symm
  have hnot := (mem_unprotectedRows.1 hrow).2
  rw [Bool.not_eq_true', Bool.eq_false_iff]
  exact fun hchild => hnot (activeChild_iff.2 (.inl hchild))

theorem unprotectedRows_sublist : List.Sublist (unprotectedRows svc σ)
    ((archivedRows svc σ).filter fun row => !hasActiveChild svc σ row.1.2) := by
  rw [unprotectedRows_eq_filter]
  exact List.filter_sublist.filter _

theorem not_activeChild_of_noForeignChild (h : NoForeignChild env svc σ) (hrow : row ∈ purgeTargets env svc σ) :
    ¬ ActiveChild σ (fun _ => True) row.1.2 := by
  rw [activeChild_iff, not_or]
  have hown := (mem_archivedRows_of_mem_purgeTargets hrow).2
  exact ⟨by rw [hown]; exact Bool.false_ne_true, h row hrow⟩

theorem purgeTargets_sublist (h : NoForeignChild env svc σ) :
    List.Sublist (purgeTargets env svc σ) (unprotectedRows svc σ) := by
  have hkeep : (purgeTargets env svc σ).filter
      (fun row => !@decide (ActiveChild σ (fun _ => True) row.1.2) (Classical.propDecidable _)) =
        purgeTargets env svc σ := by
    refine List.filter_eq_self.2 fun row hrow => ?_
    simpa using not_activeChild_of_noForeignChild h hrow
  rw [← hkeep]
  exact ((List.take_sublist ..).trans List.filter_sublist).filter _

theorem length_purgeTargets (h : NoForeignChild env svc σ) :
    (purgeTargets env svc σ).length = min (purgeExcess env svc σ) (unprotectedRows svc σ).length := by
  have hle := (@purgeTargets_sublist env svc σ h).length_le
  have hge := (@unprotectedRows_sublist svc σ).length_le
  unfold purgeTargets at hle ⊢
  rw [List.length_take] at hle ⊢
  omega

/-- What stays is no older than what goes. -/
theorem createdAt_le_of_purgeTargets {row' : Key × TicketRecord} (hrow : row ∈ purgeTargets env svc σ)
    (hrow' : row' ∈ unprotectedRows svc σ) (hnot : row' ∉ purgeTargets env svc σ) :
    row.2.ticket.createdAt ≤ row'.2.ticket.createdAt := by
  have hmem := unprotectedRows_sublist.subset hrow'
  have hsorted := (@sorted_archivedRows svc σ).sublist
    (List.filter_sublist (p := fun row => !hasActiveChild svc σ row.1.2))
  have hsplit := List.take_append_drop (purgeExcess env svc σ)
    ((archivedRows svc σ).filter fun row => !hasActiveChild svc σ row.1.2)
  rw [← hsplit] at hsorted hmem
  rcases List.mem_append.1 hmem with htake | hdrop
  · exact absurd htake hnot
  · exact (List.pairwise_append.1 hsorted).2.2 _ hrow _ hdrop

theorem purges_of_noForeignChild (h : NoForeignChild env svc σ) :
    Purges env svc σ (((purgeTargets env svc σ).map Prod.fst).foldl Mill.delete σ)
      ((purgeTargets env svc σ).map Prod.fst) := by
  refine ⟨?_, records_foldl_delete _ σ, workspaces_foldl_delete _ σ, ?_, ?_, ?_, ?_⟩
  · exact nodup_archivedRows.sublist (((List.take_sublist ..).trans List.filter_sublist).map Prod.fst)
  · intro k hk
    obtain ⟨row, hrow, rfl⟩ := List.mem_map.1 hk
    exact ⟨row.2, mem_archivedRows.1 (mem_archivedRows_of_mem_purgeTargets hrow).1⟩
  · intro k hk
    obtain ⟨row, hrow, rfl⟩ := List.mem_map.1 hk
    exact not_activeChild_of_noForeignChild h hrow
  · rw [List.length_map]
    exact length_purgeTargets h
  · intro k hk r hget row' hrow' hnot
    obtain ⟨row, hrow, rfl⟩ := List.mem_map.1 hk
    have hget' := (mem_archivedRows.1 (mem_archivedRows_of_mem_purgeTargets hrow).1).1
    obtain rfl := Option.some.inj (hget'.symm.trans hget)
    exact createdAt_le_of_purgeTargets hrow hrow' fun hmem => hnot (List.mem_map_of_mem hmem)

/-- Every target of the loop is deleted. -/
theorem noForeignChild_of_purges {deleted : List Key}
    (h : Purges env svc σ (((purgeTargets env svc σ).map Prod.fst).foldl Mill.delete σ) deleted) :
    NoForeignChild env svc σ := by
  intro row hrow
  have hget := (mem_archivedRows.1 (mem_archivedRows_of_mem_purgeTargets hrow).1).1
  have hgone := records_foldl_delete ((purgeTargets env svc σ).map Prod.fst) σ row.1
  rw [if_pos (List.mem_map_of_mem hrow), h.records] at hgone
  have hdeleted : row.1 ∈ deleted := by
    by_contra hnot
    rw [if_neg hnot, hget] at hgone
    cases hgone
  exact fun hchild => h.spares _ hdeleted (activeChild_iff.2 (.inr hchild))

/-- **The archive purge** deletes the oldest archived tickets without an active child, as many as are above the cap,
    exactly if none of those that the board's own check passes and that are old enough has one on another board. -/
theorem purge_spares_parents (env : Env) (svc : BoardId) (σ : Mill) (hsvc : svc ≠ "")
    (hmax : 0 < env.settings.maxArchivedTickets) :
    (∃ σ' deleted, maybePurgeArchived env svc σ = .ok σ' ∧ Purges env svc σ σ' deleted) ↔
      NoForeignChild env svc σ := by
  rw [maybePurgeArchived_eq hsvc hmax]
  constructor
  · rintro ⟨σ', deleted, heq, hpurges⟩
    obtain rfl := Except.ok.inj heq
    exact noForeignChild_of_purges hpurges
  · exact fun h => ⟨_, _, rfl, purges_of_noForeignChild h⟩

end Purge

/-- Two archived tickets are kept. -/
def Env.pairArchive : Env := { Env.standalone with settings := { maxArchivedTickets := 2 } }

/-- Four archived tickets of the board `mill`: the oldest has a closed child on the board `docs`, the epic one in work on
    `mill` itself. -/
def Mill.crowdedArchive : Mill where
  records := (((((Table.empty.put ("mill", "first")
      ⟨{ title := "", state := .closed, createdAt := 1, updatedAt := 1 }, [], []⟩).put ("mill", "epic")
      ⟨{ title := "", state := .epicClosed, kind := .epic, createdAt := 2, updatedAt := 2 }, [], []⟩).put ("mill", "second")
      ⟨{ title := "", state := .answered, createdAt := 3, updatedAt := 3 }, [], []⟩).put ("mill", "third")
      ⟨{ title := "", state := .closed, createdAt := 4, updatedAt := 4 }, [], []⟩).put ("mill", "child")
      ⟨{ title := "", state := .ready, parentId := some "epic", createdAt := 5, updatedAt := 5 }, [], []⟩).put
      ("docs", "closed") ⟨{ title := "", state := .closed, parentId := some "first", createdAt := 6, updatedAt := 6 }, [], []⟩
  workspaces := fun _ => none
  ticks := 0

/-- Of four archived tickets the first and the third oldest go, and the epic stays. -/
theorem purge_spares_parents_crowded :
    (∃ σ' deleted, maybePurgeArchived .pairArchive "mill" .crowdedArchive = .ok σ' ∧
      Purges .pairArchive "mill" .crowdedArchive σ' deleted) ∧
    (purgeTargets .pairArchive "mill" .crowdedArchive).map Prod.fst = [("mill", "first"), ("mill", "second")] := by
  refine ⟨(purge_spares_parents .pairArchive "mill" .crowdedArchive (by decide) (by decide)).2 ?_, by decide⟩
  rintro row - ⟨k, r, hget, hboard, -, hactive⟩
  -- the only ticket of another board is closed
  have hclosed : ∀ row ∈ Mill.crowdedArchive.records.rows, row.1.1 ≠ "mill" → row.2.ticket.state ∈ ARCHIVABLE_STATES := by
    decide
  exact hactive (hclosed (k, r) (Table.mem_rows.2 hget) hboard)

/-! ### An epic with a child on another board -/

/-- One archived ticket is kept. -/
def Env.cappedArchive : Env := { Env.standalone with settings := { maxArchivedTickets := 1 } }

/-- A closed epic of the board `mill`, the parent of a ticket in work on the board `docs`, and a later closed ticket. -/
def Mill.foreignChild : Mill where
  records := ((Table.empty.put ("mill", "epic")
      ⟨{ title := "", state := .epicClosed, kind := .epic, createdAt := 1, updatedAt := 1 }, [], []⟩).put ("docs", "child")
      ⟨{ title := "", state := .ready, parentId := some "epic", createdAt := 2, updatedAt := 2 }, [], []⟩).put
      ("mill", "later") ⟨{ title := "", state := .closed, createdAt := 3, updatedAt := 3 }, [], []⟩
  workspaces := fun _ => none
  ticks := 0

/-- The epic is deleted. -/
theorem foreign_parent_purged : ¬ ∀ env svc σ, svc ≠ "" → 0 < env.settings.maxArchivedTickets →
    ∃ σ' deleted, maybePurgeArchived env svc σ = .ok σ' ∧ Purges env svc σ σ' deleted := by
  intro hclaim
  obtain ⟨σ', deleted, heq, hpurges⟩ :=
    hclaim .cappedArchive "mill" .foreignChild (by decide) (by decide)
  rw [maybePurgeArchived_eq (by decide) (by decide)] at heq
  obtain rfl := Except.ok.inj heq
  have htarget : (("mill", "epic"), _) ∈ purgeTargets .cappedArchive "mill" .foreignChild := List.mem_cons_self
  exact noForeignChild_of_purges hpurges _ htarget
    ⟨("docs", "child"), _, rfl, by decide, rfl, by decide⟩

end Service
end RobotsixMill
