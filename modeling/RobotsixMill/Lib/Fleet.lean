import RobotsixMill.Lib.Table

/-!
# `Lib.Fleet` — tasks kept in step with what is wanted

A supervisor keeps one task under each key it wants, and knows what each was created for. `Fleet κ δ` is such a
supervisor with its past: the tasks are numbered in the order in which they were created, and those that were
cancelled are listed.

- `cancel`, `launch`, `keepOrLaunch`, `reconcile`, `cancelAll` — what a supervisor does;
- `Accounted` — the tasks that run are those that were created and not cancelled, each under its key, and no task is
  cancelled twice; every operation keeps it;
- `reconcile_wanted`, `reconcile_kept` — afterwards what runs is what is wanted, and a task that is wanted as it is
  was left alone;
- `Since` — what was created stays created, what was cancelled stays cancelled.
-/

namespace RobotsixMill
namespace Lib

structure Fleet (κ δ : Type*) where
  /-- The task under each key: its number, and what it was created for. -/
  running : Table κ (Nat × δ) := .empty
  created : List (κ × δ) := []
  cancelled : List Nat := []

namespace Fleet

variable {κ δ : Type*} [DecidableEq κ]

/-- Take the task of a key away. -/
def cancel (F : Fleet κ δ) (k : κ) : Fleet κ δ :=
  match F.running.get k with
  | none => F
  | some task => { F with running := F.running.erase k, cancelled := F.cancelled ++ [task.1] }

/-- Create a task for a key, in the place of the one there. -/
def launch (F : Fleet κ δ) (k : κ) (d : δ) : Fleet κ δ where
  running := F.running.put k (F.created.length, d)
  created := F.created ++ [(k, d)]
  cancelled := F.cancelled ++ ((F.running.get k).map Prod.fst).toList

/-- A task that was created for `d` stays; any other makes way for a new one. -/
def keepOrLaunch [DecidableEq δ] (F : Fleet κ δ) (row : κ × δ) : Fleet κ δ :=
  match F.running.get row.1 with
  | none => F.launch row.1 row.2
  | some task => if task.2 = row.2 then F else F.launch row.1 row.2

def reconcile [DecidableEq δ] (desired : Table κ δ) (F : Fleet κ δ) : Fleet κ δ :=
  desired.rows.foldl keepOrLaunch ((F.running.keys.filter fun k => !desired.has k).foldl cancel F)

def cancelAll (F : Fleet κ δ) : Fleet κ δ := F.running.keys.foldl cancel F

/-- Was the task created for `d`, under `k`, and not cancelled? -/
def Live (F : Fleet κ δ) (i : Nat) (k : κ) (d : δ) : Prop := F.created[i]? = some (k, d) ∧ i ∉ F.cancelled

/-! ## What runs under a key -/

section Get
variable {F : Fleet κ δ} {k : κ}

theorem get_cancel (F : Fleet κ δ) (key k : κ) :
    (F.cancel key).running.get k = if k = key then none else F.running.get k := by
  unfold cancel
  split
  case h_1 hnone =>
    split
    case isTrue hk => rw [hk, hnone]
    case isFalse => rfl
  case h_2 =>
    split
    case isTrue hk => rw [hk, Table.get_erase_self]
    case isFalse hk => exact Table.get_erase_ne _ hk

theorem get_foldl_cancel (keys : List κ) (F : Fleet κ δ) (k : κ) :
    (keys.foldl cancel F).running.get k = if k ∈ keys then none else F.running.get k := by
  induction keys generalizing F with
  | nil => rfl
  | cons key keys ih =>
      rw [List.foldl_cons, ih, get_cancel]
      by_cases hk : k = key
      · subst hk
        simp
      · simp [hk]

theorem get_cancelAll (F : Fleet κ δ) (k : κ) : F.cancelAll.running.get k = none := by
  unfold cancelAll
  rw [get_foldl_cancel]
  split
  case isTrue => rfl
  case isFalse hk => exact not_not.1 fun hget => hk ((F.running.mem_keys k).2 hget)

variable [DecidableEq δ]

theorem get_keepOrLaunch_ne (row : κ × δ) (hk : k ≠ row.1) :
    (F.keepOrLaunch row).running.get k = F.running.get k := by
  unfold keepOrLaunch
  split
  case h_1 => exact Table.get_put_ne _ _ hk
  case h_2 =>
    split
    case isTrue => rfl
    case isFalse => exact Table.get_put_ne _ _ hk

theorem get_keepOrLaunch_self (row : κ × δ) :
    ((F.keepOrLaunch row).running.get row.1).map Prod.snd = some row.2 := by
  unfold keepOrLaunch
  split
  case h_1 => rw [launch, Table.get_put_self]; rfl
  case h_2 task hget =>
    split
    case isTrue hsame => rw [hget, Option.map_some, hsame]
    case isFalse => rw [launch, Table.get_put_self]; rfl

theorem keepOrLaunch_of_same {row : κ × δ} {i : Nat} (h : F.running.get row.1 = some (i, row.2)) :
    F.keepOrLaunch row = F := by
  unfold keepOrLaunch
  rw [h]
  exact if_pos rfl

theorem get_foldl_keepOrLaunch_of_notMem {rows : List (κ × δ)} (hk : k ∉ rows.map Prod.fst) (F : Fleet κ δ) :
    (rows.foldl keepOrLaunch F).running.get k = F.running.get k := by
  induction rows generalizing F with
  | nil => rfl
  | cons row rows ih =>
      rw [List.map_cons, List.mem_cons, not_or] at hk
      rw [List.foldl_cons, ih hk.2, get_keepOrLaunch_ne row hk.1]

/-- The rows have distinct keys: what runs under the key of one is what it asks for, and is left alone if it was. -/
theorem get_foldl_keepOrLaunch_of_mem {rows : List (κ × δ)} (hnd : (rows.map Prod.fst).Nodup) {d : δ}
    (hrow : (k, d) ∈ rows) (F : Fleet κ δ) :
    ((rows.foldl keepOrLaunch F).running.get k).map Prod.snd = some d ∧
      ∀ i, F.running.get k = some (i, d) → (rows.foldl keepOrLaunch F).running.get k = some (i, d) := by
  induction rows generalizing F with
  | nil => exact absurd hrow List.not_mem_nil
  | cons row rows ih =>
      rw [List.map_cons, List.nodup_cons] at hnd
      rw [List.foldl_cons]
      rcases List.mem_cons.1 hrow with rfl | hrest
      · rw [get_foldl_keepOrLaunch_of_notMem hnd.1]
        refine ⟨get_keepOrLaunch_self (k, d), ?_⟩
        intro i hget
        rw [keepOrLaunch_of_same hget]
        exact hget
      · have hne : k ≠ row.1 := by
          intro hk
          exact hnd.1 (hk ▸ List.mem_map_of_mem hrest)
        obtain ⟨hwanted, hkept⟩ := ih hnd.2 hrest (F.keepOrLaunch row)
        refine ⟨hwanted, ?_⟩
        intro i hget
        exact hkept i (by rw [get_keepOrLaunch_ne row hne, hget])

/-- What runs is what is wanted. -/
theorem reconcile_wanted (desired : Table κ δ) (F : Fleet κ δ) (k : κ) :
    ((reconcile desired F).running.get k).map Prod.snd = desired.get k := by
  have hnd : (desired.rows.map Prod.fst).Nodup := by
    rw [Table.map_fst_rows]
    exact desired.nodup
  unfold reconcile
  cases hget : desired.get k with
  | some d => exact (get_foldl_keepOrLaunch_of_mem hnd (Table.mem_rows.2 hget) _).1
  | none =>
      have hnot : k ∉ desired.rows.map Prod.fst := by
        rw [Table.map_fst_rows, Table.mem_keys, hget]
        exact fun hne => hne rfl
      have hgone : ((F.running.keys.filter fun k => !desired.has k).foldl cancel F).running.get k = none := by
        rw [get_foldl_cancel]
        split
        case isTrue => rfl
        case isFalse hmem =>
          by_contra hrun
          exact hmem (List.mem_filter.2 ⟨(F.running.mem_keys k).2 hrun, by rw [Table.has, hget]; rfl⟩)
      rw [get_foldl_keepOrLaunch_of_notMem hnot, hgone]
      rfl

/-- A task that is wanted as it is, is left alone. -/
theorem reconcile_kept {desired : Table κ δ} {d : δ} {i : Nat} (hrun : F.running.get k = some (i, d))
    (hwant : desired.get k = some d) : (reconcile desired F).running.get k = some (i, d) := by
  have hnd : (desired.rows.map Prod.fst).Nodup := by
    rw [Table.map_fst_rows]
    exact desired.nodup
  have hstays : ((F.running.keys.filter fun k => !desired.has k).foldl cancel F).running.get k = some (i, d) := by
    rw [get_foldl_cancel, if_neg, hrun]
    intro hmem
    have hhas := (List.mem_filter.1 hmem).2
    rw [Table.has, hwant] at hhas
    cases hhas
  exact (get_foldl_keepOrLaunch_of_mem hnd (Table.mem_rows.2 hwant) _).2 i hstays

end Get

/-! ## Every task is accounted for -/

structure Accounted (F : Fleet κ δ) : Prop where
  running_iff : ∀ k i d, F.running.get k = some (i, d) ↔ F.Live i k d
  nodup : F.cancelled.Nodup
  cancelled_lt : ∀ i ∈ F.cancelled, i < F.created.length

omit [DecidableEq κ] in
theorem Accounted.empty : Accounted ({} : Fleet κ δ) where
  running_iff := by
    intro k i d
    constructor
    · exact fun h => nomatch h
    · rintro ⟨h, -⟩
      exact nomatch h
  nodup := List.nodup_nil
  cancelled_lt := fun _ h => nomatch h

section Operations
variable {F : Fleet κ δ}

omit [DecidableEq κ] in
theorem Accounted.lt (h : F.Accounted) {k : κ} {task : Nat × δ} (hrun : F.running.get k = some task) :
    F.created[task.1]? = some (k, task.2) ∧ task.1 ∉ F.cancelled ∧ task.1 < F.created.length := by
  obtain ⟨hcreated, hnot⟩ := (h.running_iff k task.1 task.2).1 hrun
  exact ⟨hcreated, hnot, (List.getElem?_eq_some_iff.1 hcreated).1⟩

theorem Accounted.cancel (h : F.Accounted) (key : κ) : (F.cancel key).Accounted := by
  unfold Fleet.cancel
  split
  case h_1 => exact h
  case h_2 task hrun =>
    obtain ⟨hcreated, hnot, hlt⟩ := h.lt hrun
    refine ⟨?_, (List.concat_eq_append ▸ h.nodup.concat hnot), ?_⟩
    · intro k i d
      have hlive : F.running.get k = some (i, d) ↔ F.created[i]? = some (k, d) ∧ i ∉ F.cancelled := h.running_iff k i d
      change (F.running.erase key).get k = some (i, d) ↔ F.created[i]? = some (k, d) ∧ i ∉ F.cancelled ++ [task.1]
      rw [List.mem_append, List.mem_singleton, not_or]
      by_cases hk : k = key
      · subst hk
        rw [Table.get_erase_self]
        constructor
        · exact fun hget => nomatch hget
        · -- the only task that ran under the key is the one that is cancelled
          rintro ⟨hi, hni, hne⟩
          rw [hlive.2 ⟨hi, hni⟩] at hrun
          exact absurd (congrArg Prod.fst (Option.some.inj hrun)) hne
      · rw [Table.get_erase_ne _ hk, hlive]
        constructor
        · rintro ⟨hi, hni⟩
          refine ⟨hi, hni, ?_⟩
          rintro rfl
          rw [hcreated] at hi
          exact hk (congrArg Prod.fst (Option.some.inj hi)).symm
        · rintro ⟨hi, hni, -⟩
          exact ⟨hi, hni⟩
    · intro i hi
      rcases List.mem_append.1 hi with hold | hnew
      · exact h.cancelled_lt i hold
      · rw [List.mem_singleton.1 hnew]
        exact hlt

theorem Accounted.foldl_cancel (h : F.Accounted) (keys : List κ) : (keys.foldl Fleet.cancel F).Accounted := by
  induction keys generalizing F with
  | nil => exact h
  | cons key keys ih =>
      rw [List.foldl_cons]
      exact ih (h.cancel key)

/-- A new task takes the place of the one there, whose key is free once it is cancelled. -/
theorem launch_eq_cancel (F : Fleet κ δ) (key : κ) (d : δ) :
    F.launch key d =
      { running := F.running.put key ((F.cancel key).created.length, d)
        created := (F.cancel key).created ++ [(key, d)]
        cancelled := (F.cancel key).cancelled } := by
  unfold launch Fleet.cancel
  cases F.running.get key with
  | none => rw [Option.map_none, Option.toList_none, List.append_nil]
  | some task => rfl

omit [DecidableEq κ] in
/-- A task is created for a key that is free. -/
theorem Accounted.create (h : F.Accounted) {key : κ} {d : δ} (hfree : F.running.get key = none)
    {running : Table κ (Nat × δ)} (hself : running.get key = some (F.created.length, d))
    (hothers : ∀ k, k ≠ key → running.get k = F.running.get k) :
    ({ running, created := F.created ++ [(key, d)], cancelled := F.cancelled } : Fleet κ δ).Accounted := by
  refine ⟨?_, h.nodup, ?_⟩
  · intro k i d'
    change running.get k = some (i, d') ↔ (F.created ++ [(key, d)])[i]? = some (k, d') ∧ i ∉ F.cancelled
    by_cases hi : i = F.created.length
    · -- the new one
      subst hi
      have hnot : F.created.length ∉ F.cancelled := fun hmem => Nat.lt_irrefl _ (h.cancelled_lt _ hmem)
      rw [List.getElem?_append_right (Nat.le_refl _), Nat.sub_self, List.getElem?_cons_zero]
      constructor
      · intro hget
        by_cases hk : k = key
        · subst hk
          rw [hself] at hget
          obtain ⟨-, rfl⟩ := Prod.mk.inj (Option.some.inj hget)
          exact ⟨rfl, hnot⟩
        · rw [hothers k hk] at hget
          exact absurd (h.lt hget).2.2 (Nat.lt_irrefl _)
      · rintro ⟨hsome, -⟩
        obtain ⟨rfl, rfl⟩ := Prod.mk.inj (Option.some.inj hsome)
        exact hself
    · -- a task from before, or none
      have hold : (F.created ++ [(key, d)])[i]? = F.created[i]? := by
        rcases Nat.lt_or_gt_of_ne hi with hlt | hgt
        · exact List.getElem?_append_left hlt
        · rw [List.getElem?_eq_none (by rw [List.length_append]; exact hgt), List.getElem?_eq_none (Nat.le_of_lt hgt)]
      rw [hold]
      by_cases hk : k = key
      · subst hk
        constructor
        · intro hget
          rw [hself] at hget
          exact absurd (congrArg Prod.fst (Option.some.inj hget)).symm hi
        · intro hlive
          rw [(h.running_iff k i d').2 hlive] at hfree
          cases hfree
      · rw [hothers k hk]
        exact h.running_iff k i d'
  · intro i hi
    rw [List.length_append, List.length_singleton]
    exact Nat.lt_succ_of_lt (h.cancelled_lt i hi)

theorem Accounted.launch (h : F.Accounted) (key : κ) (d : δ) : (F.launch key d).Accounted := by
  rw [launch_eq_cancel]
  refine (h.cancel key).create (by rw [get_cancel, if_pos rfl]) (Table.get_put_self _ _ _) ?_
  intro k hk
  rw [Table.get_put_ne _ _ hk, get_cancel, if_neg hk]

theorem Accounted.cancelAll (h : F.Accounted) : F.cancelAll.Accounted := h.foldl_cancel _

variable [DecidableEq δ]

theorem Accounted.keepOrLaunch (h : F.Accounted) (row : κ × δ) : (F.keepOrLaunch row).Accounted := by
  unfold Fleet.keepOrLaunch
  split
  case h_1 => exact h.launch row.1 row.2
  case h_2 =>
    split
    case isTrue => exact h
    case isFalse => exact h.launch row.1 row.2

theorem Accounted.reconcile (h : F.Accounted) (desired : Table κ δ) : (reconcile desired F).Accounted := by
  unfold Fleet.reconcile
  have hrows : ∀ (rows : List (κ × δ)) {G : Fleet κ δ}, G.Accounted → (rows.foldl Fleet.keepOrLaunch G).Accounted := by
    intro rows
    induction rows with
    | nil => exact fun hG => hG
    | cons row rows ih =>
        intro G hG
        rw [List.foldl_cons]
        exact ih (hG.keepOrLaunch row)
  exact hrows _ (h.foldl_cancel _)

end Operations

/-! ## The past stays -/

/-- `G` is `F` some time later. -/
structure Since (F G : Fleet κ δ) : Prop where
  created : F.created <+: G.created
  cancelled : F.cancelled ⊆ G.cancelled

namespace Since

omit [DecidableEq κ] in
theorem refl (F : Fleet κ δ) : F.Since F := ⟨List.prefix_rfl, fun _ h => h⟩

omit [DecidableEq κ] in
theorem trans {F G H : Fleet κ δ} (h : F.Since G) (h' : G.Since H) : F.Since H :=
  ⟨h.created.trans h'.created, fun _ hi => h'.cancelled (h.cancelled hi)⟩

omit [DecidableEq κ] in
/-- A task that was created runs later on just when it is not cancelled by then. -/
theorem running_iff {F G : Fleet κ δ} (h : F.Since G) (hG : G.Accounted) {i : Nat} {k : κ} {d : δ}
    (hcreated : F.created[i]? = some (k, d)) : G.running.get k = some (i, d) ↔ i ∉ G.cancelled := by
  obtain ⟨later, hlater⟩ := h.created
  have hstill : G.created[i]? = some (k, d) := by
    rw [← hlater, List.getElem?_append_left (List.getElem?_eq_some_iff.1 hcreated).1]
    exact hcreated
  rw [hG.running_iff k i d]
  exact and_iff_right hstill

theorem cancel (F : Fleet κ δ) (k : κ) : F.Since (F.cancel k) := by
  unfold Fleet.cancel
  split
  case h_1 => exact refl F
  case h_2 => exact ⟨List.prefix_rfl, List.subset_append_left _ _⟩

theorem launch (F : Fleet κ δ) (k : κ) (d : δ) : F.Since (F.launch k d) :=
  ⟨List.prefix_append _ _, List.subset_append_left _ _⟩

omit [DecidableEq κ] in
/-- What each step of a loop keeps, the loop keeps. -/
theorem foldl {β : Type*} {step : Fleet κ δ → β → Fleet κ δ} (hstep : ∀ (F : Fleet κ δ) b, F.Since (step F b)) (l : List β)
    (F : Fleet κ δ) : F.Since (l.foldl step F) := by
  induction l generalizing F with
  | nil => exact refl F
  | cons b l ih =>
      rw [List.foldl_cons]
      exact (hstep F b).trans (ih _)

theorem cancelAll (F : Fleet κ δ) : F.Since F.cancelAll := foldl cancel _ F

theorem reconcile [DecidableEq δ] (desired : Table κ δ) (F : Fleet κ δ) : F.Since (reconcile desired F) := by
  refine (foldl cancel _ F).trans (foldl ?_ _ _)
  intro F row
  unfold keepOrLaunch
  split
  case h_1 => exact launch F _ _
  case h_2 =>
    split
    case isTrue => exact refl F
    case isFalse => exact launch F _ _

end Since

end Fleet
end Lib
end RobotsixMill
