import RobotsixMill.Service.Runs

/-!
# `Service.SubtreeMigration` — what a failed epic migration leaves behind

`migrateEpicSubtree` moves one directory after the other to the target board and only then opens the
target transaction. A failure of that transaction is undone by the handler (`rollbackMoves_moved`), a
target directory that exists already is met in the middle of the move loop, which nothing covers.

- `collectSubtree_complete` — the bounded search finds every finite subtree, each ticket once.
- `moveWorkspaces_ok`, `rollbackMoves_moved` — the loop and the handler in closed form.
- `subtree_migration_rolled_back` — exactly when a failed migration leaves no trace.
-/

namespace RobotsixMill
namespace Service
open RobotsixMill.Core Lib

/-! ## The subtree -/

theorem mem_childrenOn {σ : Mill} {board : BoardId} {tid c : TicketId} :
    c ∈ childrenOn σ board tid ↔
      ∃ r, σ.records.get (board, c) = some r ∧ r.ticket.parentId = some tid := by
  simp only [childrenOn, List.mem_map, List.mem_filter, Bool.and_eq_true, decide_eq_true_eq]
  constructor
  · rintro ⟨⟨⟨b, t⟩, r⟩, ⟨hmem, hb, hp⟩, rfl⟩
    have hb' : b = board := hb
    subst hb'
    exact ⟨r, Table.mem_rows.1 hmem, hp⟩
  · rintro ⟨r, hget, hp⟩
    exact ⟨((board, c), r), ⟨Table.mem_rows.2 hget, rfl, hp⟩, rfl⟩

/-- A ticket has one parent. -/
theorem childrenOn_parent {σ : Mill} {board : BoardId} (c p q : TicketId)
    (hp : c ∈ childrenOn σ board p) (hq : c ∈ childrenOn σ board q) : p = q := by
  obtain ⟨r, hget, hp⟩ := mem_childrenOn.1 hp
  obtain ⟨r', hget', hq⟩ := mem_childrenOn.1 hq
  rw [hget] at hget'
  cases hget'
  rw [hp] at hq
  exact Option.some.inj hq

theorem nodup_childrenOn (σ : Mill) (board : BoardId) (tid : TicketId) :
    (childrenOn σ board tid).Nodup := by
  have hkeys : (σ.records.rows.map Prod.fst).Nodup := by
    rw [Table.map_fst_rows]
    exact σ.records.nodup
  refine List.Nodup.map_on ?_ ((List.Nodup.of_map _ hkeys).filter _)
  intro x hx y hy heq
  rw [List.mem_filter, Bool.and_eq_true, decide_eq_true_eq] at hx hy
  -- both are the row of one ticket of the board
  have hkey : x.1 = y.1 := Prod.ext (hx.2.1.trans hy.2.1.symm) heq
  exact List.inj_on_of_nodup_map hkeys hx.1 hy.1 hkey

theorem nodup_collectSubtree {σ : Mill} {board : BoardId} {root : TicketId} {ts : List TicketId}
    (h : collectSubtree σ board root = some ts) : ts.Nodup :=
  nodup_collectBelow (nodup_childrenOn σ board) childrenOn_parent h

theorem collectSubtree_eq_cons {σ : Mill} {board : BoardId} {root : TicketId} {ts : List TicketId}
    (h : collectSubtree σ board root = some ts) : ∃ rest, ts = root :: rest := by
  obtain ⟨ext, hts, -⟩ := collectBelow_eq h
  exact ⟨ext, hts⟩

/-- **The bound of the search is no restriction**: a subtree that any number of rounds collects is
    collected. -/
theorem collectSubtree_complete {σ : Mill} {board : BoardId} {root : TicketId} {fuel : Nat}
    {ts : List TicketId} (h : collectBelow (childrenOn σ board) fuel [root] [root] = some ts) :
    collectSubtree σ board root = some ts := by
  obtain ⟨ext, rfl, hext⟩ := collectBelow_eq h
  refine collectBelow_fuel h ?_
  have hnd : ext.Nodup :=
    (List.nodup_append.1 (nodup_collectBelow (nodup_childrenOn σ board) childrenOn_parent h)).2.1
  have hsub : (ext.map fun t => (board, t)) ⊆ σ.records.keys := by
    intro k hk
    obtain ⟨t, ht, rfl⟩ := List.mem_map.1 hk
    rw [hext] at ht
    obtain ⟨p, -, hp⟩ := List.mem_flatMap.1 ht
    obtain ⟨r, hget, -⟩ := mem_childrenOn.1 hp
    exact (σ.records.mem_keys _).2 (by simp [hget])
  have hnd' : (ext.map fun t => (board, t)).Nodup :=
    hnd.map fun _ _ heq => (Prod.mk.inj heq).2
  have hlen := (List.subperm_of_subset hnd' hsub).length_le
  rw [List.length_map] at hlen
  rw [List.length_singleton]
  omega

/-! ## The move loop and the handler -/

section Moves

variable {src dst : BoardId}

/-- The directories after all of `ts` moved. -/
def movedWorkspaces (src dst : BoardId) (ts : List TicketId) (ws : Key → Option Workspace) :
    Key → Option Workspace := fun k =>
  if k.2 ∈ ts then
    if k.1 = src then none
    else if k.1 = dst then some (cleanMoved ((ws (src, k.2)).getD {}))
    else ws k
  else ws k

/-- The moves made for `ts`. -/
def movesOf (src dst : BoardId) (ts : List TicketId) (ws : Key → Option Workspace) : List WsMove :=
  ts.map fun t => ((src, t), (dst, t), (ws (src, t)).isSome)

theorem moveWorkspace_eq (hne : dst ≠ src) (t : TicketId) (ws : Key → Option Workspace) :
    moveWorkspace (src, t) (dst, t) ws = (movedWorkspaces src dst [t] ws, (ws (src, t)).isSome) := by
  unfold moveWorkspace movedWorkspaces
  cases hs : ws (src, t) with
  | none =>
      refine Prod.ext (funext fun k => ?_) rfl
      obtain ⟨b, t'⟩ := k
      by_cases ht : t' = t
      · subst ht
        by_cases hb : b = src
        · subst hb
          simp [hne.symm, hs]
        · by_cases hd : b = dst
          · subst hd
            simp [hb, hs]
          · simp [hb, hd]
      · simp [ht]
  | some dir =>
      refine Prod.ext (funext fun k => ?_) rfl
      obtain ⟨b, t'⟩ := k
      by_cases ht : t' = t
      · subst ht
        by_cases hb : b = src
        · subst hb
          simp [hne.symm]
        · by_cases hd : b = dst
          · subst hd
            simp [hb, hs]
          · simp [hb, hd]
      · simp [ht]

theorem movedWorkspaces_of_notMem {ts : List TicketId} {ws : Key → Option Workspace} {k : Key}
    (h : k.2 ∉ ts) : movedWorkspaces src dst ts ws k = ws k := by
  unfold movedWorkspaces
  rw [if_neg h]

/-- Moves of different tickets do not meet. -/
theorem movedWorkspaces_cons {t : TicketId} {ts : List TicketId} (ht : t ∉ ts)
    (ws : Key → Option Workspace) :
    movedWorkspaces src dst ts (movedWorkspaces src dst [t] ws) =
      movedWorkspaces src dst (t :: ts) ws := by
  funext k
  by_cases hk : k.2 = t
  · have hnot : k.2 ∉ ts := hk ▸ ht
    rw [movedWorkspaces_of_notMem hnot]
    simp [movedWorkspaces, hk]
  · have hnot : (src, k.2).2 ∉ [t] := by simpa using hk
    have hk' : k.2 ∉ [t] := hnot
    unfold movedWorkspaces
    simp [hk]

theorem movesOf_moved {t : TicketId} {ts : List TicketId} (ht : t ∉ ts)
    (ws : Key → Option Workspace) :
    movesOf src dst ts (movedWorkspaces src dst [t] ws) = movesOf src dst ts ws := by
  unfold movesOf
  refine List.map_congr_left fun t' ht' => ?_
  have hne : t' ≠ t := fun h => ht (h ▸ ht')
  have hnot : (src, t').2 ∉ [t] := by simpa using hne
  rw [movedWorkspaces_of_notMem hnot]

/-- The loop runs to its end when no target directory exists. -/
theorem moveWorkspaces_ok (hne : dst ≠ src) {ts : List TicketId} (hnd : ts.Nodup)
    {ws : Key → Option Workspace} (hfree : ∀ t ∈ ts, ws (dst, t) = none) (moves : List WsMove) :
    moveWorkspaces src dst ts moves ws =
      (movedWorkspaces src dst ts ws, .ok (moves ++ movesOf src dst ts ws)) := by
  induction ts generalizing ws moves with
  | nil =>
      have : movedWorkspaces src dst [] ws = ws := by
        funext k
        exact movedWorkspaces_of_notMem List.not_mem_nil
      rw [this]
      simp [moveWorkspaces, movesOf]
  | cons t ts ih =>
      obtain ⟨ht, hnd⟩ := List.nodup_cons.1 hnd
      have hhead : ws (dst, t) = none := hfree t List.mem_cons_self
      have htail : ∀ t' ∈ ts, movedWorkspaces src dst [t] ws (dst, t') = none := by
        intro t' ht'
        have hne' : t' ≠ t := fun h => ht (h ▸ ht')
        have hnot : (dst, t').2 ∉ [t] := by simpa using hne'
        rw [movedWorkspaces_of_notMem hnot]
        exact hfree t' (List.mem_cons_of_mem _ ht')
      unfold moveWorkspaces
      simp only [hhead, Option.isSome_none, Bool.false_eq_true, if_false]
      rw [moveWorkspace_eq hne t ws]
      dsimp only
      rw [ih hnd htail, movedWorkspaces_cons ht, movesOf_moved ht]
      simp [movesOf]

/-- A target directory met on the way: nothing that is under the target board goes away. -/
theorem target_of_moveWorkspaces (hne : dst ≠ src) (ts : List TicketId) (moves : List WsMove)
    (ws : Key → Option Workspace) {t : TicketId} (h : (ws (dst, t)).isSome = true) :
    ((moveWorkspaces src dst ts moves ws).1 (dst, t)).isSome = true := by
  induction ts generalizing moves ws with
  | nil => exact h
  | cons t' ts ih =>
      unfold moveWorkspaces
      split
      · exact h
      · rw [moveWorkspace_eq hne]
        refine ih _ _ ?_
        unfold movedWorkspaces
        rw [if_neg hne, if_pos rfl]
        split
        · rfl
        · exact h

/-- The loop ends in an exception when some target directory exists. -/
theorem moveWorkspaces_error (hne : dst ≠ src) {ts : List TicketId} (hnd : ts.Nodup)
    {ws : Key → Option Workspace} {t : TicketId} (ht : t ∈ ts) (h : (ws (dst, t)).isSome = true)
    (moves : List WsMove) : ∃ e, (moveWorkspaces src dst ts moves ws).2 = .error (.valueError e) := by
  induction ts generalizing ws moves with
  | nil => cases ht
  | cons t' ts ih =>
      unfold moveWorkspaces
      split
      · exact ⟨_, rfl⟩
      · rename_i hfree
        have htt : t ≠ t' := by
          rintro rfl
          exact hfree h
        have hnot : (dst, t).2 ∉ [t'] := by simpa using htt
        rw [moveWorkspace_eq hne]
        refine ih (List.nodup_cons.1 hnd).2 ((List.mem_cons.1 ht).resolve_left htt) ?_ _
        rw [movedWorkspaces_of_notMem hnot]
        exact h

/-- Where the handler puts the directories. -/
theorem rollbackMoves_eq (hne : dst ≠ src) {moved : TicketId → Bool} {ts : List TicketId}
    (hnd : ts.Nodup) (ws : Key → Option Workspace)
    (hdst : ∀ t ∈ ts, ws (dst, t) ≠ none) :
    rollbackMoves (ts.map fun t => ((src, t), (dst, t), moved t)) ws = fun k =>
      if k.2 ∈ ts then
        if k.1 = dst then none
        else if k.1 = src ∧ moved k.2 = true then ws (dst, k.2)
        else ws k
      else ws k := by
  induction ts generalizing ws with
  | nil => simp [rollbackMoves]
  | cons t ts ih =>
      obtain ⟨ht, hnd⟩ := List.nodup_cons.1 hnd
      obtain ⟨dir, hdir⟩ := Option.ne_none_iff_exists'.1 (hdst t List.mem_cons_self)
      -- one step touches the two directories of `t` only
      have hstep : ∀ k : Key, rollbackMove ((src, t), (dst, t), moved t) ws k =
          if k = (dst, t) then none
          else if k = (src, t) ∧ moved t = true then ws (dst, t) else ws k := by
        intro k
        cases hm : moved t with
        | true =>
            simp only [rollbackMove, hdir]
            by_cases hk : k = (src, t)
            · subst hk
              have : (src, t) ≠ (dst, t) := fun h => hne (Prod.mk.inj h).1.symm
              simp [this]
            · by_cases hk' : k = (dst, t)
              · subst hk'
                rw [Function.update_of_ne hk]
                simp
              · rw [Function.update_of_ne hk, Function.update_of_ne hk']
                simp [hk, hk']
        | false =>
            simp only [rollbackMove]
            by_cases hk' : k = (dst, t)
            · subst hk'
              simp
            · rw [Function.update_of_ne hk']
              simp [hk']
      have hother : ∀ k : Key, k.2 ≠ t →
          rollbackMove ((src, t), (dst, t), moved t) ws k = ws k := by
        intro k hk
        have h₁ : k ≠ (dst, t) := fun h => hk (by rw [h])
        have h₂ : k ≠ (src, t) := fun h => hk (by rw [h])
        rw [hstep, if_neg h₁, if_neg (fun h => h₂ h.1)]
      have hdst' : ∀ t' ∈ ts, rollbackMove ((src, t), (dst, t), moved t) ws (dst, t') ≠ none := by
        intro t' ht'
        have htt : t' ≠ t := fun h => ht (h ▸ ht')
        rw [hother (dst, t') htt]
        exact hdst t' (List.mem_cons_of_mem _ ht')
      show rollbackMoves (ts.map _) (rollbackMove ((src, t), (dst, t), moved t) ws) = _
      rw [ih hnd _ hdst']
      funext k
      obtain ⟨b, t'⟩ := k
      by_cases htt : t' = t
      · subst htt
        simp only [ht, if_false, List.mem_cons, true_or, if_true, hstep, Prod.mk.injEq, and_true]
      · have hd := hother (dst, t') htt
        have hk := hother (b, t') htt
        simp only [hd, hk, List.mem_cons, htt, false_or]

/-- **The handler undoes the loop**: each directory is back, without what `cleanMoved` drops, and
    nothing is left under the target board. -/
theorem rollbackMoves_moved (hne : dst ≠ src) {ts : List TicketId} (hnd : ts.Nodup)
    {ws : Key → Option Workspace} (hfree : ∀ t ∈ ts, ws (dst, t) = none) (k : Key) :
    rollbackMoves (movesOf src dst ts ws) (movedWorkspaces src dst ts ws) k =
      if k.2 ∈ ts ∧ k.1 = src then (ws k).map cleanMoved else ws k := by
  have hdst : ∀ t ∈ ts, movedWorkspaces src dst ts ws (dst, t) ≠ none := by
    intro t ht
    simp [movedWorkspaces, ht, hne]
  unfold movesOf
  rw [rollbackMoves_eq hne hnd _ hdst]
  obtain ⟨b, t⟩ := k
  by_cases ht : t ∈ ts
  · by_cases hd : b = dst
    · subst hd
      simp [ht, hne, hfree t ht]
    · by_cases hs : b = src
      · subst hs
        cases hws : ws (b, t) with
        | none => simp [movedWorkspaces, ht, hd, hws]
        | some dir => simp [movedWorkspaces, ht, hd, hne, hws]
      · simp [movedWorkspaces, ht, hd, hs]
  · simp [movedWorkspaces, ht]

end Moves

/-! ## A migration that raises -/

/-- The call raised before the target transaction was committed. Only the source transaction comes
    after it. -/
def RaisesBeforeCommit (res : Result Unit) : Prop :=
  ∃ e, res.2 = .error e ∧ e ≠ .dbError "migrate: the source transaction failed"

/-- No row of any board changed, each directory is where it was, with its content up to what
    `cleanMoved` drops, and there is no directory under the target board that was not there before. -/
structure RolledBack (src : BoardId) (σ σ' : Mill) : Prop where
  records : σ'.records = σ.records
  source : ∀ t, σ'.workspaces (src, t) = σ.workspaces (src, t) ∨
    σ'.workspaces (src, t) = (σ.workspaces (src, t)).map cleanMoved
  target : ∀ k : Key, k.1 ≠ src → σ'.workspaces k = σ.workspaces k

theorem RolledBack.refl (src : BoardId) (σ : Mill) : RolledBack src σ σ where
  records := rfl
  source := fun _ => .inl rfl
  target := fun _ _ => rfl

/-- The root is moved, and a directory in the way of another ticket of the subtree stops the loop. -/
def StopsMidway (σ : Mill) (src dst : BoardId) (root : TicketId) : Prop :=
  ∃ ts, collectSubtree σ src root = some ts ∧ subtreeBlockers σ src ts = [] ∧
    σ.workspaces (dst, root) = none ∧ ∃ t ∈ ts, σ.workspaces (dst, t) ≠ none

section Failure

variable {env : Env} {src dst : BoardId} {root : TicketId} {note : Option String} {σ : Mill}
  {ts : List TicketId}

/-- A migration that runs its move loop to the end and then raises is undone. -/
theorem rolledBack_of_free (hne : dst ≠ src) (hnd : ts.Nodup)
    (hfree : ∀ t ∈ ts, σ.workspaces (dst, t) = none)
    (hraise : RaisesBeforeCommit (commitMigration env src dst root ts note
      (movesOf src dst ts σ.workspaces)
      { σ with workspaces := movedWorkspaces src dst ts σ.workspaces })) :
    RolledBack src σ (commitMigration env src dst root ts note (movesOf src dst ts σ.workspaces)
      { σ with workspaces := movedWorkspaces src dst ts σ.workspaces }).1 := by
  obtain ⟨e, he, hlate⟩ := hraise
  unfold commitMigration at he ⊢
  dsimp only at he ⊢
  split
  · refine ⟨rfl, ?_, ?_⟩
    · intro t
      show rollbackMoves _ _ (src, t) = _ ∨ rollbackMoves _ _ (src, t) = _
      rw [rollbackMoves_moved hne hnd hfree]
      by_cases ht : t ∈ ts
      · exact .inr (if_pos ⟨ht, rfl⟩)
      · exact .inl (if_neg fun h => ht h.1)
    · intro k hk
      show rollbackMoves _ _ k = _
      rw [rollbackMoves_moved hne hnd hfree]
      exact if_neg fun h => hk h.2
  · -- past the target transaction only the other error is left
    rename_i heq
    rw [heq] at he
    dsimp only at he
    split at he
    · cases he
      exact absurd rfl hlate
    · cases he

/-- A loop that stops after the root was moved leaves the root's directory under the target board. -/
theorem not_rolledBack_of_midway (hne : dst ≠ src) (hcollect : collectSubtree σ src root = some ts)
    (hblock : subtreeBlockers σ src ts = []) (hroot : σ.workspaces (dst, root) = none)
    {t : TicketId} (ht : t ∈ ts) (hocc : σ.workspaces (dst, t) ≠ none) :
    ¬ RolledBack src σ (migrateEpicSubtree env src dst root note σ).1 := by
  intro hback
  obtain ⟨rest, rfl⟩ := collectSubtree_eq_cons hcollect
  obtain ⟨e, herr⟩ := moveWorkspaces_error hne (nodup_collectSubtree hcollect) ht
    (Option.isSome_iff_ne_none.2 hocc) []
  -- the head of the list is moved first
  have hkept : ((moveWorkspaces src dst (root :: rest) [] σ.workspaces).1 (dst, root)).isSome = true := by
    unfold moveWorkspaces
    simp only [hroot, Option.isSome_none, Bool.false_eq_true, if_false]
    rw [moveWorkspace_eq hne]
    refine target_of_moveWorkspaces hne _ _ _ ?_
    simp [movedWorkspaces, hne]
  have hstate : (migrateEpicSubtree env src dst root note σ).1.workspaces =
      (moveWorkspaces src dst (root :: rest) [] σ.workspaces).1 := by
    unfold migrateEpicSubtree
    rw [hcollect]
    dsimp only
    rw [if_neg (not_not.2 hblock)]
    cases hm : moveWorkspaces src dst (root :: rest) [] σ.workspaces with
    | mk ws res =>
        rw [hm] at herr
        dsimp only at herr
        subst herr
        rfl
  have hsame := hback.target (dst, root) hne
  rw [hstate, hroot] at hsame
  rw [hsame] at hkept
  cases hkept

/-- **A failed epic migration.** When the call raises before the target transaction is committed,
    everything is as before, unless the root's directory was free to move and the one of another ticket
    of the subtree was not. -/
theorem subtree_migration_rolled_back (hne : dst ≠ src)
    (hraise : RaisesBeforeCommit (migrateEpicSubtree env src dst root note σ)) :
    RolledBack src σ (migrateEpicSubtree env src dst root note σ).1 ↔
      ¬ StopsMidway σ src dst root := by
  constructor
  · rintro hback ⟨ts, hcollect, hblock, hroot, t, ht, hocc⟩
    exact not_rolledBack_of_midway hne hcollect hblock hroot ht hocc hback
  · intro hmid
    unfold migrateEpicSubtree at hraise ⊢
    cases hcollect : collectSubtree σ src root with
    | none => exact RolledBack.refl src σ
    | some ts =>
        rw [hcollect] at hraise
        dsimp only at hraise ⊢
        by_cases hblock : subtreeBlockers σ src ts = []
        · rw [if_neg (not_not.2 hblock)] at hraise ⊢
          by_cases hocc : ∃ t ∈ ts, σ.workspaces (dst, t) ≠ none
          · -- the root itself is in the way, so nothing was moved
            have hroot : (σ.workspaces (dst, root)).isSome = true := by
              rw [Option.isSome_iff_ne_none]
              exact fun hroot => hmid ⟨ts, hcollect, hblock, hroot, hocc⟩
            obtain ⟨rest, rfl⟩ := collectSubtree_eq_cons hcollect
            unfold moveWorkspaces
            rw [if_pos hroot]
            exact RolledBack.refl src σ
          · have hfree : ∀ t ∈ ts, σ.workspaces (dst, t) = none := by
              intro t ht
              by_contra h
              exact hocc ⟨t, ht, h⟩
            have hnd := nodup_collectSubtree hcollect
            rw [moveWorkspaces_ok hne hnd hfree, List.nil_append] at hraise ⊢
            exact rolledBack_of_free hne hnd hfree hraise
        · rw [if_pos hblock]
          exact RolledBack.refl src σ

end Failure

/-- An epic with a child, in a registry with a second board. -/
def epicRun : List Op :=
  [.create "board" { id := "e-1", title := "epic", kind := .epic },
    .create "board" { id := "t-1", title := "child", parentId := some "e-1" }]

/-- Two boards, and no transaction succeeds. -/
def Env.failingTarget : Env :=
  { Env.standalone with repos := some [("other", "other")], dbFails := fun _ => true }

theorem subtree_migration_rolled_back_db_failure :
    let σ := runOps .failingTarget .empty epicRun
    RolledBack "board" σ (migrateEpicSubtree .failingTarget "board" "other" "e-1" none σ).1 := by
  refine (subtree_migration_rolled_back (by decide) ⟨_, rfl, by decide⟩).2 ?_
  rintro ⟨ts, -, -, -, t, -, hocc⟩
  exact hocc rfl

/-- The child's target directory exists already: the epic's directory stays behind under the target
    board. -/
theorem subtree_migration_strands_epic :
    let σ := runOps .failingTarget .empty epicRun
    let σ₀ := { σ with workspaces := Function.update σ.workspaces ("other", "t-1") (some {}) }
    let res := migrate .failingTarget "board" "e-1" "other" none σ₀
    res.2 = .error (.valueError "migrate: workspace already exists at other/workspaces/t-1") ∧
    (σ₀.workspaces ("board", "e-1")).isSome = true ∧ σ₀.workspaces ("other", "e-1") = none ∧
    res.1.workspaces ("board", "e-1") = none ∧
    (res.1.workspaces ("other", "e-1")).isSome = true := by
  decide +kernel

end Service
end RobotsixMill
