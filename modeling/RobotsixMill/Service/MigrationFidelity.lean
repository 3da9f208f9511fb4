import RobotsixMill.Service.CommentPurge
import RobotsixMill.Service.Refinement
import RobotsixMill.Service.SubtreeMigration

/-!
# `Service.MigrationFidelity` — what a completed migration carries over

`migrate` re-inserts the rows of a ticket (an epic: of its whole subtree) on the target board. Events are
copied as they are; comments get fresh ids, and the parent of a reply is looked up in the map of the ids
given out so far, one map for a whole subtree.

- `copyComments_eq` — on a threaded list the copy is a renaming of the ids. The map holds every comment
  copied before, which is where the parents of a threaded list are.
- `insertCopies_spec`, `get_deleteSources` — the two transactions, key by key.
- `migration_preserves` — the target board after a migration that returns, and the source board.
-/

namespace RobotsixMill
namespace Service
open RobotsixMill.Core Lib

/-! ## Threads -/

/-- The comments of a ticket as a forest: rows in the order of their ids, a reply after the comment it
    answers, which belongs to the same ticket. -/
structure Threaded (cs : List Comment) : Prop where
  ids : IdOrdered cs
  parents : ∀ c ∈ cs, ∀ p, c.parentId = some p → p < c.id ∧ ∃ d ∈ cs, d.id = p

/-! ## Copying comments -/

/-- The copy of a comment under a renaming of the ids. -/
def renameComment (f : CommentId → CommentId) (c : Comment) : Comment :=
  { c with id := f c.id, parentId := c.parentId.map f }

/-- The copy loop is the renaming `f` of the rest of a threaded list, once the map agrees with `f` on
    the comments that were copied before. -/
theorem copyComments_eq {f : CommentId → CommentId} {done cs : List Comment} {next : CommentId}
    {idMap : List (CommentId × CommentId)} (h : Threaded (done ++ cs))
    (hmap : ∀ d ∈ done, List.lookup d.id idMap = some (f d.id))
    (hf : ∀ i (hi : i < cs.length), f (cs.get ⟨i, hi⟩).id = next + i) :
    (copyComments next idMap cs).1 = cs.map (renameComment f) := by
  induction cs generalizing done next idMap with
  | nil => rfl
  | cons c cs ih =>
      have hc : f c.id = next := by simpa using hf 0 (Nat.succ_pos _)
      have hpair := List.pairwise_append.1 h.ids
      -- the parent of `c` was copied before `c`
      have hpar : (c.parentId.bind fun p => List.lookup p idMap) = c.parentId.map f := by
        cases hp : c.parentId with
        | none => rfl
        | some p =>
            obtain ⟨hlt, d, hd, rfl⟩ :=
              h.parents c (List.mem_append_right _ List.mem_cons_self) p hp
            rcases List.mem_append.1 hd with hd | hd
            · exact hmap d hd
            · rcases List.mem_cons.1 hd with rfl | hd
              · exact absurd hlt (Nat.lt_irrefl _)
              · exact absurd hlt (Nat.lt_asymm ((List.pairwise_cons.1 hpair.2.1).1 d hd))
      have hrest : (copyComments (next + 1) ((c.id, next) :: idMap) cs).1 =
          cs.map (renameComment f) := by
        apply @ih (done ++ [c])
        · simpa using h
        · intro d hd
          rcases List.mem_append.1 hd with hd | hd
          · have hlt : d.id < c.id := hpair.2.2 d hd c List.mem_cons_self
            have hne : (d.id == c.id) = false := by simpa using Nat.ne_of_lt hlt
            rw [List.lookup_cons, hne]
            exact hmap d hd
          · rw [List.mem_singleton.1 hd, List.lookup_cons, beq_self_eq_true, hc]
        · intro i hi
          rw [Nat.add_right_comm, Nat.add_assoc next]
          exact hf (i + 1) (Nat.succ_lt_succ hi)
      simp only [copyComments, List.map_cons]
      rw [hrest, hpar, ← hc]
      rfl

/-- The comments of the copy are those of the original under new ids: same order, same fields, and a
    reply answers the copy of what it answered. -/
def RenamedComments (cs cs' : List Comment) : Prop :=
  ∃ f : CommentId → CommentId, (∀ c ∈ cs, ∀ d ∈ cs, c.id < d.id → f c.id < f d.id) ∧
    cs' = cs.map (renameComment f)

theorem IdOrdered.nodup {cs : List Comment} (h : IdOrdered cs) : (cs.map Comment.id).Nodup := by
  rw [List.Nodup, List.pairwise_map]
  exact h.imp fun hlt => Nat.ne_of_lt hlt

/-- **A threaded list is copied faithfully**, whatever the map held before. -/
theorem renamed_copyComments {cs : List Comment} (h : Threaded cs) (next : CommentId)
    (idMap : List (CommentId × CommentId)) :
    RenamedComments cs (copyComments next idMap cs).1 := by
  have hidx : ∀ i (hi : i < cs.length), (cs.map Comment.id).idxOf (cs.get ⟨i, hi⟩).id = i := by
    intro i hi
    have := h.ids.nodup.idxOf_getElem i (by simpa using hi)
    simpa using this
  refine ⟨fun i => next + (cs.map Comment.id).idxOf i, ?_, ?_⟩
  · intro c hc d hd hlt
    obtain ⟨i, rfl⟩ := List.mem_iff_get.1 hc
    obtain ⟨j, rfl⟩ := List.mem_iff_get.1 hd
    show next + _ < next + _
    rw [hidx i.1 i.2, hidx j.1 j.2]
    apply Nat.add_lt_add_left
    -- rows are in the order of their ids
    by_contra hle
    rcases Nat.lt_or_eq_of_le (Nat.le_of_not_lt hle) with hji | hji
    · exact Nat.lt_asymm hlt (List.pairwise_iff_get.1 h.ids j i hji)
    · have : j = i := Fin.ext hji
      subst this
      exact Nat.lt_irrefl _ hlt
  · apply @copyComments_eq _ [] cs next idMap
    · exact h
    · intro d hd
      cases hd
    · intro i hi
      show next + _ = next + i
      rw [hidx i hi]

/-! ## The two transactions -/

theorem get_deleteSources (src : BoardId) (ts : List TicketId) (T : Table Key TicketRecord) (k : Key) :
    (deleteSources src ts T).get k = if k.1 = src ∧ k.2 ∈ ts then none else T.get k := by
  rw [deleteSources_eq, get_eraseAll]
  have hmem : (k ∈ ts.reverse.map fun t => (src, t)) ↔ k.1 = src ∧ k.2 ∈ ts := by
    simp only [List.mem_map, List.mem_reverse]
    constructor
    · rintro ⟨t, ht, rfl⟩
      exact ⟨rfl, ht⟩
    · rintro ⟨rfl, ht⟩
      exact ⟨k.2, ht, rfl⟩
  simp only [hmem]

/-- The target transaction: one copy for each ticket, next to what was there. -/
theorem insertCopies_spec {now : Nat → DateTime} {src dst : BoardId} {root : TicketId}
    {note : Option String} (hne : dst ≠ src) {ts : List TicketId} (hnd : ts.Nodup)
    {nextId : CommentId} {idMap : List (CommentId × CommentId)} {T T' : Table Key TicketRecord}
    (h : insertCopies now src dst root note ts nextId idMap T = some T') :
    (∀ t ∈ ts, ∃ r n m, T.get (src, t) = some r ∧
      T'.get (dst, t) = some (migrateRecord t now
        (migrationNote src dst r.ticket.state (if t = root then note else none))
        (copyComments n m r.comments).1 r)) ∧
    ∀ k : Key, ¬ (k.1 = dst ∧ k.2 ∈ ts) → T'.get k = T.get k := by
  induction ts generalizing nextId idMap T with
  | nil =>
      cases h
      exact ⟨fun t ht => absurd ht List.not_mem_nil, fun _ _ => rfl⟩
  | cons t ts ih =>
      obtain ⟨ht, hnd⟩ := List.nodup_cons.1 hnd
      unfold insertCopies at h
      cases hs : T.get (src, t) with
      | none => simp [hs] at h
      | some r =>
          cases hd : T.get (dst, t) with
          | some r' => simp [hs, hd] at h
          | none =>
              simp only [hs, hd] at h
              obtain ⟨hcopies, hframe⟩ := ih hnd h
              constructor
              · intro t' ht'
                rcases List.mem_cons.1 ht' with rfl | ht'
                · refine ⟨r, nextId, idMap, hs, ?_⟩
                  rw [hframe (dst, t') fun hk => ht hk.2, Table.get_put_self]
                · obtain ⟨r', n, m, hget, hcopy⟩ := hcopies t' ht'
                  refine ⟨r', n, m, ?_, hcopy⟩
                  have hkey : (src, t') ≠ (dst, t) := fun hk => hne (Prod.mk.inj hk).1.symm
                  rwa [Table.get_put_ne _ _ hkey] at hget
              · intro k hk
                have hkey : k ≠ (dst, t) := by
                  rintro rfl
                  exact hk ⟨rfl, List.mem_cons_self⟩
                rw [hframe k fun hk' => hk ⟨hk'.1, List.mem_cons_of_mem _ hk'.2⟩]
                exact Table.get_put_ne _ _ hkey

/-! ## A migration that returns -/

/-- What the copy `r'` of a record carries over. -/
structure Preserved (src dst : BoardId) (t : TicketId) (note : Option String) (r r' : TicketRecord) :
    Prop where
  /-- A ticket's comments are a forest, see `Threaded`. -/
  comments : Threaded r.comments → RenamedComments r.comments r'.comments
  /-- The history is copied as it is and one event follows. Its link is the hash of the last copied
      event, where that has one (a row from before the chain has none). -/
  events : ∃ e, r'.events = r.events ++ [e] ∧ e.state = .draft ∧
    e.note = some (migrationNote src dst r.ticket.state note) ∧ EventSound t e ∧
    e.prevHash = r.events.getLast?.bind fun last => if last.hash = "" then none else some last.hash
  parentId : r'.ticket.parentId = r.ticket.parentId

theorem preserved_migrateRecord {src dst : BoardId} {t : TicketId} {note : Option String}
    {now : Nat → DateTime} {n : CommentId} {m : List (CommentId × CommentId)} {r : TicketRecord} :
    Preserved src dst t note r (migrateRecord t now (migrationNote src dst r.ticket.state note)
      (copyComments n m r.comments).1 r) where
  comments h := renamed_copyComments h n m
  events := by
    refine ⟨_, rfl, rfl, rfl, makeEvent_sound _ _ _ _ _, ?_⟩
    show prevHashFor r.events = _
    unfold prevHashFor
    cases r.events.getLast? <;> rfl
  parentId := rfl

/-- The outcome of a migration: every ticket of `ts` has a copy on the target board and no row left on
    the source board, and nothing else changed. -/
structure Moved (src dst : BoardId) (root : TicketId) (note : Option String) (ts : TicketId → Prop)
    (σ σ' : Mill) : Prop where
  copied : ∀ t, ts t → ∃ r r', σ.records.get (src, t) = some r ∧ σ'.records.get (dst, t) = some r' ∧
    Preserved src dst t (if t = root then note else none) r r'
  removed : ∀ t, ts t → σ'.records.get (src, t) = none
  frame : ∀ k : Key, ¬ (ts k.2 ∧ (k.1 = src ∨ k.1 = dst)) → σ'.records.get k = σ.records.get k

variable {env : Env} {svc : BoardId} {σ : Mill}

theorem moved_of_commitMigration {src dst : BoardId} {root : TicketId} {ts : List TicketId}
    {note : Option String} {moves : List WsMove} (hne : dst ≠ src) (hnd : ts.Nodup)
    (hok : (commitMigration env src dst root ts note moves σ).2 = .ok ()) :
    Moved src dst root note (· ∈ ts) σ (commitMigration env src dst root ts note moves σ).1 := by
  unfold commitMigration at hok ⊢
  dsimp only at hok ⊢
  split at hok
  · cases hok
  · rename_i T hT
    split at hok
    · cases hok
    · rename_i hsource
      simp only [hsource, Bool.false_eq_true, if_false]
      have hins : insertCopies (σ.now env) src dst root note ts (nextCommentId σ dst) [] σ.records =
          some T := by
        split at hT
        · cases hT
        · exact hT
      obtain ⟨hcopies, hframe⟩ := insertCopies_spec hne hnd hins
      constructor
      · intro t ht
        obtain ⟨r, n, m, hget, hcopy⟩ := hcopies t ht
        refine ⟨r, _, hget, Eq.trans ?_ hcopy, preserved_migrateRecord⟩
        show (deleteSources src ts T).get (dst, t) = _
        rw [get_deleteSources, if_neg fun h => hne h.1]
      · intro t ht
        show (deleteSources src ts T).get (src, t) = none
        rw [get_deleteSources, if_pos ⟨rfl, ht⟩]
      · intro k hk
        show (deleteSources src ts T).get k = _
        rw [get_deleteSources, if_neg fun h => hk ⟨h.2, .inl h.1⟩]
        exact hframe k fun h => hk ⟨h.2, .inr h.1⟩

/-- The move loop changes directories only. -/
theorem Moved.of_workspaces {src dst : BoardId} {root : TicketId} {note : Option String}
    {ts ts' : TicketId → Prop} {ws : Key → Option Workspace} {σ' : Mill}
    (h : Moved src dst root note ts { σ with workspaces := ws } σ') (hts : ∀ t, ts' t ↔ ts t) :
    Moved src dst root note ts' σ σ' where
  copied t ht := h.copied t ((hts t).1 ht)
  removed t ht := h.removed t ((hts t).1 ht)
  frame k hk := h.frame k fun hk' => hk ⟨(hts k.2).2 hk'.1, hk'.2⟩

theorem moved_of_migrateEpicSubtree {src dst : BoardId} {root : TicketId} {note : Option String}
    (hne : dst ≠ src) (hok : (migrateEpicSubtree env src dst root note σ).2 = .ok ()) :
    Moved src dst root note (Below (childrenOn σ src) root) σ
      (migrateEpicSubtree env src dst root note σ).1 := by
  unfold migrateEpicSubtree at hok ⊢
  cases hts : collectSubtree σ src root with
  | none => rw [hts] at hok; cases hok
  | some ts =>
      simp only [hts] at hok ⊢
      by_cases hblock : subtreeBlockers σ src ts = []
      · rw [if_neg (not_not.2 hblock)] at hok ⊢
        cases hm : moveWorkspaces src dst ts [] σ.workspaces with
        | mk ws res =>
            simp only [hm] at hok ⊢
            cases res with
            | error e => cases hok
            | ok moves =>
                refine (moved_of_commitMigration hne (nodup_collectSubtree hts) hok).of_workspaces ?_
                intro t
                exact (mem_collectBelow hts).symm
      · rw [if_pos hblock] at hok
        cases hok

theorem moved_of_migrateSingle {src dst : BoardId} {tid : TicketId} {note : Option String}
    {r : TicketRecord} (hne : dst ≠ src) (hok : (migrateSingle env src dst tid note r σ).2 = .ok ()) :
    Moved src dst tid note (Below (childrenOn σ src) tid) σ
      (migrateSingle env src dst tid note r σ).1 := by
  unfold migrateSingle at hok ⊢
  by_cases hchild : childrenOn σ src tid = []
  · rw [if_neg (not_not.2 hchild)] at hok ⊢
    by_cases hstate : r.ticket.state ∈ MIGRATABLE_STATES
    · rw [if_neg (not_not.2 hstate)] at hok ⊢
      cases hm : moveWorkspaces src dst [tid] [] σ.workspaces with
      | mk ws res =>
          simp only [hm] at hok ⊢
          cases res with
          | error e => cases hok
          | ok moves =>
              refine (moved_of_commitMigration hne (List.nodup_singleton tid) hok).of_workspaces ?_
              -- without children the subtree is the ticket itself
              intro t
              rw [List.mem_singleton]
              constructor
              · intro hbelow
                induction hbelow with
                | root => rfl
                | child _ hc ih =>
                    subst ih
                    rw [hchild] at hc
                    cases hc
              · rintro rfl
                exact .root
    · rw [if_pos hstate] at hok
      cases hok
  · rw [if_pos hchild] at hok
    cases hok

/-- **What a completed migration carries over.** A migration that returns has moved the ticket and all
    that lies below it on its board: each has a copy on the target board with the same comments under new
    ids, the same history and one migration event, and the same parent link; no row of it is left on the
    source board, and no other record changed. -/
theorem migration_preserves {tid : TicketId} {target : String} {note : Option String}
    (hok : (migrate env svc tid target note σ).2 = .ok ()) :
    ∃ src dst, boardFor env svc σ tid = .ok src ∧ knownBoard env target = some dst ∧ dst ≠ src ∧
      Moved src dst tid note (Below (childrenOn σ src) tid) σ (migrate env svc tid target note σ).1 := by
  unfold migrate at hok ⊢
  by_cases htarget : target = ""
  · rw [if_pos htarget] at hok
    cases hok
  · rw [if_neg htarget] at hok ⊢
    cases hdst : knownBoard env target with
    | none => rw [hdst] at hok; cases hok
    | some dst =>
        cases hsrc : boardFor env svc σ tid with
        | error e => rw [hdst, hsrc] at hok; cases hok
        | ok src =>
            simp only [hdst, hsrc] at hok ⊢
            by_cases hne : dst = src
            · rw [if_pos hne] at hok
              cases hok
            · rw [if_neg hne] at hok ⊢
              cases hget : σ.records.get (src, tid) with
              | none => rw [hget] at hok; cases hok
              | some r =>
                  simp only [hget] at hok ⊢
                  refine ⟨src, dst, rfl, rfl, hne, ?_⟩
                  by_cases hdst0 : dst = ""
                  · rw [if_pos hdst0] at hok
                    cases hok
                  · rw [if_neg hdst0] at hok ⊢
                    by_cases hkind : r.ticket.kind = .epic
                    · rw [if_pos hkind] at hok ⊢
                      exact moved_of_migrateEpicSubtree hne hok
                    · rw [if_neg hkind] at hok ⊢
                      exact moved_of_migrateSingle hne hok

/-- Two boards. -/
def Env.twoBoards : Env := { Env.standalone with repos := some [("other", "other")] }

/-- An epic with a child on which a question was asked and answered. -/
def discussedEpicRun : List Op :=
  epicRun ++ [.addComment "board" "t-1" "which one?" "reviewer" none,
    .addComment "board" "t-1" "the first" "operator" (some 1)]

theorem migration_preserves_epic :
    let σ := runOps .twoBoards .empty discussedEpicRun
    let σ' := (migrate .twoBoards "board" "e-1" "other" none σ).1
    ∃ r r', σ.records.get ("board", "t-1") = some r ∧ σ'.records.get ("other", "t-1") = some r' ∧
      r.comments.length = 2 ∧ Preserved "board" "other" "t-1" none r r' ∧
      σ'.records.get ("board", "t-1") = none := by
  obtain ⟨src, dst, hsrc, hdst, -, hmoved⟩ := @migration_preserves .twoBoards "board"
    (runOps .twoBoards .empty discussedEpicRun) "e-1" "other" none (by decide +kernel)
  cases hsrc
  cases hdst
  have hchild : Below (childrenOn (runOps .twoBoards .empty discussedEpicRun) "board") "e-1" "t-1" :=
    .child .root (by decide +kernel)
  obtain ⟨r, r', hget, hget', hpres⟩ := hmoved.copied "t-1" hchild
  refine ⟨r, r', hget, hget', ?_, hpres, hmoved.removed "t-1" hchild⟩
  have hlen : ((runOps .twoBoards .empty discussedEpicRun).records.get ("board", "t-1")).map
      (fun r => r.comments.length) = some 2 := by decide +kernel
  rw [hget] at hlen
  exact Option.some.inj hlen

end Service
end RobotsixMill
