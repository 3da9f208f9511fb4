import RobotsixMill.Service.Refinement
import RobotsixMill.Service.SubtreeCollection

/-!
# `Service.Children` — the children of a ticket on all boards

`listChildrenAcrossBoards` goes through the candidate boards and lists a child that is stored on several of them once,
as the first board has it.

- `mem_listChildren_iff` — the rows it lists; `nodup_listChildren` — each ticket once;
- `childIds` — the tickets it lists, whichever service lists them (`toFinset_listChildren`);
- `Call` — calls of the service, with the setters of `_metadata.py`; `childIds_call` — one that files no child under a
  ticket and links none to it leaves it no child that it did not have.
-/

namespace RobotsixMill
namespace Service
open RobotsixMill.Core Lib

variable (env : Env) (svc : BoardId)

/-- The rows of a board with that parent. -/
def childRows (σ : Mill) (parent_id : TicketId) (board : BoardId) : List (Key × TicketRecord) :=
  σ.records.rows.filter fun row => decide (row.1.1 = board) && decide (row.2.ticket.parentId = some parent_id)

/-- One board of `list_children_across_boards`: what has not been seen on a board before. -/
def listBoard (σ : Mill) (parent_id : TicketId) (result : List (Key × TicketRecord)) (board : BoardId) :
    List (Key × TicketRecord) :=
  result ++ (childRows σ parent_id board).filter fun row => decide (row.1.2 ∉ result.map fun c => c.1.2)

/-- `list_children_across_boards`. -/
def listChildrenAcrossBoards (parent_id : TicketId) (σ : Mill) : List (Key × TicketRecord) :=
  (collectCandidateBoards env svc σ).foldl (listBoard σ parent_id) []

/-! ## What is listed -/

section Listed

variable {env svc} {σ : Mill} {parent_id : TicketId}

/-- Does the board hold the ticket, as a child? -/
def isChildOn (σ : Mill) (parent_id tid : TicketId) (board : BoardId) : Bool :=
  (σ.records.get (board, tid)).any fun r => decide (r.ticket.parentId = some parent_id)

theorem isChildOn_iff {tid : TicketId} {board : BoardId} :
    isChildOn σ parent_id tid board = true ↔
      ∃ r, σ.records.get (board, tid) = some r ∧ r.ticket.parentId = some parent_id := by
  unfold isChildOn
  cases σ.records.get (board, tid) <;> simp

theorem mem_childRows {k : Key} {r : TicketRecord} {board : BoardId} :
    (k, r) ∈ childRows σ parent_id board ↔
      k.1 = board ∧ σ.records.get k = some r ∧ r.ticket.parentId = some parent_id := by
  unfold childRows
  rw [List.mem_filter, Table.mem_rows, Bool.and_eq_true, decide_eq_true_eq, decide_eq_true_eq]
  exact and_left_comm

/-- On a board that holds the ticket as a child, its row is the one listed. -/
theorem mem_childRows_of_isChildOn {tid : TicketId} {board : BoardId} (h : isChildOn σ parent_id tid board = true) :
    ∃ r, ((board, tid), r) ∈ childRows σ parent_id board := by
  obtain ⟨r, hget, hparent⟩ := isChildOn_iff.1 h
  exact ⟨r, mem_childRows.2 ⟨rfl, hget, hparent⟩⟩

theorem mem_listBoard {result : List (Key × TicketRecord)} {board : BoardId} {k : Key} {r : TicketRecord} :
    (k, r) ∈ listBoard σ parent_id result board ↔
      (k, r) ∈ result ∨ k.2 ∉ (result.map fun c => c.1.2) ∧ (k, r) ∈ childRows σ parent_id board := by
  unfold listBoard
  rw [List.mem_append, List.mem_filter, decide_eq_true_eq, and_comm]

theorem mem_ids_listBoard {result : List (Key × TicketRecord)} {board : BoardId} {tid : TicketId} :
    tid ∈ (listBoard σ parent_id result board).map (fun c => c.1.2) ↔
      tid ∈ result.map (fun c => c.1.2) ∨ isChildOn σ parent_id tid board = true := by
  constructor
  · intro h
    obtain ⟨⟨k, r⟩, hmem, rfl⟩ := List.mem_map.1 h
    obtain hold | ⟨-, hrow⟩ := mem_listBoard.1 hmem
    · exact .inl (List.mem_map.2 ⟨_, hold, rfl⟩)
    · obtain ⟨rfl, hget, hparent⟩ := mem_childRows.1 hrow
      exact .inr (isChildOn_iff.2 ⟨r, hget, hparent⟩)
  · rintro (hold | hchild)
    · unfold listBoard
      rw [List.map_append]
      exact List.mem_append_left _ hold
    · by_cases hseen : tid ∈ result.map (fun c => c.1.2)
      · unfold listBoard
        rw [List.map_append]
        exact List.mem_append_left _ hseen
      · obtain ⟨r, hrow⟩ := mem_childRows_of_isChildOn hchild
        exact List.mem_map.2 ⟨_, mem_listBoard.2 (.inr ⟨hseen, hrow⟩), rfl⟩

theorem mem_foldl_listBoard (boards : List BoardId) (result : List (Key × TicketRecord)) {k : Key} {r : TicketRecord} :
    (k, r) ∈ boards.foldl (listBoard σ parent_id) result ↔
      (k, r) ∈ result ∨ k.2 ∉ (result.map fun c => c.1.2) ∧
        boards.find? (isChildOn σ parent_id k.2) = some k.1 ∧ σ.records.get k = some r := by
  induction boards generalizing result with
  | nil => simp
  | cons board boards ih =>
    rw [List.foldl_cons, ih, mem_listBoard, mem_ids_listBoard, not_or]
    cases hchild : isChildOn σ parent_id k.2 board with
    | true =>
      -- the ticket is listed from this board, unless it has been seen
      rw [List.find?_cons_of_pos hchild]
      obtain ⟨r', hget, hparent⟩ := isChildOn_iff.1 hchild
      constructor
      · rintro ((hold | ⟨hnew, hrow⟩) | ⟨⟨-, habsurd⟩, -⟩)
        · exact .inl hold
        · obtain ⟨rfl, hrow, -⟩ := mem_childRows.1 hrow
          exact .inr ⟨hnew, rfl, hrow⟩
        · exact absurd rfl habsurd
      · rintro (hold | ⟨hnew, hboard, hrow⟩)
        · exact .inl (.inl hold)
        · obtain rfl := Option.some.inj hboard
          obtain rfl : r' = r := Option.some.inj (hget.symm.trans hrow)
          exact .inl (.inr ⟨hnew, mem_childRows.2 ⟨rfl, hrow, hparent⟩⟩)
    | false =>
      rw [List.find?_cons_of_neg (by rw [hchild]; exact Bool.false_ne_true)]
      have hno : (k, r) ∉ childRows σ parent_id board := by
        intro hrow
        obtain ⟨rfl, hget, hparent⟩ := mem_childRows.1 hrow
        rw [isChildOn_iff.2 ⟨r, hget, hparent⟩] at hchild
        cases hchild
      simp [hno]

/-- **The rows listed**: of each child, the one of the first candidate board that holds it. -/
theorem mem_listChildren_iff {k : Key} {r : TicketRecord} :
    (k, r) ∈ listChildrenAcrossBoards env svc parent_id σ ↔
      (collectCandidateBoards env svc σ).find? (isChildOn σ parent_id k.2) = some k.1 ∧ σ.records.get k = some r := by
  unfold listChildrenAcrossBoards
  rw [mem_foldl_listBoard]
  simp

theorem get_of_mem_listChildren {k : Key} {r : TicketRecord}
    (h : (k, r) ∈ listChildrenAcrossBoards env svc parent_id σ) :
    σ.records.get k = some r ∧ r.ticket.parentId = some parent_id := by
  obtain ⟨hfind, hget⟩ := mem_listChildren_iff.1 h
  obtain ⟨r', hget', hparent⟩ := isChildOn_iff.1 (List.find?_some hfind)
  obtain rfl : r' = r := Option.some.inj (hget'.symm.trans hget)
  exact ⟨hget, hparent⟩

theorem nodup_listBoard {result : List (Key × TicketRecord)} {board : BoardId}
    (h : (result.map fun c => c.1.2).Nodup) : ((listBoard σ parent_id result board).map fun c => c.1.2).Nodup := by
  unfold listBoard
  rw [List.map_append]
  refine List.Nodup.append h ?_ ?_
  · -- the rows of one board have different ids
    have hkeys : (σ.records.rows.map Prod.fst).Nodup := by
      rw [Table.map_fst_rows]
      exact σ.records.nodup
    have hrows : (σ.records.rows).Nodup := hkeys.of_map _
    refine List.Nodup.map_on ?_ ((hrows.filter _).filter _)
    rintro ⟨⟨b, t⟩, r⟩ hx ⟨⟨b', t'⟩, r'⟩ hy hid
    obtain ⟨rfl, hget, -⟩ := mem_childRows.1 (List.mem_of_mem_filter hx)
    obtain ⟨rfl, hget', -⟩ := mem_childRows.1 (List.mem_of_mem_filter hy)
    obtain rfl : t = t' := hid
    obtain rfl : r = r' := Option.some.inj (hget.symm.trans hget')
    rfl
  · rw [List.disjoint_left]
    intro t ht ht'
    obtain ⟨row, hrow, rfl⟩ := List.mem_map.1 ht'
    exact (of_decide_eq_true (List.mem_filter.1 hrow).2) ht

/-- Each ticket is listed once. -/
theorem nodup_listChildren : ((listChildrenAcrossBoards env svc parent_id σ).map fun c => c.1.2).Nodup := by
  unfold listChildrenAcrossBoards
  generalize collectCandidateBoards env svc σ = boards
  have hrun : ∀ result : List (Key × TicketRecord), (result.map fun c => c.1.2).Nodup →
      ((boards.foldl (listBoard σ parent_id) result).map fun c => c.1.2).Nodup := by
    induction boards with
    | nil => exact fun _ h => h
    | cons board boards ih =>
      intro result h
      rw [List.foldl_cons]
      exact ih _ (nodup_listBoard h)
  exact hrun [] List.nodup_nil

/-- A board that holds a ticket is a candidate, whichever service asks. -/
theorem mem_candidates_of_get {k : Key} {r : TicketRecord} (hget : σ.records.get k = some r) :
    k.1 ∈ collectCandidateBoards env svc σ := by
  have hheld : σ.hasTicket k.1 k.2 = true := hasTicket_iff.2 ⟨r, hget⟩
  have hdir : k.1 ∈ boardDirs env σ := mem_boardDirs_of_hasTicket hheld
  unfold collectCandidateBoards
  dsimp only
  rw [List.mem_eraseDups]
  exact List.mem_append_right _ hdir

/-! ## The tickets listed -/

/-- The children of a ticket, on whatever boards. -/
def childIds (σ : Mill) (parent_id : TicketId) : Finset TicketId :=
  ((σ.records.rows.filter fun row => decide (row.2.ticket.parentId = some parent_id)).map fun row => row.1.2).toFinset

theorem mem_childIds {tid : TicketId} :
    tid ∈ childIds σ parent_id ↔
      ∃ board r, σ.records.get (board, tid) = some r ∧ r.ticket.parentId = some parent_id := by
  unfold childIds
  rw [List.mem_toFinset, List.mem_map]
  constructor
  · rintro ⟨⟨k, r⟩, hrow, rfl⟩
    obtain ⟨hmem, hparent⟩ := List.mem_filter.1 hrow
    exact ⟨k.1, r, Table.mem_rows.1 hmem, of_decide_eq_true hparent⟩
  · rintro ⟨board, r, hget, hparent⟩
    exact ⟨((board, tid), r), List.mem_filter.2 ⟨Table.mem_rows.2 hget, decide_eq_true hparent⟩, rfl⟩

/-- **The tickets listed** are the children, whichever service lists them. -/
theorem toFinset_listChildren :
    ((listChildrenAcrossBoards env svc parent_id σ).map fun c => c.1.2).toFinset = childIds σ parent_id := by
  ext tid
  rw [List.mem_toFinset, mem_childIds]
  constructor
  · intro h
    obtain ⟨⟨k, r⟩, hmem, rfl⟩ := List.mem_map.1 h
    obtain ⟨hget, hparent⟩ := get_of_mem_listChildren hmem
    exact ⟨k.1, r, hget, hparent⟩
  · rintro ⟨board, r, hget, hparent⟩
    have hchild : isChildOn σ parent_id tid board = true := isChildOn_iff.2 ⟨r, hget, hparent⟩
    have hsome : ((collectCandidateBoards env svc σ).find? (isChildOn σ parent_id tid)).isSome :=
      List.find?_isSome.2 ⟨board, mem_candidates_of_get hget, hchild⟩
    obtain ⟨first, hfirst⟩ := Option.isSome_iff_exists.1 hsome
    obtain ⟨r', hget', -⟩ := isChildOn_iff.1 (List.find?_some hfirst)
    exact List.mem_map.2 ⟨((first, tid), r'), mem_listChildren_iff.2 ⟨hfirst, hget'⟩, rfl⟩

/-! ### One more child -/

/-- The listing of a ticket depends on where it is stored as a child only. -/
theorem find?_candidates_congr {σ' : Mill} {tid : TicketId}
    (h : ∀ b, isChildOn σ' parent_id tid b = isChildOn σ parent_id tid b) :
    (collectCandidateBoards env svc σ').find? (isChildOn σ' parent_id tid) =
      (collectCandidateBoards env svc σ).find? (isChildOn σ parent_id tid) := by
  have hfun : isChildOn σ' parent_id tid = isChildOn σ parent_id tid := funext h
  have hdir : ∀ {σ₀ : Mill} {b : BoardId}, isChildOn σ₀ parent_id tid b = true → b ∈ boardDirs env σ₀ := by
    intro σ₀ b hb
    obtain ⟨r, hget, -⟩ := isChildOn_iff.1 hb
    exact mem_boardDirs_of_hasTicket (hasTicket_iff.2 ⟨r, hget⟩)
  have hdirs : (boardDirs env σ').find? (isChildOn σ parent_id tid) =
      (boardDirs env σ).find? (isChildOn σ parent_id tid) := by
    have hrefl : ∀ a, env.dirLe a a = true := fun a => (env.dirLe_total a a).elim id id
    refine find?_congr_of_sorted hrefl env.dirLe_antisymm (boardDirs_sorted σ') (boardDirs_sorted σ) ?_
    intro b hb
    exact ⟨fun _ => hdir hb, fun _ => hdir ((h b).trans hb)⟩
  unfold collectCandidateBoards
  rw [hfun]
  simp only [find?_eraseDups, List.find?_append, hdirs]

theorem isChildOn_congr {σ' : Mill} {tid : TicketId} {board : BoardId}
    (h : σ'.records.get (board, tid) = σ.records.get (board, tid)) :
    isChildOn σ' parent_id tid board = isChildOn σ parent_id tid board := by
  unfold isChildOn
  rw [h]

/-- A child filed on the bound board is listed as it was filed, and beside it nothing that was not listed before. -/
theorem mem_listChildren_put {σ' : Mill} {tid : TicketId} {new : TicketRecord} (hsvc : svc ≠ "")
    (hrec : σ'.records = σ.records.put (svc, tid) new) (hparent : new.ticket.parentId = some parent_id) {k : Key}
    {r : TicketRecord} (h : (k, r) ∈ listChildrenAcrossBoards env svc parent_id σ') :
    (k = (svc, tid) ∧ r = new) ∨ (k.2 ≠ tid ∧ (k, r) ∈ listChildrenAcrossBoards env svc parent_id σ) := by
  obtain ⟨hfind, hget⟩ := mem_listChildren_iff.1 h
  obtain ⟨board, id⟩ := k
  have hother : ∀ b, id ≠ tid → σ'.records.get (b, id) = σ.records.get (b, id) := by
    intro b hne
    rw [hrec]
    exact Table.get_put_ne _ _ fun heq => hne (congrArg Prod.snd heq)
  by_cases hid : id = tid
  · -- the bound board comes first
    subst hid
    have hnew : σ'.records.get (svc, id) = some new := by
      rw [hrec]
      exact Table.get_put_self _ _ _
    have hchild : isChildOn σ' parent_id id svc = true := isChildOn_iff.2 ⟨new, hnew, hparent⟩
    have hfirst : (collectCandidateBoards env svc σ').find? (isChildOn σ' parent_id id) = some svc := by
      unfold collectCandidateBoards
      dsimp only
      rw [find?_eraseDups, if_neg hsvc, List.append_assoc, List.singleton_append, List.find?_cons_of_pos hchild]
    obtain rfl : svc = board := Option.some.inj (hfirst.symm.trans hfind)
    exact .inl ⟨rfl, Option.some.inj (hget.symm.trans hnew)⟩
  · refine .inr ⟨hid, mem_listChildren_iff.2 ⟨?_, (hother board hid).symm.trans hget⟩⟩
    rw [← find?_candidates_congr fun b => isChildOn_congr (hother b hid)]
    exact hfind

end Listed

/-! ## The calls that file no child -/

/-- `set_title`. -/
def setTitle (tid : TicketId) (title : String) (σ : Mill) : Result Unit :=
  match fetch env svc σ tid with
  | .error e => (σ, .error e)
  | .ok (k, r) =>
    ((σ.putRecord k { r with ticket := { r.ticket with title := title, updatedAt := σ.now env 0 } }).tick, .ok ())

/-- `set_content_hash`; the hash itself is not part of the row here. -/
def setContentHash (tid : TicketId) (σ : Mill) : Result Unit :=
  match fetch env svc σ tid with
  | .error e => (σ, .error e)
  | .ok (k, r) => ((σ.putRecord k { r with ticket := { r.ticket with updatedAt := σ.now env 0 } }).tick, .ok ())

/-- A call of the service, or a write to a ticket's directory. -/
inductive Call
  | op (op : Op)
  | setParent (svc : BoardId) (tid parent_id : TicketId)
  | setTitle (svc : BoardId) (tid : TicketId) (title : String)
  | setContentHash (svc : BoardId) (tid : TicketId)
  | editWorkspace (k : Key) (f : Workspace → Workspace)

/-- The state a call leaves behind. -/
def Call.run (σ : Mill) : Call → Mill
  | .op call => (call.run env σ).1
  | .setParent svc tid parent_id => (Service.setParent env svc tid parent_id σ).1
  | .setTitle svc tid title => (Service.setTitle env svc tid title σ).1
  | .setContentHash svc tid => (Service.setContentHash env svc tid σ).1
  | .editWorkspace k f => σ.editWorkspace k f

/-- Does the call file a child under the ticket, or link one to it? -/
def Call.filesUnder (parent_id : TicketId) : Call → Bool
  | .op (.create _ args) => decide (args.parentId = some parent_id)
  | .setParent _ _ parent => decide (parent = parent_id)
  | _ => false

section Calls

variable {env svc} {σ : Mill} {parent_id : TicketId}

/-- If the record is a child, it is one of those. -/
def ChildIn (parent_id : TicketId) (ids : Finset TicketId) (k : Key) (r : TicketRecord) : Prop :=
  r.ticket.parentId = some parent_id → k.2 ∈ ids

theorem childIds_subset {ids : Finset TicketId} (h : σ.records.AllRows (ChildIn parent_id ids)) :
    childIds σ parent_id ⊆ ids := by
  intro tid htid
  obtain ⟨board, r, hget, hparent⟩ := mem_childIds.1 htid
  exact h _ r hget hparent

theorem allRows_childIn (σ : Mill) (parent_id : TicketId) :
    σ.records.AllRows (ChildIn parent_id (childIds σ parent_id)) :=
  fun k r hget hparent => mem_childIds.2 ⟨k.1, r, hget, hparent⟩

/-- The commits of all calls but `create`. -/
def noCreate : Commit → Prop
  | .create _ _ => False
  | _ => True

/-- No session writes the parent link. -/
theorem parentId_apply (tid : TicketId) (r : TicketRecord) (c : Change) :
    (c.apply tid r).ticket.parentId = r.ticket.parentId := by
  cases c with
  | purgeEvents cap => rw [show (Change.apply tid r (.purgeEvents cap)) = purgeEventsRecord cap r from rfl,
      (purgeEventsRecord_keeps cap r).1]
  | _ => rfl

theorem stable_childIn (ids : Finset TicketId) : Stable noCreate (ChildIn parent_id ids) where
  create _ _ h := h.elim
  change k r c _ _ h hparent := h ((parentId_apply k.2 r c).symm.trans hparent)
  copy src dst r now note cs _ hid h hparent := by
    rw [hid]
    exact h hparent

theorem routine_noCreate : Routine noCreate where
  delete _ := trivial
  unblock _ _ _ _ := trivial
  answerUnblock _ _ _ _ := trivial
  comments _ _ _ _ := trivial

theorem admits_noCreate {op : Op} (h : ∀ svc args, op ≠ .create svc args) : Admits noCreate env σ op := by
  cases op with
  | create svc args => exact absurd rfl (h svc args)
  | transition svc tid dst note reason => exact fun _ _ _ _ _ _ => trivial
  | resumeBlocked svc tid note => exact fun _ _ _ _ _ _ _ _ => trivial
  | requestChanges svc tid body author => exact fun _ _ _ _ _ => trivial
  | requestImplementationChanges svc tid body author => exact fun _ _ _ _ _ => trivial
  | redraft svc tid body => exact fun _ _ _ _ _ _ _ _ => trivial
  | markDone svc tid note author => exact fun _ _ _ _ _ _ _ _ => trivial
  | closeTracker svc tid note => exact fun _ _ _ _ => trivial
  | migrate svc tid target note => exact fun _ _ _ _ _ _ _ _ _ _ _ _ => trivial
  | addComment svc tid body author pid => exact fun _ _ _ _ _ _ => trivial
  | closeThread svc cid tid => exact fun _ _ _ _ _ _ => trivial
  | answerPendingQuestion svc tid body author change =>
      exact ⟨fun _ _ _ _ _ _ _ => trivial, fun _ _ _ _ _ _ => trivial⟩
  | addHistoryNote svc tid note => exact fun _ _ _ _ => trivial
  | addStepEvent svc tid note => exact fun _ _ _ _ => trivial
  | purgeTicketEvents svc tid => exact fun _ _ _ => trivial

/-- What `create` does to the records: nothing, or the one row it files. -/
theorem create_cases (args : CreateArgs) (σ : Mill) :
    ((create env svc args σ).1.records = σ.records ∧ (create env svc args σ).2 ≠ .ok ()) ∨
    (σ.records.get (args.boardId.getD svc, args.id) = none ∧ args.boardId.getD svc ≠ "" ∧
      (create env svc args σ).2 = .ok () ∧ ∃ inherited,
      (create env svc args σ).1.records = σ.records.put (args.boardId.getD svc, args.id)
        (createRecord (σ.now env) args inherited)) := by
  unfold create
  dsimp only
  cases hrefuse : createRefusal env svc (args.boardId.getD svc) args σ with
  | some e => exact .inl ⟨rfl, fun h => by cases h⟩
  | none =>
    have hboard : args.boardId.getD svc ≠ "" := by
      intro hempty
      unfold createRefusal at hrefuse
      rw [if_pos hempty] at hrefuse
      split at hrefuse
      · cases hrefuse
      · split at hrefuse
        · cases hrefuse
        · split at hrefuse <;> cases hrefuse
    dsimp only
    cases hget : σ.records.get (args.boardId.getD svc, args.id) with
    | some r => exact .inl ⟨rfl, fun h => by cases h⟩
    | none => exact .inr ⟨rfl, hboard, rfl, _, rfl⟩

theorem allRows_create {P : Key → TicketRecord → Prop} (args : CreateArgs) (h : σ.records.AllRows P)
    (hnew : ∀ now inherited, P (args.boardId.getD svc, args.id) (createRecord now args inherited)) :
    (create env svc args σ).1.records.AllRows P := by
  obtain ⟨hsame, -⟩ | ⟨-, -, -, inherited, hput⟩ := @create_cases env svc args σ
  · rw [hsame]
    exact h
  · rw [hput]
    exact h.put (hnew _ _)

/-- A session that leaves the parent link. -/
theorem allRows_putRecord {k : Key} {r r' : TicketRecord} {ids : Finset TicketId}
    (h : σ.records.AllRows (ChildIn parent_id ids)) (hget : σ.records.get k = some r)
    (hparent : r'.ticket.parentId = r.ticket.parentId) :
    (σ.putRecord k r').records.AllRows (ChildIn parent_id ids) := by
  rw [records_putRecord]
  refine h.put fun hchild => ?_
  exact h k r hget (hparent.symm.trans hchild)

/-- **What files no child leaves no new one.** -/
theorem childIds_call {call : Call} (h : call.filesUnder parent_id = false) :
    childIds (call.run env σ) parent_id ⊆ childIds σ parent_id := by
  refine childIds_subset ?_
  have hall := allRows_childIn σ parent_id
  cases call with
  | op op =>
    by_cases hcreate : ∃ svc args, op = .create svc args
    · obtain ⟨svc, args, rfl⟩ := hcreate
      have hne : args.parentId ≠ some parent_id := of_decide_eq_false h
      exact allRows_create args hall fun _ _ hparent => absurd hparent hne
    · exact records_invariant_op routine_noCreate (stable_childIn _)
        (admits_noCreate fun svc args heq => hcreate ⟨svc, args, heq⟩) hall rfl
  | setParent svc tid parent =>
    show (Service.setParent env svc tid parent σ).1.records.AllRows _
    unfold Service.setParent
    cases hf : fetch env svc σ tid with
    | error e => exact hall
    | ok kr =>
      have hne : parent ≠ parent_id := of_decide_eq_false h
      exact hall.put fun hchild => absurd (Option.some.inj hchild) hne
  | setTitle svc tid title =>
    show (Service.setTitle env svc tid title σ).1.records.AllRows _
    unfold Service.setTitle
    cases hf : fetch env svc σ tid with
    | error e => exact hall
    | ok kr => exact allRows_putRecord hall (get_of_fetch hf).2 rfl
  | setContentHash svc tid =>
    show (Service.setContentHash env svc tid σ).1.records.AllRows _
    unfold Service.setContentHash
    cases hf : fetch env svc σ tid with
    | error e => exact hall
    | ok kr => exact allRows_putRecord hall (get_of_fetch hf).2 rfl
  | editWorkspace k f => exact hall

end Calls

end Service
end RobotsixMill
