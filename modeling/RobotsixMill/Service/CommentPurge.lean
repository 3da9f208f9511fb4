import RobotsixMill.Service.Runs
import RobotsixMill.Lib.Ancestors

/-!
# `Service.CommentPurge` — the retention purge of a ticket's comments

`_maybe_purge_ticket_comments` deletes the oldest comments outside open threads once a ticket has more
than the cap. Membership in an open thread is a walk up the parent links (`isProtected`), which decides
`InOpenThread`. A surviving reply to a deleted comment loses its parent; whether the set of open
top-level comments survives the purge depends on whether there is such a reply
(`comment_purge_open_threads`).
-/

namespace RobotsixMill
namespace Service
open RobotsixMill.Core Lib

/-! ## The purge -/

/-- A top-level comment that is not closed. -/
def isOpenRoot (c : Comment) : Bool := c.parentId.isNone && c.closedAt.isNone

/-- `open_root_ids`. -/
def openRootIds (cs : List Comment) : List CommentId := (cs.filter isOpenRoot).map Comment.id

/-- The `parent_id` of a loaded comment. -/
def parentOf (cs : List Comment) (cid : CommentId) : Option CommentId :=
  (cs.find? fun c => c.id = cid).bind Comment.parentId

/-- Is the comment in `protected_ids`? -/
def isProtected (cs : List Comment) (c : Comment) : Bool :=
  decide (c.id ∈ openRootIds cs) ||
    climb (parentOf cs) (fun i => decide (i ∈ openRootIds cs)) (cs.length + 1) [c.id] c.parentId

/-- The comments the purge may delete, oldest first. -/
def unprotected (cs : List Comment) : List Comment := cs.filter fun c => !isProtected cs c

/-- The comments it deletes. -/
def purgedComments (cap : Nat) (cs : List Comment) : List Comment :=
  (unprotected cs).take (cs.length - cap)

/-- A reply to a deleted comment becomes top-level. -/
def reparent (deletedIds : List CommentId) (c : Comment) : Comment :=
  match c.parentId with
  | none => c
  | some p => if p ∈ deletedIds then { c with parentId := none } else c

/-- The comments that survive. -/
def purgeComments (cap : Nat) (cs : List Comment) : List Comment :=
  let deleted_ids := (purgedComments cap cs).map Comment.id
  (cs.filter fun c => !decide (c.id ∈ deleted_ids)).map (reparent deleted_ids)

/-- `_maybe_purge_ticket_comments`, on the bound board; returns the number of deleted rows. -/
def maybePurgeTicketComments (env : Env) (svc : BoardId) (tid : TicketId) (σ : Mill) : Result Nat :=
  let max_comments := env.settings.maxCommentsPerTicket
  if max_comments = 0 then (σ, .ok 0)
  else if svc = "" then (σ, .error (.valueError "db._db_path: board_id is required"))
  else
    match σ.records.get (svc, tid) with
    | none => (σ, .ok 0)
    | some r =>
      if r.comments.length ≤ max_comments then (σ, .ok 0)
      else
        (σ.putRecord (svc, tid) { r with comments := purgeComments max_comments r.comments },
          .ok (purgedComments max_comments r.comments).length)

/-! ## Open threads -/

/-- The comment is an open top-level comment, or a reply below one. -/
inductive InOpenThread (cs : List Comment) : Comment → Prop
  | root {c : Comment} : c ∈ cs → c.parentId = none → c.closedAt = none → InOpenThread cs c
  | reply {c p : Comment} : c ∈ cs → c.parentId = some p.id → InOpenThread cs p → InOpenThread cs c

variable {cs : List Comment} {c : Comment}

/-- Rows are loaded in the order of their primary key. -/
def IdOrdered (cs : List Comment) : Prop := cs.Pairwise fun a b => a.id < b.id

/-- A comment is determined by its id. -/
theorem IdOrdered.eq_of_id (hids : IdOrdered cs) {a b : Comment} (ha : a ∈ cs) (hb : b ∈ cs)
    (hab : a.id = b.id) : a = b := by
  induction cs with
  | nil => cases ha
  | cons x cs ih =>
      obtain ⟨hx, hcs⟩ := List.pairwise_cons.1 hids
      rcases List.mem_cons.1 ha with rfl | ha'
      · rcases List.mem_cons.1 hb with rfl | hb'
        · rfl
        · exact absurd (hab ▸ hx b hb') (Nat.lt_irrefl _)
      · rcases List.mem_cons.1 hb with rfl | hb'
        · exact absurd (hab ▸ hx a ha') (Nat.lt_irrefl _)
        · exact ih hcs ha' hb'

theorem find_of_mem (hids : IdOrdered cs) (hc : c ∈ cs) :
    (cs.find? fun d => d.id = c.id) = some c := by
  cases hf : cs.find? fun d => decide (d.id = c.id) with
  | none =>
      have := List.find?_eq_none.1 hf c hc
      simp at this
  | some d =>
      have hid : d.id = c.id := by simpa using List.find?_some hf
      rw [hids.eq_of_id (List.mem_of_find?_eq_some hf) hc hid]

theorem parentOf_eq (hids : IdOrdered cs) (hc : c ∈ cs) : parentOf cs c.id = c.parentId := by
  simp [parentOf, find_of_mem hids hc]

theorem mem_openRootIds (hids : IdOrdered cs) (hc : c ∈ cs) :
    c.id ∈ openRootIds cs ↔ c.parentId = none ∧ c.closedAt = none := by
  simp only [openRootIds, List.mem_map, List.mem_filter, isOpenRoot, Bool.and_eq_true,
    Option.isNone_iff_eq_none]
  constructor
  · rintro ⟨d, ⟨hd, hroot⟩, hid⟩
    rwa [hids.eq_of_id hd hc hid] at hroot
  · intro hroot
    exact ⟨c, ⟨hc, hroot⟩, rfl⟩

/-- What the walk looks for, as a property of ids. -/
abbrev ClimbsToOpenRoot (cs : List Comment) (i : CommentId) : Prop :=
  Climbs (parentOf cs) (fun i => decide (i ∈ openRootIds cs)) i

theorem climbs_of_inOpenThread (hids : IdOrdered cs) (h : InOpenThread cs c) :
    ClimbsToOpenRoot cs c.id := by
  induction h with
  | root hc hp hcl => exact ⟨0, .here (by simpa using (mem_openRootIds hids hc).2 ⟨hp, hcl⟩)⟩
  | @reply c p hc hp _ ih =>
      by_cases hg : c.id ∈ openRootIds cs
      · exact ⟨0, .here (by simpa using hg)⟩
      · obtain ⟨n, hn⟩ := ih
        exact ⟨n + 1, .up (by simpa using hg) ((parentOf_eq hids hc).trans hp) hn⟩

theorem inOpenThread_of_climbsIn (hids : IdOrdered cs) {n : Nat} {i : CommentId}
    (h : ClimbsIn (parentOf cs) (fun i => decide (i ∈ openRootIds cs)) n i) :
    ∃ d ∈ cs, d.id = i ∧ InOpenThread cs d := by
  induction h with
  | @here i hg =>
      have hg' : i ∈ openRootIds cs := by simpa using hg
      obtain ⟨d, hd, hid⟩ := List.mem_map.1 hg'
      have hdcs := (List.mem_filter.1 hd).1
      rw [← hid] at hg'
      obtain ⟨hp, hcl⟩ := (mem_openRootIds hids hdcs).1 hg'
      exact ⟨d, hdcs, hid, .root hdcs hp hcl⟩
  | up _ hp _ ih =>
      obtain ⟨p, _, rfl, hpo⟩ := ih
      unfold parentOf at hp
      obtain ⟨d, hd, hdp⟩ := Option.bind_eq_some_iff.1 hp
      have hdcs := List.mem_of_find?_eq_some hd
      exact ⟨d, hdcs, by simpa using List.find?_some hd, .reply hdcs hdp hpo⟩

/-- **The walk decides membership in an open thread.** -/
theorem isProtected_iff (hids : IdOrdered cs) (hc : c ∈ cs) :
    isProtected cs c = true ↔ InOpenThread cs c := by
  have hback : ClimbsToOpenRoot cs c.id → InOpenThread cs c := by
    rintro ⟨n, hn⟩
    obtain ⟨d, hd, hid, ho⟩ := inOpenThread_of_climbsIn hids hn
    rwa [hids.eq_of_id hd hc hid] at ho
  unfold isProtected
  constructor
  · intro h
    rcases Bool.or_eq_true_iff.1 h with hg | hwalk
    · exact hback ⟨0, .here hg⟩
    · by_cases hg : c.id ∈ openRootIds cs
      · exact hback ⟨0, .here (by simpa using hg)⟩
      · cases hp : c.parentId with
        | none => rw [hp] at hwalk; cases hwalk
        | some p =>
            rw [hp] at hwalk
            obtain ⟨n, hn⟩ := climbs_of_climb hwalk
            exact hback ⟨n + 1, .up (by simpa using hg) ((parentOf_eq hids hc).trans hp) hn⟩
  · intro h
    obtain ⟨n, hn⟩ := climbs_of_inOpenThread hids h
    rw [Bool.or_eq_true_iff]
    cases hn with
    | here hg => exact .inl hg
    | @up n _ p hg hp hn =>
        refine .inr ?_
        rw [← parentOf_eq hids hc, hp]
        have hS : ∀ x, parentOf cs x ≠ none → x ∈ cs.map Comment.id := by
          intro x hx
          obtain ⟨y, hy⟩ := Option.ne_none_iff_exists'.1 hx
          obtain ⟨d, hd, -⟩ := Option.bind_eq_some_iff.1 hy
          exact List.mem_map.2 ⟨d, List.mem_of_find?_eq_some hd, by simpa using List.find?_some hd⟩
        have hwalk := climb_of_climbs hS hg hp ⟨n, hn⟩
        rwa [List.length_map] at hwalk

theorem mem_unprotected (hids : IdOrdered cs) :
    c ∈ unprotected cs ↔ c ∈ cs ∧ ¬ InOpenThread cs c := by
  unfold unprotected
  rw [List.mem_filter]
  constructor
  · rintro ⟨hc, hp⟩
    refine ⟨hc, fun ho => ?_⟩
    rw [(isProtected_iff hids hc).2 ho] at hp
    cases hp
  · rintro ⟨hc, hno⟩
    refine ⟨hc, ?_⟩
    by_contra hp
    exact hno ((isProtected_iff hids hc).1 (by simpa using hp))

/-! ## What the purge leaves -/

variable {cap : Nat}

theorem mem_of_mem_purgedComments (h : c ∈ purgedComments cap cs) : c ∈ unprotected cs :=
  List.mem_of_mem_take h

theorem mem_purgedIds (hids : IdOrdered cs) (hc : c ∈ cs) :
    c.id ∈ (purgedComments cap cs).map Comment.id ↔ c ∈ purgedComments cap cs := by
  constructor
  · intro h
    obtain ⟨d, hd, hid⟩ := List.mem_map.1 h
    have hdcs : d ∈ cs := (List.mem_filter.1 (mem_of_mem_purgedComments hd)).1
    rwa [hids.eq_of_id hdcs hc hid] at hd
  · intro h
    exact List.mem_map.2 ⟨c, h, rfl⟩

theorem mem_purgeComments (hids : IdOrdered cs) {c' : Comment} :
    c' ∈ purgeComments cap cs ↔ ∃ c ∈ cs, c ∉ purgedComments cap cs ∧
      reparent ((purgedComments cap cs).map Comment.id) c = c' := by
  simp only [purgeComments, List.mem_map, List.mem_filter]
  constructor
  · rintro ⟨c, ⟨hc, hkeep⟩, rfl⟩
    refine ⟨c, hc, ?_, rfl⟩
    rw [← mem_purgedIds hids hc]
    simpa using hkeep
  · rintro ⟨c, hc, hkeep, rfl⟩
    refine ⟨c, ⟨hc, ?_⟩, rfl⟩
    rw [← mem_purgedIds hids hc] at hkeep
    simpa using hkeep

@[simp] theorem reparent_id (ids : List CommentId) (c : Comment) : (reparent ids c).id = c.id := by
  unfold reparent
  split
  · rfl
  · split <;> rfl

@[simp] theorem reparent_closedAt (ids : List CommentId) (c : Comment) :
    (reparent ids c).closedAt = c.closedAt := by
  unfold reparent
  split
  · rfl
  · split <;> rfl

/-- A comment is top-level after the purge if it was, or if its parent is deleted. -/
theorem reparent_parentId_eq_none {ids : List CommentId} :
    (reparent ids c).parentId = none ↔ c.parentId = none ∨ ∃ p ∈ ids, c.parentId = some p := by
  unfold reparent
  cases hp : c.parentId with
  | none => simp [hp]
  | some p =>
      dsimp only
      by_cases hmem : p ∈ ids
      · simp [hmem]
      · rw [if_neg hmem, hp]
        simp [hmem]

/-- `i` is the id of an open top-level comment. -/
def OpenRoot (cs : List Comment) (i : CommentId) : Prop :=
  ∃ c ∈ cs, c.parentId = none ∧ c.closedAt = none ∧ c.id = i

/-- No deletion stops between a comment and a reply to it that is not closed itself. -/
def DeletesReplies (cap : Nat) (cs : List Comment) : Prop :=
  ∀ c ∈ cs, ∀ p ∈ purgedComments cap cs, c.parentId = some p.id → c.closedAt = none →
    c ∈ purgedComments cap cs

/-- **When the open threads survive.** -/
theorem openRoot_purgeComments_iff (hids : IdOrdered cs) :
    (∀ i, OpenRoot (purgeComments cap cs) i ↔ OpenRoot cs i) ↔ DeletesReplies cap cs := by
  constructor
  · intro h c hc p hp hpar hcl
    by_contra hkeep
    -- the surviving reply would be a new open thread
    have hroot : OpenRoot (purgeComments cap cs) c.id := by
      refine ⟨_, (mem_purgeComments hids).2 ⟨c, hc, hkeep, rfl⟩, ?_, ?_, ?_⟩
      · exact reparent_parentId_eq_none.2 (.inr ⟨p.id, List.mem_map.2 ⟨p, hp, rfl⟩, hpar⟩)
      · rw [reparent_closedAt, hcl]
      · rw [reparent_id]
    obtain ⟨d, hd, hdp, -, hid⟩ := (h c.id).1 hroot
    rw [hids.eq_of_id hd hc hid, hpar] at hdp
    cases hdp
  · intro h i
    constructor
    · rintro ⟨c', hc', hpar, hcl, rfl⟩
      obtain ⟨c, hc, hkeep, rfl⟩ := (mem_purgeComments hids).1 hc'
      rw [reparent_closedAt] at hcl
      rcases reparent_parentId_eq_none.1 hpar with hpar | ⟨q, hq, hpar⟩
      · exact ⟨c, hc, hpar, hcl, (reparent_id _ _).symm⟩
      · obtain ⟨p, hp, rfl⟩ := List.mem_map.1 hq
        exact absurd (h c hc p hp hpar hcl) hkeep
    · rintro ⟨c, hc, hpar, hcl, rfl⟩
      have hkeep : c ∉ purgedComments cap cs := by
        intro hpurged
        exact ((mem_unprotected hids).1 (mem_of_mem_purgedComments hpurged)).2 (.root hc hpar hcl)
      refine ⟨_, (mem_purgeComments hids).2 ⟨c, hc, hkeep, rfl⟩, ?_, ?_, reparent_id _ _⟩
      · exact reparent_parentId_eq_none.2 (.inl hpar)
      · rw [reparent_closedAt, hcl]

/-- Under the cap nothing is deleted. -/
theorem purgedComments_of_le (h : cs.length ≤ cap) : purgedComments cap cs = [] := by
  unfold purgedComments
  rw [Nat.sub_eq_zero_of_le h, List.take_zero]

theorem purgeComments_of_le (h : cs.length ≤ cap) : purgeComments cap cs = cs := by
  unfold purgeComments
  rw [purgedComments_of_le h]
  have hmap : reparent [] = id := by
    funext c
    unfold reparent
    cases c.parentId <;> simp
  simp [hmap]

/-- What the call returns and stores. -/
theorem maybePurgeTicketComments_eq {env : Env} {svc : BoardId} {tid : TicketId} {σ : Mill}
    {r : TicketRecord} (hsvc : svc ≠ "") (hcap : 0 < env.settings.maxCommentsPerTicket)
    (hget : σ.records.get (svc, tid) = some r) :
    (maybePurgeTicketComments env svc tid σ).1.records.get (svc, tid) =
      some { r with comments := purgeComments env.settings.maxCommentsPerTicket r.comments } ∧
    (maybePurgeTicketComments env svc tid σ).2 =
      .ok (purgedComments env.settings.maxCommentsPerTicket r.comments).length := by
  have h0 : env.settings.maxCommentsPerTicket ≠ 0 := by omega
  unfold maybePurgeTicketComments
  dsimp only
  rw [if_neg h0, if_neg hsvc, hget]
  dsimp only
  by_cases hle : r.comments.length ≤ env.settings.maxCommentsPerTicket
  · rw [if_pos hle, purgeComments_of_le hle, purgedComments_of_le hle]
    exact ⟨hget, rfl⟩
  · rw [if_neg hle]
    exact ⟨by simp, rfl⟩

/-- **The comment purge.** It deletes the oldest comments outside open threads, as many as exceed the cap
    or as there are, and none inside an open thread. The open top-level comments are the same afterwards
    exactly when every reply to a deleted comment that is not closed itself is deleted too. -/
theorem comment_purge_open_threads {env : Env} {svc : BoardId} {tid : TicketId} {σ : Mill}
    {r : TicketRecord} (hsvc : svc ≠ "") (hcap : 0 < env.settings.maxCommentsPerTicket)
    (hget : σ.records.get (svc, tid) = some r) (hids : IdOrdered r.comments) :
    ∃ (r' : TicketRecord) (loose deleted : List Comment),
      (maybePurgeTicketComments env svc tid σ).1.records.get (svc, tid) = some r' ∧
      (maybePurgeTicketComments env svc tid σ).2 = .ok deleted.length ∧
      loose.Sublist r.comments ∧ (∀ c, c ∈ loose ↔ c ∈ r.comments ∧ ¬ InOpenThread r.comments c) ∧
      deleted = loose.take (r.comments.length - env.settings.maxCommentsPerTicket) ∧
      deleted.length = min (r.comments.length - env.settings.maxCommentsPerTicket) loose.length ∧
      (∀ c ∈ r.comments, InOpenThread r.comments c → c ∉ deleted) ∧
      (∀ i, (∃ c' ∈ r'.comments, c'.id = i) ↔ ∃ c ∈ r.comments, c ∉ deleted ∧ c.id = i) ∧
      ((∀ i, OpenRoot r'.comments i ↔ OpenRoot r.comments i) ↔
        ∀ c ∈ r.comments, ∀ p ∈ deleted, c.parentId = some p.id → c.closedAt = none → c ∈ deleted) := by
  obtain ⟨hrec, hres⟩ := maybePurgeTicketComments_eq hsvc hcap hget
  refine ⟨_, unprotected r.comments, purgedComments _ r.comments, hrec, hres, ?_, ?_, rfl, ?_, ?_, ?_,
    openRoot_purgeComments_iff hids⟩
  · exact List.filter_sublist
  · intro c
    exact mem_unprotected hids
  · exact List.length_take
  · intro c _ ho hpurged
    exact ((mem_unprotected hids).1 (mem_of_mem_purgedComments hpurged)).2 ho
  · intro i
    constructor
    · rintro ⟨c', hc', rfl⟩
      obtain ⟨c, hc, hkeep, rfl⟩ := (mem_purgeComments hids).1 hc'
      exact ⟨c, hc, hkeep, (reparent_id _ _).symm⟩
    · rintro ⟨c, hc, hkeep, rfl⟩
      exact ⟨_, (mem_purgeComments hids).2 ⟨c, hc, hkeep, rfl⟩, reparent_id _ _⟩

/-- With a cap of two comments. -/
def Env.cappedComments : Env := { Env.standalone with settings := { maxCommentsPerTicket := 2 } }

/-- A closed question, the reply that was given to it, and an open thread. -/
def answeredThread : List Comment :=
  [{ id := 1, body := "why?", closedAt := some 20, createdAt := 10 },
    { id := 2, body := "because", parentId := some 1, createdAt := 15 },
    { id := 3, body := "next?", createdAt := 30 }]

theorem comment_purge_answered_thread :
    ∃ (r' : TicketRecord) (deleted : List Comment),
      (maybePurgeTicketComments .cappedComments "board" "t-1"
        (Mill.empty.putRecord ("board", "t-1")
          ⟨{ title := "ticket", state := .draft, createdAt := 0, updatedAt := 0 }, [],
            answeredThread⟩)).1.records.get ("board", "t-1") = some r' ∧
      deleted.length = 1 ∧
      ((∀ i, OpenRoot r'.comments i ↔ OpenRoot answeredThread i) ↔
        ∀ c ∈ answeredThread, ∀ p ∈ deleted, c.parentId = some p.id → c.closedAt = none →
          c ∈ deleted) := by
  obtain ⟨r', loose, deleted, hrec, -, -, hloose, -, hlen, -, -, hiff⟩ :=
    @comment_purge_open_threads .cappedComments "board" "t-1"
      (Mill.empty.putRecord ("board", "t-1")
        ⟨{ title := "ticket", state := .draft, createdAt := 0, updatedAt := 0 }, [], answeredThread⟩)
      _ (by decide) (by decide) (Table.get_put_self _ _ _) (by unfold IdOrdered; decide)
  refine ⟨r', deleted, hrec, ?_, hiff⟩
  -- the closed question belongs to no open thread
  have hmem : answeredThread.head (by decide) ∈ loose := by
    refine (hloose _).2 ⟨by decide, fun ho => ?_⟩
    cases ho with
    | root _ _ hcl => cases hcl
    | reply _ hp _ => cases hp
  have hpos : 1 ≤ loose.length := List.length_pos_of_mem hmem
  rw [hlen]
  exact Nat.min_eq_left hpos

/-- A reply to a closed question, cut off from it by the purge, becomes an open thread. -/
def cutReplyRun : List Op :=
  [.create "board" { id := "t-1", title := "ticket" },
    .addComment "board" "t-1" "why?" "user" none,
    .addComment "board" "t-1" "[ASK_USER] why not?" "agent" (some 1),
    .closeThread "board" 1 none,
    .addComment "board" "t-1" "next?" "user" none]

theorem comment_purge_opens_reply :
    let σ := runOps .cappedComments .empty cutReplyRun
    let σ' := (maybePurgeTicketComments .cappedComments "board" "t-1" σ).1
    (σ.records.get ("board", "t-1")).map (fun r => openRootIds r.comments) = some [3] ∧
    (σ'.records.get ("board", "t-1")).map (fun r => openRootIds r.comments) = some [2, 3] ∧
    (σ'.records.get ("board", "t-1")).map (fun r => (openAskUserThreads r.comments).length) =
      some 1 := by
  decide +kernel

end Service
end RobotsixMill
