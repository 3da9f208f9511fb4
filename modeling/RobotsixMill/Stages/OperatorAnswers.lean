import RobotsixMill.Stages.Pause
import RobotsixMill.Lib.Runs

/-!
# `Stages.OperatorAnswers` — what a resumed agent is told the operator said

Nothing in a comment row says whether a human wrote it. `add_comment` closes the question that any reply
answers, whoever writes it; the acknowledgement after a run answers and closes the threads it was given, an
open question among them, under the default author; and `_collect_ask_user_replies` hands on every reply of a
closed question.

- `Discussion.Right` — what an event should leave: machines close no question, only humans' replies are
  handed on, and no human's reply is missing from the text of a resume.
- `Discussion.Sound` — when it does, told by the event and the discussion before it.
- `right_iff_sound` — the two agree, event by event.
-/

namespace RobotsixMill
namespace Stages
open RobotsixMill.Core Lib Service

namespace Discussion

/-! ## What should hold -/

/-- The open questions. -/
def openQuestions (s : Discussion) : List Comment :=
  s.record.comments.filter fun c => isQuestion c && c.closedAt.isNone

/-- Every reply to `q` that says something is a human's. -/
def HumanReplies (s : Discussion) (q : Comment) : Prop :=
  ∀ c ∈ s.record.comments, c.parentId = some q.id → c.body ≠ "" → c.id ∈ s.humanIds

/-- The text a resume would be handed now shows humans' replies only. -/
structure Authentic (s : Discussion) : Prop where
  shows : Shows (collectAskUserReplies (some (oldestFirst s.record))) (handedReplies (some (oldestFirst s.record)))
  humans : ∀ c ∈ handedReplies (some (oldestFirst s.record)), c.id ∈ s.humanIds

/-- No question is closed on the way to `t`. -/
def KeepsOpen (s t : Discussion) : Prop := ∀ q ∈ s.openQuestions, q ∈ t.openQuestions

/-- What a resume lists; `none` if `list_comments` raises. -/
def listing (s : Discussion) (listed : Bool) : Option (List Comment) := if listed then some (oldestFirst s.record) else none

/-- Every human reply to a question is handed on, and stands in the text. -/
def Complete (s : Discussion) (listed : Bool) : Prop :=
  ∀ q ∈ s.record.comments, isQuestion q = true → ∀ c ∈ s.record.comments, c.parentId = some q.id →
    c.body ≠ "" → c.id ∈ s.humanIds →
      c ∈ handedReplies (s.listing listed) ∧ contains (collectAskUserReplies (s.listing listed)) c.body = true

/-- **Authentic answers.** What the event `e` should leave of the discussion `s`. -/
structure Right (clock : Nat → DateTime) (settings : Settings) (s : Discussion) (e : ThreadEvent) : Prop where
  /-- Only a human closes a question. -/
  keepsOpen : e.byMachine = true → s.KeepsOpen (s.perform clock settings e)
  /-- The replies a resume would hand on are humans'. -/
  authentic : (s.perform clock settings e).Authentic
  /-- A resume hands on every human reply. -/
  complete : ∀ listed, e = .resume listed → s.Complete listed

/-! ## When it does -/

/-- `w` may close `q`: a human, on a thread in which no machine replied. -/
def MayClose (s : Discussion) (w : Writer) (q : Comment) : Prop := w = .human ∧ s.HumanReplies q

/-- Would the acknowledgement of `q` close it? Its `close_thread` does unless it raises; so does its reply,
    which is an answer if the ticket is paused. -/
def Acknowledges (s : Discussion) (f : Faults) (q : Comment) : Prop :=
  f.close q.id = false ∨ (f.add q.id = false ∧ (∀ c ∈ s.record.comments, c.parentId ≠ some q.id) ∧
    s.record.ticket.state = .awaitingUserReply)

/-- The condition on an event. -/
def Sound (s : Discussion) : ThreadEvent → Prop
  | .addComment w body _ parentId => ∀ q ∈ s.record.comments, isQuestion q = true → parentId = some q.id →
      (q.closedAt = none → s.record.ticket.state = .awaitingUserReply → s.MayClose w q) ∧
      (w = .machine → body ≠ "" → q.closedAt = none)
  | .closeThread w cid => ∀ q ∈ s.openQuestions, q.id = cid → s.MayClose w q
  | .answer w _ _ requiresChange => answerable s.record.ticket = true →
      ∀ ask, latestOpenThread s.record.comments = some ask →
        ∀ q ∈ s.openQuestions, requiresChange = true ∨ q.id = ask.id → s.MayClose w q
  | .move w dst _ _ => transitionNoop s.record.ticket dst = false →
      transitionRefusal s.ticketId dst s.record = none → closesThreads s.record.ticket dst = true →
        ∀ q ∈ s.openQuestions, s.MayClose w q
  | .resumeBlocked .. | .elsewhere _ | .startRun _ => True
  | .acknowledge f threadIds => f.list = false →
      ∀ q ∈ s.openQuestions, q.id ∈ threadIds → ¬ s.Acknowledges f q
  | .resume listed => ∀ q ∈ s.record.comments, isQuestion q = true → (listed = true → q.closedAt = none) →
      ∀ c ∈ s.record.comments, c.parentId = some q.id → c.body ≠ "" → c.id ∉ s.humanIds

/-! ## Discussions as rows leave them -/

/-- Ids are unique, a reply has its thread, and the human comments are there. -/
structure WellFormed (s : Discussion) : Prop where
  nodup : (s.record.comments.map Comment.id).Nodup
  parents : ∀ c ∈ s.record.comments, ∀ p, c.parentId = some p → ∃ d ∈ s.record.comments, d.id = p
  humans : ∀ id ∈ s.humanIds, ∃ d ∈ s.record.comments, d.id = id

theorem mem_openQuestions {s : Discussion} {q : Comment} :
    q ∈ s.openQuestions ↔ q ∈ s.record.comments ∧ isQuestion q = true ∧ q.closedAt = none := by
  unfold openQuestions
  rw [List.mem_filter, Bool.and_eq_true, Option.isNone_iff_eq_none]

theorem mem_oldestFirst {r : TicketRecord} {c : Comment} : c ∈ oldestFirst r ↔ c ∈ r.comments :=
  List.mem_insertionSort _

/-- The handed replies are those of the closed questions. -/
theorem authentic_iff {s : Discussion} :
    s.Authentic ↔ ∀ q ∈ s.record.comments, isQuestion q = true → q.closedAt ≠ none → s.HumanReplies q := by
  unfold HumanReplies
  constructor
  · intro h q hq hask hclosed c hc hparent hbody
    exact h.humans c (mem_handedReplies.2 ⟨q, mem_oldestFirst.2 hq, hask, Option.isSome_iff_ne_none.2 hclosed,
      mem_oldestFirst.2 hc, hparent, hbody⟩)
  · refine fun h => ⟨shows_collectAskUserReplies _, fun c hc => ?_⟩
    obtain ⟨q, hq, hask, hclosed, hmem, hparent, hbody⟩ := mem_handedReplies.1 hc
    exact h q (mem_oldestFirst.1 hq) hask (Option.isSome_iff_ne_none.1 hclosed) c (mem_oldestFirst.1 hmem)
      hparent hbody

theorem isAskUserThread_of_isQuestion {q : Comment} (h : isQuestion q = true) : isAskUserThread q = true := by
  unfold isQuestion at h
  rw [Bool.and_eq_true] at h
  unfold isAskUserThread
  rw [Bool.and_eq_true]
  exact ⟨h.1, sqlLike_of_isPrefix h.2⟩

@[simp] theorem isQuestion_touched (stamp : Comment → Option DateTime) (c : Comment) :
    isQuestion (touched stamp c) = isQuestion c := rfl

theorem WellFormed.eq_of_id {s : Discussion} (h : s.WellFormed) {c d : Comment} (hc : c ∈ s.record.comments)
    (hd : d ∈ s.record.comments) (hid : c.id = d.id) : c = d :=
  List.inj_on_of_nodup_map h.nodup hc hd hid

theorem WellFormed.find?_eq {s : Discussion} (h : s.WellFormed) {c : Comment} (hc : c ∈ s.record.comments) :
    s.record.comments.find? (fun d => d.id = c.id) = some c := by
  cases hf : s.record.comments.find? (fun d => d.id = c.id) with
  | none =>
    have hno := List.find?_eq_none.1 hf c hc
    simp at hno
  | some d =>
    have hid : d.id = c.id := by simpa using List.find?_some hf
    rw [h.eq_of_id (List.mem_of_find?_eq_some hf) hc hid]

/-! ## Edits -/

/-- What every call does to a discussion: it closes the comments that get a stamp and appends new ones, some
    of them a human's. -/
structure Edit (s t : Discussion) (stamp : Comment → Option DateTime) (new : List Comment)
    (byHuman : List CommentId) : Prop where
  comments : t.record.comments = s.record.comments.map (touched stamp) ++ new
  humanIds : t.humanIds = byHuman ++ s.humanIds
  signed : ∀ id ∈ byHuman, ∃ n ∈ new, n.id = id
  nodup : (new.map Comment.id).Nodup
  fresh : ∀ n ∈ new, ∀ c ∈ s.record.comments, c.id ≠ n.id
  opened : ∀ n ∈ new, n.closedAt = none
  parents : ∀ n ∈ new, ∀ p, n.parentId = some p → ∃ d ∈ s.record.comments, d.id = p

section Edits

variable {s t : Discussion} {stamp : Comment → Option DateTime} {new : List Comment} {byHuman : List CommentId}

/-- An event that leaves comments and writers alone. -/
theorem Edit.same (hc : t.record.comments = s.record.comments) (hh : t.humanIds = s.humanIds) :
    Edit s t (fun _ => none) [] [] where
  comments := by
    rw [hc, List.append_nil]
    exact (List.map_id'' (fun c => touched_of_none rfl) _).symm
  humanIds := hh
  signed := fun _ h => (by cases h)
  nodup := .nil
  fresh := fun _ h => (by cases h)
  opened := fun _ h => (by cases h)
  parents := fun _ h => (by cases h)

theorem Edit.mem (h : Edit s t stamp new byHuman) {c : Comment} :
    c ∈ t.record.comments ↔ (∃ d ∈ s.record.comments, touched stamp d = c) ∨ c ∈ new := by
  rw [h.comments, List.mem_append, List.mem_map]

theorem Edit.wellFormed (h : Edit s t stamp new byHuman) (hs : s.WellFormed) : t.WellFormed where
  nodup := by
    have hids : (s.record.comments.map (touched stamp)).map Comment.id = s.record.comments.map Comment.id := by
      rw [List.map_map]
      rfl
    rw [h.comments, List.map_append, hids]
    refine List.nodup_append.2 ⟨hs.nodup, h.nodup, ?_⟩
    intro id hid id' hid' heq
    obtain ⟨c, hc, rfl⟩ := List.mem_map.1 hid
    obtain ⟨n, hn, rfl⟩ := List.mem_map.1 hid'
    exact h.fresh n hn c hc heq
  parents := by
    intro c hc p hp
    have hold : ∃ d ∈ s.record.comments, d.id = p := by
      rcases h.mem.1 hc with ⟨d, hd, rfl⟩ | hn
      · exact hs.parents d hd p hp
      · exact h.parents c hn p hp
    obtain ⟨d, hd, rfl⟩ := hold
    exact ⟨touched stamp d, h.mem.2 (.inl ⟨d, hd, rfl⟩), rfl⟩
  humans := by
    intro id hid
    rw [h.humanIds, List.mem_append] at hid
    rcases hid with hid | hid
    · obtain ⟨n, hn, rfl⟩ := h.signed id hid
      exact ⟨n, h.mem.2 (.inr hn), rfl⟩
    · obtain ⟨d, hd, rfl⟩ := hs.humans id hid
      exact ⟨touched stamp d, h.mem.2 (.inl ⟨d, hd, rfl⟩), rfl⟩

/-- An old comment keeps its writer. -/
theorem Edit.human_old (h : Edit s t stamp new byHuman) {c : Comment} (hc : c ∈ s.record.comments) :
    c.id ∈ t.humanIds ↔ c.id ∈ s.humanIds := by
  rw [h.humanIds, List.mem_append]
  constructor
  · rintro (hid | hid)
    · obtain ⟨n, hn, heq⟩ := h.signed _ hid
      exact absurd heq.symm (h.fresh n hn c hc)
    · exact hid
  · exact .inr

theorem Edit.human_new (h : Edit s t stamp new byHuman) (hs : s.WellFormed) {n : Comment} (hn : n ∈ new) :
    n.id ∈ t.humanIds ↔ n.id ∈ byHuman := by
  rw [h.humanIds, List.mem_append]
  constructor
  · rintro (hid | hid)
    · exact hid
    · obtain ⟨d, hd, heq⟩ := hs.humans _ hid
      exact absurd heq (h.fresh n hn d hd)
  · exact .inl

/-- A question stays open unless it gets a stamp. -/
theorem Edit.keepsOpen_iff (h : Edit s t stamp new byHuman) (hs : s.WellFormed) :
    s.KeepsOpen t ↔ ∀ q ∈ s.openQuestions, stamp q = none := by
  constructor
  · intro hkeep q hq
    obtain ⟨hmem, -, -⟩ := mem_openQuestions.1 hq
    obtain ⟨hmem', -, hopen'⟩ := mem_openQuestions.1 (hkeep q hq)
    rcases h.mem.1 hmem' with ⟨d, hd, heq⟩ | hn
    · have hdq : d = q := hs.eq_of_id hd hmem (by rw [← heq]; rfl)
      subst hdq
      rw [← heq] at hopen'
      exact (closedAt_touched_eq_none.1 hopen').1
    · exact absurd rfl (h.fresh q hn q hmem)
  · intro hnone q hq
    obtain ⟨hmem, hask, hopen⟩ := mem_openQuestions.1 hq
    exact mem_openQuestions.2 ⟨h.mem.2 (.inl ⟨q, hmem, touched_of_none (hnone q hq)⟩), hask, hopen⟩

/-- The replies handed on stay humans' if a closed question has human replies only and no machine replies to a
    closed question. -/
theorem Edit.authentic_iff (h : Edit s t stamp new byHuman) (hs : s.WellFormed) (hauth : s.Authentic) :
    t.Authentic ↔
      (∀ q ∈ s.openQuestions, stamp q ≠ none → s.HumanReplies q) ∧
      (∀ n ∈ new, n.body ≠ "" → n.id ∉ byHuman → ∀ q ∈ s.record.comments, isQuestion q = true →
        n.parentId = some q.id → q.closedAt = none ∧ stamp q = none) := by
  rw [Discussion.authentic_iff] at hauth ⊢
  constructor
  · intro ht
    constructor
    · intro q hq hstamp c hc hparent hbody
      obtain ⟨hmem, hask, -⟩ := mem_openQuestions.1 hq
      have hclosed : (touched stamp q).closedAt ≠ none := fun hnone => hstamp (closedAt_touched_eq_none.1 hnone).1
      have hhuman := ht (touched stamp q) (h.mem.2 (.inl ⟨q, hmem, rfl⟩)) hask hclosed (touched stamp c)
        (h.mem.2 (.inl ⟨c, hc, rfl⟩)) hparent hbody
      exact (h.human_old hc).1 hhuman
    · intro n hn hbody hid q hmem hask hparent
      by_contra hnot
      have hclosed : (touched stamp q).closedAt ≠ none := by
        intro hnone
        obtain ⟨h1, h2⟩ := closedAt_touched_eq_none.1 hnone
        exact hnot ⟨h2, h1⟩
      have hhuman := ht (touched stamp q) (h.mem.2 (.inl ⟨q, hmem, rfl⟩)) hask hclosed n (h.mem.2 (.inr hn))
        hparent hbody
      exact hid ((h.human_new hs hn).1 hhuman)
  · rintro ⟨hold, hnew⟩ q' hq' hask hclosed c' hc' hparent hbody
    rcases h.mem.1 hq' with ⟨q, hq, rfl⟩ | hn
    · have hcases : q.closedAt ≠ none ∨ (q ∈ s.openQuestions ∧ stamp q ≠ none) := by
        by_cases hopen : q.closedAt = none
        · exact .inr ⟨mem_openQuestions.2 ⟨hq, hask, hopen⟩, fun hnone =>
            hclosed (closedAt_touched_eq_none.2 ⟨hnone, hopen⟩)⟩
        · exact .inl hopen
      rcases h.mem.1 hc' with ⟨c, hc, rfl⟩ | hn
      · refine (h.human_old hc).2 ?_
        rcases hcases with hold' | ⟨hopen, hstamp⟩
        · exact hauth q hq hask hold' c hc hparent hbody
        · exact hold q hopen hstamp c hc hparent hbody
      · by_contra hhuman
        have hid : c'.id ∉ byHuman := fun hid => hhuman ((h.human_new hs hn).2 hid)
        obtain ⟨hopen, hstamp⟩ := hnew c' hn hbody hid q hq hask hparent
        exact hclosed (closedAt_touched_eq_none.2 ⟨hstamp, hopen⟩)
    · exact absurd (h.opened q' hn) hclosed

/-- Both together, for a call by `w`. -/
theorem Edit.right_iff (h : Edit s t stamp new byHuman) (hs : s.WellFormed) (hauth : s.Authentic) (w : Writer) :
    ((w = .machine → s.KeepsOpen t) ∧ t.Authentic) ↔
      (∀ q ∈ s.openQuestions, stamp q ≠ none → s.MayClose w q) ∧
      (∀ n ∈ new, n.body ≠ "" → n.id ∉ byHuman → ∀ q ∈ s.record.comments, isQuestion q = true →
        n.parentId = some q.id → q.closedAt = none ∧ stamp q = none) := by
  rw [h.keepsOpen_iff hs, h.authentic_iff hs hauth]
  constructor
  · rintro ⟨hkeep, hold, hnew⟩
    refine ⟨fun q hq hstamp => ⟨?_, hold q hq hstamp⟩, hnew⟩
    cases w with
    | human => rfl
    | machine => exact absurd (hkeep rfl q hq) hstamp
  · rintro ⟨hmay, hnew⟩
    refine ⟨?_, fun q hq hstamp => (hmay q hq hstamp).2, hnew⟩
    intro hw q hq
    by_contra hstamp
    obtain ⟨hhuman, -⟩ := hmay q hq hstamp
    rw [hw] at hhuman
    cases hhuman

end Edits

/-! ## Event by event -/

section Events

variable (clock : Nat → DateTime) (settings : Settings) {s : Discussion}

theorem lt_nextId {c : Comment} (hc : c ∈ s.record.comments) : c.id < s.nextId := by
  have hle : ∀ (l : List Comment) (m : CommentId), m ≤ l.foldl (fun m c => max m c.id) m ∧
      ∀ c ∈ l, c.id ≤ l.foldl (fun m c => max m c.id) m := by
    intro l
    induction l with
    | nil => exact fun m => ⟨le_refl m, fun c hc => (by cases hc)⟩
    | cons d l ih =>
      intro m
      obtain ⟨hm, hl⟩ := ih (max m d.id)
      refine ⟨(le_max_left m d.id).trans hm, ?_⟩
      intro c hc
      rcases List.mem_cons.1 hc with rfl | hc
      · exact (le_max_right m c.id).trans hm
      · exact hl c hc
  exact Nat.lt_succ_of_le ((hle s.record.comments s.elsewhere).2 c hc)

/-- The human's part of a call that adds the comment `nextId`. -/
def signature (s : Discussion) (w : Writer) : List CommentId :=
  match w with
  | .human => [s.nextId]
  | .machine => []

theorem signed_eq (w : Writer) : s.signed w = s.signature w ++ s.humanIds := by
  cases w <;> rfl

theorem mem_signature {w : Writer} {id : CommentId} :
    id ∈ s.signature w ↔ w = .human ∧ id = s.nextId := by
  cases w <;> simp [signature]

/-- A call that adds comments signs the one with the next id. -/
theorem edit_written {w : Writer} {r : TicketRecord} {stamp : Comment → Option DateTime} {new : List Comment}
    (hc : r.comments = s.record.comments.map (touched stamp) ++ new) {n : Comment} (hn : n ∈ new)
    (hid : n.id = s.nextId) (hnodup : (new.map Comment.id).Nodup) (hfresh : ∀ m ∈ new, s.nextId ≤ m.id)
    (hopen : ∀ m ∈ new, m.closedAt = none)
    (hparents : ∀ m ∈ new, ∀ p, m.parentId = some p → ∃ d ∈ s.record.comments, d.id = p) :
    Edit s (s.written w r) stamp new (s.signature w) where
  comments := hc
  humanIds := by
    have hgrown : s.grown r = true := by
      apply decide_eq_true
      rw [hc, List.length_append, List.length_map]
      exact Nat.lt_add_of_pos_right (List.length_pos_of_mem hn)
    show (if s.grown r then s.signed w else s.humanIds) = _
    rw [hgrown, if_pos rfl, signed_eq]
  signed := by
    intro id hmem
    obtain ⟨-, rfl⟩ := mem_signature.1 hmem
    exact ⟨n, hn, hid⟩
  nodup := hnodup
  fresh := by
    intro m hm c hc
    exact Nat.ne_of_lt ((lt_nextId hc).trans_le (hfresh m hm))
  opened := hopen
  parents := hparents

theorem isQuestion_of_answers {t : Ticket} {q : Comment} (h : answersQuestion t q = true) :
    t.state = .awaitingUserReply ∧ isQuestion q = true ∧ q.closedAt = none := by
  unfold answersQuestion at h
  simp only [Bool.and_eq_true, decide_eq_true_eq, Option.isNone_iff_eq_none] at h
  obtain ⟨⟨⟨hs, hroot⟩, hbody⟩, hopen⟩ := h
  refine ⟨hs, ?_, hopen⟩
  unfold isQuestion
  rw [hroot, hbody]
  rfl

theorem answers_of_isQuestion {t : Ticket} {q : Comment} (hs : t.state = .awaitingUserReply)
    (hq : isQuestion q = true) (hopen : q.closedAt = none) : answersQuestion t q = true := by
  unfold isQuestion at hq
  obtain ⟨hroot, hbody⟩ := Bool.and_eq_true_iff.1 hq
  unfold answersQuestion
  rw [hs, hroot, hbody, hopen]
  rfl

theorem edit_refused {w : Writer} : Edit s (s.written w s.record) (fun _ => none) [] [] := by
  have hgrown : s.grown s.record = false := decide_eq_false (Nat.lt_irrefl _)
  refine .same rfl ?_
  show (if s.grown s.record then s.signed w else s.humanIds) = s.humanIds
  rw [hgrown]
  rfl

theorem edit_closing {r : TicketRecord} {stamp : Comment → Option DateTime}
    (hc : r.comments = s.record.comments.map (touched stamp)) : Edit s (s.commit r s.humanIds) stamp [] [] where
  comments := by
    rw [List.append_nil]
    exact hc
  humanIds := rfl
  signed := fun _ h => (by cases h)
  nodup := .nil
  fresh := fun _ h => (by cases h)
  opened := fun _ h => (by cases h)
  parents := fun _ h => (by cases h)

/-- The one comment of a call stands by itself. -/
theorem edit_comment {w : Writer} {r : TicketRecord} {stamp : Comment → Option DateTime} {n : Comment}
    (hc : r.comments = s.record.comments.map (touched stamp) ++ [n]) (hid : n.id = s.nextId)
    (hopen : n.closedAt = none) (hparent : ∀ p, n.parentId = some p → ∃ d ∈ s.record.comments, d.id = p) :
    Edit s (s.written w r) stamp [n] (s.signature w) := by
  refine edit_written hc (List.mem_singleton.2 rfl) hid (List.nodup_singleton _) ?_ ?_ ?_
  · intro m hm
    obtain rfl := List.mem_singleton.1 hm
    exact le_of_eq hid.symm
  · intro m hm
    obtain rfl := List.mem_singleton.1 hm
    exact hopen
  · intro m hm
    obtain rfl := List.mem_singleton.1 hm
    exact hparent

theorem map_untouched (cs : List Comment) : cs.map (touched fun _ => none) = cs :=
  List.map_id'' (fun _ => touched_of_none rfl) cs

/-- `add_comment` closes the open question it replies to if the ticket is paused. -/
theorem addComment_edit (hs : s.WellFormed) (w : Writer) (body author : String) (parentId : Option CommentId) :
    ∃ stamp new, Edit s (s.addComment clock w body author parentId) stamp new
        (if new.isEmpty then [] else s.signature w) ∧
      (∀ q ∈ s.openQuestions, stamp q ≠ none ↔
        parentId = some q.id ∧ s.record.ticket.state = .awaitingUserReply) ∧
      (∀ n ∈ new, n.id = s.nextId ∧ n.body = body ∧ n.parentId = parentId) ∧
      ((∃ q ∈ s.record.comments, parentId = some q.id) → new ≠ []) := by
  unfold addComment
  rcases addCommentRecord_cases s.ticketId (s.now clock 0) (s.now clock 1) s.nextId body author parentId s.record
    with ⟨pid, rfl, hfind, heq⟩ | ⟨hplain, heq⟩ | ⟨pid, parent, rfl, hfind, hans, heq⟩
  · -- refused: there is no such comment, so no such question
    have hnone : ∀ q ∈ s.record.comments, some pid ≠ some q.id := by
      intro q hq hpid
      obtain rfl := Option.some.inj hpid
      rw [hs.find?_eq hq] at hfind
      cases hfind
    rw [heq]
    refine ⟨_, [], edit_refused, ?_, fun n hn => (by cases hn), ?_⟩
    · intro q hq
      exact ⟨fun h => absurd rfl h, fun h => absurd h.1 (hnone q (mem_openQuestions.1 hq).1)⟩
    · rintro ⟨q, hq, hpid⟩
      exact absurd hpid (hnone q hq)
  · rw [heq]
    refine ⟨fun _ => none, [newComment (s.now clock 0) s.nextId body author parentId],
      edit_comment ?_ rfl rfl ?_, ?_, ?_, fun _ => List.cons_ne_nil _ _⟩
    · rw [map_untouched]
    · intro p hp
      obtain ⟨parent, hfind, -⟩ := hplain p hp
      exact ⟨parent, List.mem_of_find?_eq_some hfind, by simpa using List.find?_some hfind⟩
    · intro q hq
      refine ⟨fun h => absurd rfl h, ?_⟩
      rintro ⟨hpid, hawait⟩
      obtain ⟨hmem, hask, hopen⟩ := mem_openQuestions.1 hq
      obtain ⟨parent, hfind, hans⟩ := hplain q.id hpid
      rw [hs.find?_eq hmem] at hfind
      obtain rfl := Option.some.inj hfind
      rw [answers_of_isQuestion hawait hask hopen] at hans
      cases hans
    · intro n hn
      obtain rfl := List.mem_singleton.1 hn
      exact ⟨rfl, rfl, rfl⟩
  · -- the reply closes the question
    obtain ⟨hawait, hask, hopen⟩ := isQuestion_of_answers hans
    have hpid : parent.id = pid := by simpa using List.find?_some hfind
    rw [heq]
    refine ⟨stampId pid (s.now clock 0 0), [newComment (s.now clock 0) s.nextId body author (some pid)],
      edit_comment (maybeResumeRecord_comments ..) rfl rfl ?_, ?_, ?_, fun _ => List.cons_ne_nil _ _⟩
    · intro p hp
      obtain rfl := Option.some.inj hp
      exact ⟨parent, List.mem_of_find?_eq_some hfind, hpid⟩
    · intro q hq
      constructor
      · intro hstamp
        have hid : q.id = pid := by
          by_contra hne
          exact hstamp (if_neg hne)
        exact ⟨by rw [hid], hawait⟩
      · rintro ⟨hid, -⟩
        rw [stampId, if_pos (Option.some.inj hid).symm]
        exact Option.some_ne_none _
    · intro n hn
      obtain rfl := List.mem_singleton.1 hn
      exact ⟨rfl, rfl, rfl⟩

/-- `close_thread` closes the open question it is given. -/
theorem closeThread_edit (hs : s.WellFormed) (cid : CommentId) :
    ∃ stamp, Edit s (s.closeThread clock cid) stamp [] [] ∧
      ∀ q ∈ s.openQuestions, stamp q ≠ none ↔ q.id = cid := by
  unfold closeThread
  rcases closeThreadRecord_cases s.ticketId (s.now clock 0) (s.now clock 1) cid s.record with
    ⟨hno, heq⟩ | ⟨c, -, -, -, heq⟩
  · rw [heq]
    refine ⟨_, .same rfl rfl, ?_⟩
    intro q hq
    refine ⟨fun h => absurd rfl h, ?_⟩
    intro hid
    obtain ⟨hmem, hask, hopen⟩ := mem_openQuestions.1 hq
    have hroot : q.parentId = none := Option.isNone_iff_eq_none.1 (Bool.and_eq_true_iff.1 hask).1
    rw [← hid] at hno
    rcases hno q (hs.find?_eq hmem) with h | h
    · exact absurd hroot h
    · exact absurd hopen h
  · rw [heq]
    refine ⟨stampId cid (s.now clock 0 0), edit_closing (maybeResumeRecord_comments ..), ?_⟩
    intro q _
    by_cases hid : q.id = cid
    · rw [stampId, if_pos hid]
      exact ⟨fun _ => hid, fun _ => Option.some_ne_none _⟩
    · rw [stampId, if_neg hid]
      exact ⟨fun h => absurd rfl h, fun h => absurd h hid⟩

/-- `answer_pending_question` closes the open thread it picks, or every open thread. -/
theorem answer_edit (w : Writer) (body author : String) (requiresChange : Bool) :
    ∃ stamp new byHuman, Edit s (s.answer clock w body author requiresChange) stamp new byHuman ∧
      (∀ q ∈ s.openQuestions, stamp q ≠ none ↔ answerable s.record.ticket = true ∧
        ∃ ask, latestOpenThread s.record.comments = some ask ∧ (requiresChange = true ∨ q.id = ask.id)) ∧
      (∀ n ∈ new, n.id ∉ byHuman → ∀ p, n.parentId = some p → w = .machine ∧ answerable s.record.ticket = true ∧
        ∃ ask, latestOpenThread s.record.comments = some ask ∧ p = ask.id) := by
  have hfresh : ∀ c ∈ s.record.comments, c.id ≠ s.nextId := fun c hc => Nat.ne_of_lt (lt_nextId hc)
  unfold answer
  rcases answerPendingQuestionRecord_cases s.ticketId (s.now clock) (s.nextId + 1) body author requiresChange hfresh
    with ⟨hno, heq⟩ | ⟨ask, stamp, notes, hans, hask, hstamp, hnotes, heq⟩
  · rw [heq]
    refine ⟨_, [], [], edit_refused, ?_, fun n hn => (by cases hn)⟩
    intro q _
    refine ⟨fun h => absurd rfl h, ?_⟩
    rintro ⟨hans, ask, hask, -⟩
    rcases hno with h | h
    · rw [hans] at h
      cases h
    · rw [hask] at h
      cases h
  · have hmem : ask ∈ s.record.comments := (List.mem_filter.1 (mem_of_latestBy hask)).1
    generalize hreply : (⟨s.nextId, body, author, some ask.id, none, s.now clock 0 0⟩ : Comment) = reply at heq
    refine ⟨stamp, reply :: notes, s.signature w, ?_, ?_, ?_⟩
    · refine edit_written heq List.mem_cons_self (by rw [← hreply]) ?_ ?_ ?_ ?_
      · cases notes with
        | nil => exact List.nodup_singleton _
        | cons note rest =>
          obtain ⟨hid, -, -, hrest⟩ := hnotes note List.mem_cons_self
          obtain rfl : rest = [] := (List.cons.inj hrest).2
          have hne : reply.id ≠ note.id := by
            rw [hid, ← hreply]
            exact Nat.ne_of_lt (Nat.lt_succ_self _)
          exact List.nodup_cons.2 ⟨fun h => hne (List.mem_singleton.1 h), List.nodup_singleton _⟩
      · intro m hm
        rcases List.mem_cons.1 hm with rfl | hm
        · exact le_of_eq (by rw [← hreply])
        · rw [(hnotes m hm).1]
          exact Nat.le_succ _
      · intro m hm
        rcases List.mem_cons.1 hm with rfl | hm
        · rw [← hreply]
        · exact (hnotes m hm).2.2.1
      · intro m hm p hp
        rcases List.mem_cons.1 hm with rfl | hm
        · rw [← hreply] at hp
          obtain rfl := Option.some.inj hp
          exact ⟨ask, hmem, rfl⟩
        · rw [(hnotes m hm).2.1] at hp
          cases hp
    · intro q hq
      obtain ⟨-, hqask, hqopen⟩ := mem_openQuestions.1 hq
      rw [hstamp]
      constructor
      · rintro (h | h)
        · exact ⟨hans, ask, hask, .inr h⟩
        · exact ⟨hans, ask, hask, .inl h.1⟩
      · rintro ⟨-, ask', hask', hwhich⟩
        rw [hask] at hask'
        obtain rfl := Option.some.inj hask'
        rcases hwhich with h | h
        · exact .inr ⟨h, isAskUserThread_of_isQuestion hqask, hqopen⟩
        · exact .inl h
    · intro n hn hid p hp
      rcases List.mem_cons.1 hn with rfl | hn
      · refine ⟨?_, hans, ask, hask, ?_⟩
        · cases w with
          | machine => rfl
          | human => exact absurd (mem_signature.2 ⟨rfl, by rw [← hreply]⟩) hid
        · rw [← hreply] at hp
          exact (Option.some.inj hp).symm
      · rw [(hnotes n hn).2.1] at hp
        cases hp

/-- `transition` closes every open question, or none. -/
theorem move_edit (dst : State) (note blockReason : Option String) :
    ∃ stamp, Edit s (s.move clock dst note blockReason) stamp [] [] ∧
      ∀ q ∈ s.openQuestions, stamp q ≠ none ↔ transitionNoop s.record.ticket dst = false ∧
        transitionRefusal s.ticketId dst s.record = none ∧ closesThreads s.record.ticket dst = true := by
  unfold move
  rcases movedRecord_cases s.ticketId (s.now clock 0) dst note blockReason s.record with
    ⟨hno, heq⟩ | ⟨hnoop, href, heq⟩
  · rw [heq]
    refine ⟨_, .same rfl rfl, ?_⟩
    intro q _
    refine ⟨fun h => absurd rfl h, ?_⟩
    rintro ⟨hnoop, href, -⟩
    rcases hno with h | h
    · rw [hnoop] at h
      cases h
    · exact absurd href h
  · rw [heq]
    refine ⟨_, edit_closing (transitionRecord_comments ..), ?_⟩
    intro q hq
    obtain ⟨-, hask, hopen⟩ := mem_openQuestions.1 hq
    cases closesThreads s.record.ticket dst with
    | true =>
      rw [if_pos rfl, stampAsked, isAskUserThread_of_isQuestion hask, hopen]
      exact ⟨fun _ => ⟨hnoop, href, rfl⟩, fun _ => Option.some_ne_none _⟩
    | false => exact ⟨fun h => absurd rfl h, fun h => (by cases h.2.2)⟩

/-- `resume_blocked` closes nothing and replies to nothing. -/
theorem resumeBlocked_edit (w : Writer) (note eventNote : String) :
    ∃ new byHuman, Edit s (s.resumeBlocked clock settings w note eventNote) (fun _ => none) new byHuman ∧
      ∀ n ∈ new, n.parentId = none := by
  unfold resumeBlocked
  cases resumeRefusal s.ticketId s.record.ticket with
  | some e => exact ⟨[], [], .same rfl rfl, fun n hn => (by cases hn)⟩
  | none =>
    dsimp only
    generalize hr : resumeRecord settings s.ticketId (s.now clock 0) s.nextId note eventNote s.record = r
    by_cases hnote : strip note = ""
    · have hc : r.comments = s.record.comments := by
        rw [← hr]
        exact if_pos hnote
      have hgrown : s.grown r = false := decide_eq_false (by rw [hc]; exact Nat.lt_irrefl _)
      refine ⟨[], [], .same hc ?_, fun n hn => (by cases hn)⟩
      show (if s.grown r then s.signed w else s.humanIds) = s.humanIds
      rw [hgrown]
      rfl
    · let comment : Comment :=
        { id := s.nextId, body := strip note, author := "operator", createdAt := s.now clock 0 1 }
      refine ⟨[comment], s.signature w, edit_comment ?_ rfl rfl (fun p hp => (by cases hp)), ?_⟩
      · rw [map_untouched, ← hr]
        exact if_neg hnote
      · intro n hn
        obtain rfl := List.mem_singleton.1 hn
        rfl

/-! ## The condition, event by event -/

/-- A call that only closes threads. -/
theorem Edit.closing_iff {t : Discussion} {stamp : Comment → Option DateTime} (h : Edit s t stamp [] [])
    (hs : s.WellFormed) (hauth : s.Authentic) (w : Writer) :
    ((w = .machine → s.KeepsOpen t) ∧ t.Authentic) ↔
      ∀ q ∈ s.openQuestions, stamp q ≠ none → s.MayClose w q := by
  rw [h.right_iff hs hauth w]
  exact and_iff_left fun n hn => (by cases hn)

theorem addComment_iff (hs : s.WellFormed) (hauth : s.Authentic) (w : Writer) (body author : String)
    (parentId : Option CommentId) :
    ((w = .machine → s.KeepsOpen (s.addComment clock w body author parentId)) ∧
      (s.addComment clock w body author parentId).Authentic) ↔ s.Sound (.addComment w body author parentId) := by
  obtain ⟨stamp, new, hedit, hstamp, hnew, hsome⟩ := addComment_edit clock hs w body author parentId
  rw [hedit.right_iff hs hauth w]
  constructor
  · rintro ⟨hmay, hreply⟩ q hq hask hpid
    constructor
    · intro hopen hawait
      have hmem := mem_openQuestions.2 ⟨hq, hask, hopen⟩
      exact hmay q hmem ((hstamp q hmem).2 ⟨hpid, hawait⟩)
    · intro hw hbody
      obtain ⟨n, hn⟩ := List.exists_mem_of_ne_nil new (hsome ⟨q, hq, hpid⟩)
      obtain ⟨-, hnbody, hnparent⟩ := hnew n hn
      refine (hreply n hn (by rw [hnbody]; exact hbody) ?_ q hq hask (hnparent.trans hpid)).1
      -- a machine signs nothing
      rw [hw]
      show n.id ∉ if new.isEmpty then [] else []
      rw [ite_self]
      exact List.not_mem_nil
  · intro hsound
    constructor
    · intro q hq hclosed
      obtain ⟨hmem, hask, hopen⟩ := mem_openQuestions.1 hq
      obtain ⟨hpid, hawait⟩ := (hstamp q hq).1 hclosed
      exact (hsound q hmem hask hpid).1 hopen hawait
    · intro n hn hbody hid q hq hask hparent
      obtain ⟨hnid, hnbody, hnparent⟩ := hnew n hn
      have hw : w = .machine := by
        cases w with
        | machine => rfl
        | human =>
          refine absurd ?_ hid
          rw [if_neg (by rw [List.isEmpty_iff]; exact List.ne_nil_of_mem hn)]
          exact mem_signature.2 ⟨rfl, hnid⟩
      have hpid : parentId = some q.id := hnparent.symm.trans hparent
      have hopen := (hsound q hq hask hpid).2 hw (by rw [← hnbody]; exact hbody)
      refine ⟨hopen, ?_⟩
      by_contra hclosed
      have hawait := ((hstamp q (mem_openQuestions.2 ⟨hq, hask, hopen⟩)).1 hclosed).2
      have hhuman := ((hsound q hq hask hpid).1 hopen hawait).1
      rw [hw] at hhuman
      cases hhuman

theorem closeThread_iff (hs : s.WellFormed) (hauth : s.Authentic) (w : Writer) (cid : CommentId) :
    ((w = .machine → s.KeepsOpen (s.closeThread clock cid)) ∧ (s.closeThread clock cid).Authentic) ↔
      s.Sound (.closeThread w cid) := by
  obtain ⟨stamp, hedit, hstamp⟩ := closeThread_edit clock hs cid
  rw [hedit.closing_iff hs hauth w]
  exact forall₂_congr fun q hq => by rw [hstamp q hq]

theorem answer_iff (hs : s.WellFormed) (hauth : s.Authentic) (w : Writer) (body author : String)
    (requiresChange : Bool) :
    ((w = .machine → s.KeepsOpen (s.answer clock w body author requiresChange)) ∧
      (s.answer clock w body author requiresChange).Authentic) ↔
      s.Sound (.answer w body author requiresChange) := by
  obtain ⟨stamp, new, byHuman, hedit, hstamp, hnew⟩ := answer_edit clock w body author requiresChange
  rw [hedit.right_iff hs hauth w]
  constructor
  · rintro ⟨hmay, -⟩ hans ask hask q hq hwhich
    exact hmay q hq ((hstamp q hq).2 ⟨hans, ask, hask, hwhich⟩)
  · intro hsound
    constructor
    · intro q hq hclosed
      obtain ⟨hans, ask, hask, hwhich⟩ := (hstamp q hq).1 hclosed
      exact hsound hans ask hask q hq hwhich
    · -- a reply nobody signed: a machine's, to the open thread that was picked
      intro n hn _ hid q hq hqask hparent
      obtain ⟨hw, hans, ask, hask, hpid⟩ := hnew n hn hid q.id hparent
      have hpicked : ask ∈ openAskUserThreads s.record.comments := mem_of_latestBy hask
      obtain ⟨hmem, hopen⟩ := List.mem_filter.1 hpicked
      have hqa : q = ask := hs.eq_of_id hq hmem hpid
      have hqopen : q.closedAt = none := by
        rw [hqa]
        exact Option.isNone_iff_eq_none.1 (Bool.and_eq_true_iff.1 hopen).2
      have hhuman := (hsound hans ask hask q (mem_openQuestions.2 ⟨hq, hqask, hqopen⟩) (.inr hpid)).1
      rw [hw] at hhuman
      cases hhuman

theorem move_iff (hs : s.WellFormed) (hauth : s.Authentic) (w : Writer) (dst : State)
    (note blockReason : Option String) :
    ((w = .machine → s.KeepsOpen (s.move clock dst note blockReason)) ∧
      (s.move clock dst note blockReason).Authentic) ↔ s.Sound (.move w dst note blockReason) := by
  obtain ⟨stamp, hedit, hstamp⟩ := move_edit clock dst note blockReason
  rw [hedit.closing_iff hs hauth w]
  constructor
  · intro hmay hnoop href hcloses q hq
    exact hmay q hq ((hstamp q hq).2 ⟨hnoop, href, hcloses⟩)
  · intro hsound q hq hclosed
    obtain ⟨hnoop, href, hcloses⟩ := (hstamp q hq).1 hclosed
    exact hsound hnoop href hcloses q hq

theorem resumeBlocked_right (hs : s.WellFormed) (hauth : s.Authentic) (w : Writer) (note eventNote : String) :
    s.KeepsOpen (s.resumeBlocked clock settings w note eventNote) ∧
      (s.resumeBlocked clock settings w note eventNote).Authentic := by
  obtain ⟨new, byHuman, hedit, hroot⟩ := resumeBlocked_edit clock settings w note eventNote
  refine ⟨(hedit.keepsOpen_iff hs).2 fun _ _ => rfl,
    (hedit.authentic_iff hs hauth).2 ⟨fun q _ h => absurd rfl h, ?_⟩⟩
  intro n hn _ _ q _ _ hparent
  rw [hroot n hn] at hparent
  cases hparent

/-! ## The acknowledgement -/

/-- What a machine's comment call leaves as it was: nothing is opened, and while a question stays open a paused
    ticket stays paused. -/
structure Later (s t : Discussion) : Prop where
  kin : ∀ c ∈ s.record.comments, ∃ d ∈ t.record.comments, d.id = c.id ∧ isQuestion d = isQuestion c
  old : ∀ q ∈ t.openQuestions, q ∈ s.openQuestions
  paused : ∀ q ∈ t.openQuestions, s.record.ticket.state = .awaitingUserReply →
    t.record.ticket.state = .awaitingUserReply
  notPaused : t.record.ticket.state = .awaitingUserReply → s.record.ticket.state = .awaitingUserReply

theorem Later.refl (s : Discussion) : Later s s where
  kin := fun c hc => ⟨c, hc, rfl, rfl⟩
  old := fun _ h => h
  paused := fun _ _ h => h
  notPaused := fun h => h

theorem Later.trans {t u : Discussion} (h : Later s t) (h' : Later t u) : Later s u where
  kin := by
    intro c hc
    obtain ⟨d, hd, hid, hask⟩ := h.kin c hc
    obtain ⟨e, he, hid', hask'⟩ := h'.kin d hd
    exact ⟨e, he, hid'.trans hid, hask'.trans hask⟩
  old := fun q hq => h.old q (h'.old q hq)
  paused := fun q hq hs => h'.paused q hq (h.paused q (h'.old q hq) hs)
  notPaused := fun hu => h.notPaused (h'.notPaused hu)

/-- Comments are touched or added, none of them a question; then perhaps an auto-resume. -/
theorem later_of_edit {t : Discussion} {stamp : Comment → Option DateTime} {new : List Comment}
    {byHuman : List CommentId} (h : Edit s t stamp new byHuman) (hnew : ∀ n ∈ new, isQuestion n = false)
    {r : TicketRecord} (hrec : t.record = r ∨ ∃ now, t.record = maybeResumeRecord s.ticketId now r)
    (hr : r.ticket = s.record.ticket) : Later s t where
  kin := fun c hc => ⟨touched stamp c, h.mem.2 (.inl ⟨c, hc, rfl⟩), rfl, rfl⟩
  old := by
    intro q hq
    obtain ⟨hmem, hask, hopen⟩ := mem_openQuestions.1 hq
    rcases h.mem.1 hmem with ⟨d, hd, rfl⟩ | hn
    · have hnone := (closedAt_touched_eq_none.1 hopen).1
      rw [touched_of_none hnone] at hask hopen ⊢
      exact mem_openQuestions.2 ⟨hd, hask, hopen⟩
    · rw [hnew q hn] at hask
      cases hask
  paused := by
    intro q hq hawait
    obtain ⟨hmem, hask, hopen⟩ := mem_openQuestions.1 hq
    rcases hrec with hrec | ⟨now, hrec⟩
    · rw [hrec, hr]
      exact hawait
    · rw [hrec, maybeResumeRecord_comments] at hmem
      rw [hrec, maybeResumeRecord_of_open _ _ hmem (isAskUserThread_of_isQuestion hask) hopen, hr]
      exact hawait
  notPaused := by
    intro hawait
    rcases hrec with hrec | ⟨now, hrec⟩
    · rw [hrec, hr] at hawait
      exact hawait
    · rw [hrec] at hawait
      rw [← hr]
      exact awaiting_of_maybeResumeRecord hawait

theorem later_closeThread (hs : s.WellFormed) (cid : CommentId) : Later s (s.closeThread clock cid) := by
  obtain ⟨stamp, hedit, -⟩ := closeThread_edit clock hs cid
  rcases closeThreadRecord_cases s.ticketId (s.now clock 0) (s.now clock 1) cid s.record with
    ⟨-, heq⟩ | ⟨c, -, -, -, heq⟩
  · exact later_of_edit hedit (fun n hn => (by cases hn)) (.inl heq) rfl
  · exact later_of_edit hedit (fun n hn => (by cases hn)) (.inr ⟨_, heq⟩) rfl

theorem later_addComment (hs : s.WellFormed) (w : Writer) (body author : String) (pid : CommentId) :
    Later s (s.addComment clock w body author (some pid)) := by
  obtain ⟨stamp, new, hedit, -, hnew, -⟩ := addComment_edit clock hs w body author (some pid)
  have hreply : ∀ n ∈ new, isQuestion n = false := by
    intro n hn
    unfold isQuestion
    rw [(hnew n hn).2.2]
    rfl
  rcases addCommentRecord_cases s.ticketId (s.now clock 0) (s.now clock 1) s.nextId body author (some pid) s.record
    with ⟨_, -, -, heq⟩ | ⟨-, heq⟩ | ⟨_, _, -, -, -, heq⟩
  · exact later_of_edit hedit hreply (.inl heq) rfl
  · exact later_of_edit hedit hreply (.inl heq) rfl
  · exact later_of_edit hedit hreply (.inr ⟨_, heq⟩) rfl

/-- A question that gets a stamp is no longer open. -/
theorem Edit.not_open {t : Discussion} {stamp : Comment → Option DateTime} {new : List Comment}
    {byHuman : List CommentId} (h : Edit s t stamp new byHuman) (hs : s.WellFormed) {q : Comment}
    (hq : q ∈ s.openQuestions) (hstamp : stamp q ≠ none) : q ∉ t.openQuestions := by
  intro hq'
  obtain ⟨hmem, -, -⟩ := mem_openQuestions.1 hq
  obtain ⟨hmem', -, hopen⟩ := mem_openQuestions.1 hq'
  rcases h.mem.1 hmem' with ⟨d, hd, heq⟩ | hn
  · have hdq : d = q := hs.eq_of_id hd hmem (by rw [← heq]; rfl)
    subst hdq
    rw [← heq] at hopen
    exact hstamp (closedAt_touched_eq_none.1 hopen).1
  · exact absurd rfl (h.fresh q hn q hmem)

theorem wellFormed_closeThread (hs : s.WellFormed) (cid : CommentId) : (s.closeThread clock cid).WellFormed := by
  obtain ⟨stamp, hedit, -⟩ := closeThread_edit clock hs cid
  exact hedit.wellFormed hs

theorem wellFormed_addComment (hs : s.WellFormed) (w : Writer) (body author : String)
    (parentId : Option CommentId) : (s.addComment clock w body author parentId).WellFormed := by
  obtain ⟨stamp, new, hedit, -⟩ := addComment_edit clock hs w body author parentId
  exact hedit.wellFormed hs

theorem later_tryClose (hs : s.WellFormed) (f : Faults) (tid : CommentId) :
    (s.tryClose clock f tid).WellFormed ∧ Later s (s.tryClose clock f tid) := by
  unfold tryClose
  cases f.close tid with
  | true => exact ⟨hs, .refl s⟩
  | false => exact ⟨wellFormed_closeThread clock hs tid, later_closeThread clock hs tid⟩

theorem later_tryAddressed (hs : s.WellFormed) (f : Faults) (tid : CommentId) :
    (s.tryAddressed clock f tid).WellFormed ∧ Later s (s.tryAddressed clock f tid) := by
  unfold tryAddressed
  cases f.add tid with
  | true => exact ⟨hs, .refl s⟩
  | false => exact ⟨wellFormed_addComment clock hs _ _ _ _, later_addComment clock hs _ _ _ tid⟩

theorem later_acknowledgeThread (hs : s.WellFormed) (f : Faults) (comments : List Comment) (tid : CommentId) :
    (acknowledgeThread clock f comments s tid).WellFormed ∧ Later s (acknowledgeThread clock f comments s tid) := by
  unfold acknowledgeThread
  cases comments.find? fun c => c.id = tid with
  | none => exact ⟨hs, .refl s⟩
  | some top =>
    dsimp only
    cases top.closedAt.isSome with
    | true => exact ⟨hs, .refl s⟩
    | false =>
      cases (repliesTo comments top).isEmpty with
      | true =>
        obtain ⟨hs₁, h₁⟩ := later_tryAddressed clock hs f tid
        obtain ⟨hs₂, h₂⟩ := later_tryClose clock hs₁ f tid
        exact ⟨hs₂, h₁.trans h₂⟩
      | false => exact later_tryClose clock hs f tid

theorem later_acknowledge (hs : s.WellFormed) (f : Faults) (comments : List Comment)
    (threadIds : List CommentId) :
    (threadIds.foldl (acknowledgeThread clock f comments) s).WellFormed ∧
      Later s (threadIds.foldl (acknowledgeThread clock f comments) s) := by
  induction threadIds generalizing s with
  | nil => exact ⟨hs, .refl s⟩
  | cons tid threadIds ih =>
    obtain ⟨hs₁, h₁⟩ := later_acknowledgeThread clock hs f comments tid
    obtain ⟨hs₂, h₂⟩ := ih hs₁
    exact ⟨hs₂, h₁.trans h₂⟩

/-- The thread of an id, as the comments listed before the loop show it. -/
theorem WellFormed.find?_oldestFirst (hs : s.WellFormed) {c : Comment} (hc : c ∈ s.record.comments) :
    (oldestFirst s.record).find? (fun d => d.id = c.id) = some c := by
  cases hf : (oldestFirst s.record).find? (fun d => d.id = c.id) with
  | none =>
    have hno := List.find?_eq_none.1 hf c (mem_oldestFirst.2 hc)
    simp at hno
  | some d =>
    have hid : d.id = c.id := by simpa using List.find?_some hf
    rw [hs.eq_of_id (mem_oldestFirst.1 (List.mem_of_find?_eq_some hf)) hc hid]

theorem repliesTo_isEmpty {q : Comment} :
    (repliesTo (oldestFirst s.record) q).isEmpty = true ↔ ∀ c ∈ s.record.comments, c.parentId ≠ some q.id := by
  rw [List.isEmpty_iff, List.eq_nil_iff_forall_not_mem]
  constructor
  · intro h c hc hparent
    exact h c (mem_repliesTo.2 ⟨mem_oldestFirst.2 hc, hparent⟩)
  · intro h c hc
    obtain ⟨hmem, hparent⟩ := mem_repliesTo.1 hc
    exact h c (mem_oldestFirst.1 hmem) hparent

/-- The loop body on a thread that was listed open. -/
theorem acknowledgeThread_open (hs : s.WellFormed) {q : Comment} (hq : q ∈ s.record.comments)
    (hopen : q.closedAt = none) (f : Faults) (s₁ : Discussion) :
    acknowledgeThread clock f (oldestFirst s.record) s₁ q.id =
      if (repliesTo (oldestFirst s.record) q).isEmpty then (s₁.tryAddressed clock f q.id).tryClose clock f q.id
      else s₁.tryClose clock f q.id := by
  unfold acknowledgeThread
  rw [hs.find?_oldestFirst hq]
  dsimp only
  rw [if_neg (by rw [hopen]; exact Bool.false_ne_true)]

/-- An acknowledgement that reaches an open question closes it. -/
theorem closed_by_acknowledge (hs : s.WellFormed) {f : Faults} {threadIds : List CommentId} {q : Comment}
    (hq : q ∈ s.openQuestions) (hid : q.id ∈ threadIds) (hack : s.Acknowledges f q) :
    q ∉ (threadIds.foldl (acknowledgeThread clock f (oldestFirst s.record)) s).openQuestions := by
  obtain ⟨before, after, rfl⟩ := List.append_of_mem hid
  rw [List.foldl_append, List.foldl_cons]
  obtain ⟨hs₁, h₁⟩ := later_acknowledge clock hs f (oldestFirst s.record) before
  generalize before.foldl (acknowledgeThread clock f (oldestFirst s.record)) s = s₁ at hs₁ h₁ ⊢
  obtain ⟨hs₂, -⟩ := later_acknowledgeThread clock hs₁ f (oldestFirst s.record) q.id
  obtain ⟨-, h₃⟩ := later_acknowledge clock hs₂ f (oldestFirst s.record) after
  intro hlast
  refine absurd (h₃.old q hlast) ?_
  obtain ⟨hmem, -, hopen⟩ := mem_openQuestions.1 hq
  rw [acknowledgeThread_open clock hs hmem hopen]
  have hclose : ∀ s₂ : Discussion, s₂.WellFormed → f.close q.id = false →
      q ∉ (s₂.tryClose clock f q.id).openQuestions := by
    intro s₂ hs₂ hf hstill
    have hq₂ := (later_tryClose clock hs₂ f q.id).2.old q hstill
    rw [tryClose, hf] at hstill
    obtain ⟨stamp, hedit, hstamp⟩ := closeThread_edit clock hs₂ q.id
    exact hedit.not_open hs₂ hq₂ ((hstamp q hq₂).2 rfl) hstill
  by_cases hempty : (repliesTo (oldestFirst s.record) q).isEmpty = true
  · rw [if_pos hempty]
    obtain ⟨hs₂, h₂⟩ := later_tryAddressed clock hs₁ f q.id
    rcases hack with hf | ⟨hf, -, hawait⟩
    · exact hclose _ hs₂ hf
    · -- the reply answers the question
      intro hstill
      have hq₂ := (later_tryClose clock hs₂ f q.id).2.old q hstill
      have hq₁ := h₂.old q hq₂
      rw [tryAddressed, hf] at hq₂
      obtain ⟨stamp, new, hedit, hstamp, -⟩ :=
        addComment_edit clock hs₁ .machine "Addressed." "user" (some q.id)
      exact hedit.not_open hs₁ hq₁ ((hstamp q hq₁).2 ⟨rfl, h₁.paused q hq₁ hawait⟩) hq₂
  · rw [if_neg hempty]
    rcases hack with hf | ⟨-, hreplies, -⟩
    · exact hclose _ hs₁ hf
    · exact absurd (repliesTo_isEmpty.2 hreplies) hempty

/-- What the loop keeps while it reaches no open question. -/
structure Acknowledged (s t : Discussion) : Prop where
  wellFormed : t.WellFormed
  authentic : t.Authentic
  keepsOpen : s.KeepsOpen t
  later : Later s t

theorem Acknowledged.tryClose {t : Discussion} (h : Acknowledged s t) {f : Faults} {tid : CommentId}
    (hf : ∀ q ∈ s.openQuestions, q.id = tid → f.close q.id = true) : Acknowledged s (t.tryClose clock f tid) := by
  obtain ⟨hwf, hlater⟩ := later_tryClose clock h.wellFormed f tid
  have hright : t.KeepsOpen (t.tryClose clock f tid) ∧ (t.tryClose clock f tid).Authentic := by
    unfold Discussion.tryClose
    cases hclose : f.close tid with
    | true => exact ⟨fun _ hq => hq, h.authentic⟩
    | false =>
      have hsound : t.Sound (.closeThread .machine tid) := by
        intro q hq hid
        have hfault := hf q (h.later.old q hq) hid
        rw [hid, hclose] at hfault
        cases hfault
      obtain ⟨hkeep, hauth⟩ := (closeThread_iff clock h.wellFormed h.authentic .machine tid).2 hsound
      exact ⟨hkeep rfl, hauth⟩
  exact ⟨hwf, hright.2, fun q hq => hright.1 q (h.keepsOpen q hq), h.later.trans hlater⟩

theorem Acknowledged.tryAddressed {t : Discussion} (h : Acknowledged s t) {f : Faults} {top : Comment}
    (hmem : top ∈ s.record.comments) (hopen : top.closedAt = none)
    (hf : isQuestion top = true → f.add top.id = true ∨ s.record.ticket.state ≠ .awaitingUserReply) :
    Acknowledged s (t.tryAddressed clock f top.id) := by
  obtain ⟨hwf, hlater⟩ := later_tryAddressed clock h.wellFormed f top.id
  have hright : t.KeepsOpen (t.tryAddressed clock f top.id) ∧ (t.tryAddressed clock f top.id).Authentic := by
    unfold Discussion.tryAddressed
    cases hadd : f.add top.id with
    | true => exact ⟨fun _ hq => hq, h.authentic⟩
    | false =>
      have hsound : t.Sound (.addComment .machine "Addressed." "user" (some top.id)) := by
        intro q hq hask hid
        -- the question of this id is the thread that was listed open, and it still is
        have hid' : q.id = top.id := (Option.some.inj hid).symm
        obtain ⟨d, hd, hdid, hdask⟩ := h.later.kin top hmem
        have hqd : q = d := h.wellFormed.eq_of_id hq hd (hid'.trans hdid.symm)
        have htop : isQuestion top = true := by rw [← hdask, ← hqd]; exact hask
        have hstill := h.keepsOpen top (mem_openQuestions.2 ⟨hmem, htop, hopen⟩)
        have hqtop : q = top := h.wellFormed.eq_of_id hq (mem_openQuestions.1 hstill).1 hid'
        refine ⟨fun _ hawait => ?_, fun _ _ => by rw [hqtop]; exact hopen⟩
        rcases hf htop with hfault | hne
        · rw [hadd] at hfault
          cases hfault
        · exact absurd (h.later.notPaused hawait) hne
      obtain ⟨hkeep, hauth⟩ := (addComment_iff clock h.wellFormed h.authentic .machine "Addressed." "user" _).2 hsound
      exact ⟨hkeep rfl, hauth⟩
  exact ⟨hwf, hright.2, fun q hq => hright.1 q (h.keepsOpen q hq), h.later.trans hlater⟩

theorem Acknowledged.thread {t : Discussion} (h : Acknowledged s t) (hs : s.WellFormed) {f : Faults}
    {tid : CommentId} (hf : ∀ q ∈ s.openQuestions, q.id = tid → ¬ s.Acknowledges f q) :
    Acknowledged s (acknowledgeThread clock f (oldestFirst s.record) t tid) := by
  have hclose : ∀ q ∈ s.openQuestions, q.id = tid → f.close q.id = true := by
    intro q hq hid
    rw [← Bool.not_eq_false]
    exact fun hfalse => hf q hq hid (.inl hfalse)
  cases hfind : (oldestFirst s.record).find? fun c => c.id = tid with
  | none =>
    unfold acknowledgeThread
    rw [hfind]
    exact h
  | some top =>
    have hmem : top ∈ s.record.comments := mem_oldestFirst.1 (List.mem_of_find?_eq_some hfind)
    have hid : top.id = tid := by simpa using List.find?_some hfind
    by_cases hopen : top.closedAt = none
    · subst hid
      rw [acknowledgeThread_open clock hs hmem hopen]
      by_cases hempty : (repliesTo (oldestFirst s.record) top).isEmpty = true
      · rw [if_pos hempty]
        refine (h.tryAddressed clock hmem hopen ?_).tryClose clock hclose
        intro hask
        by_contra hnot
        obtain ⟨hadd, hawait⟩ := not_or.1 hnot
        exact hf top (mem_openQuestions.2 ⟨hmem, hask, hopen⟩) rfl
          (.inr ⟨Bool.eq_false_iff.2 hadd, repliesTo_isEmpty.1 hempty, not_not.1 hawait⟩)
      · rw [if_neg hempty]
        exact h.tryClose clock hclose
    · unfold acknowledgeThread
      rw [hfind]
      dsimp only
      rw [if_pos (Option.isSome_iff_ne_none.2 hopen)]
      exact h

theorem Acknowledged.threads {t : Discussion} (h : Acknowledged s t) (hs : s.WellFormed) {f : Faults}
    {threadIds : List CommentId} (hf : ∀ q ∈ s.openQuestions, q.id ∈ threadIds → ¬ s.Acknowledges f q) :
    Acknowledged s (threadIds.foldl (acknowledgeThread clock f (oldestFirst s.record)) t) := by
  induction threadIds generalizing t with
  | nil => exact h
  | cons tid threadIds ih =>
    refine ih (h.thread clock hs ?_) ?_
    · intro q hq hid
      exact hf q hq (by rw [hid]; exact List.mem_cons_self)
    · intro q hq hid
      exact hf q hq (List.mem_cons_of_mem _ hid)

theorem acknowledge_iff (hs : s.WellFormed) (hauth : s.Authentic) (f : Faults) (threadIds : List CommentId) :
    (s.KeepsOpen (s.acknowledgeUnansweredThreads clock f threadIds) ∧
      (s.acknowledgeUnansweredThreads clock f threadIds).Authentic) ↔ s.Sound (.acknowledge f threadIds) := by
  unfold acknowledgeUnansweredThreads
  cases hlist : f.list with
  | true =>
    constructor
    · intro _ hf
      rw [hlist] at hf
      cases hf
    · exact fun _ => ⟨fun _ hq => hq, hauth⟩
  | false =>
    constructor
    · rintro ⟨hkeep, -⟩ _ q hq hid hack
      exact closed_by_acknowledge clock hs hq hid hack (hkeep q hq)
    · intro hsound
      have hdone := Acknowledged.threads clock ⟨hs, hauth, fun _ hq => hq, .refl s⟩ hs (hsound hlist)
      exact ⟨hdone.keepsOpen, hdone.authentic⟩

/-! ## Every run -/

theorem complete_iff (hs : s.WellFormed) (listed : Bool) : s.Complete listed ↔ s.Sound (.resume listed) := by
  cases listed with
  | false =>
    constructor
    · intro h q hq hask _ c hc hparent hbody hhuman
      exact List.not_mem_nil (h q hq hask c hc hparent hbody hhuman).1
    · intro h q hq hask c hc hparent hbody hhuman
      exact absurd hhuman (h q hq hask (fun hfalse => (by cases hfalse)) c hc hparent hbody)
  | true =>
    constructor
    · intro h q hq hask hopen c hc hparent hbody hhuman
      obtain ⟨q', hq', -, hclosed, -, hparent', -⟩ := mem_handedReplies.1 (h q hq hask c hc hparent hbody hhuman).1
      have hqq : q' = q := by
        rw [hparent] at hparent'
        exact hs.eq_of_id (mem_oldestFirst.1 hq') hq (Option.some.inj hparent').symm
      rw [hqq, hopen rfl] at hclosed
      cases hclosed
    · intro h q hq hask c hc hparent hbody hhuman
      by_cases hopen : q.closedAt = none
      · exact absurd hhuman (h q hq hask (fun _ => hopen) c hc hparent hbody)
      · have hhanded : c ∈ handedReplies (s.listing true) :=
          mem_handedReplies.2 ⟨q, mem_oldestFirst.2 hq, hask, Option.isSome_iff_ne_none.2 hopen, mem_oldestFirst.2 hc,
            hparent, hbody⟩
        exact ⟨hhanded, (shows_collectAskUserReplies _).contains_body hhanded⟩

theorem wellFormed_perform (hs : s.WellFormed) (e : ThreadEvent) : (s.perform clock settings e).WellFormed := by
  cases e with
  | addComment w body author parentId => exact wellFormed_addComment clock hs w body author parentId
  | closeThread w cid => exact wellFormed_closeThread clock hs cid
  | answer w body author requiresChange =>
    obtain ⟨_, _, _, hedit, -⟩ := answer_edit clock w body author requiresChange
    exact hedit.wellFormed hs
  | move w dst note blockReason =>
    obtain ⟨_, hedit, -⟩ := move_edit clock dst note blockReason
    exact hedit.wellFormed hs
  | resumeBlocked w note eventNote =>
    obtain ⟨_, _, hedit, -⟩ :=
      resumeBlocked_edit clock settings w note eventNote
    exact hedit.wellFormed hs
  | elsewhere cid => exact ⟨hs.nodup, hs.parents, hs.humans⟩
  | startRun stage => exact ⟨hs.nodup, hs.parents, hs.humans⟩
  | acknowledge f threadIds =>
    show (s.acknowledgeUnansweredThreads clock f threadIds).WellFormed
    unfold acknowledgeUnansweredThreads
    cases f.list with
    | true => exact hs
    | false => exact (later_acknowledge clock hs f _ threadIds).1
  | resume listed => exact hs

/-- Only a resume hands anything on. -/
theorem right_iff {e : ThreadEvent} (hno : ∀ listed, e ≠ .resume listed) :
    Right clock settings s e ↔ ((e.byMachine = true → s.KeepsOpen (s.perform clock settings e)) ∧
      (s.perform clock settings e).Authentic) := by
  constructor
  · exact fun h => ⟨h.keepsOpen, h.authentic⟩
  · exact fun h => ⟨h.1, h.2, fun listed heq => absurd heq (hno listed)⟩

/-- **Event by event**: an event does right exactly if it meets the condition. -/
theorem right_iff_sound (hs : s.WellFormed) (hauth : s.Authentic) (e : ThreadEvent) :
    Right clock settings s e ↔ s.Sound e := by
  cases e with
  | addComment w body author parentId =>
    rw [right_iff clock settings (fun _ h => (by cases h)), ← addComment_iff clock hs hauth w body author parentId]
    exact and_congr_left' (by rw [ThreadEvent.byMachine, decide_eq_true_eq]; rfl)
  | closeThread w cid =>
    rw [right_iff clock settings (fun _ h => (by cases h)), ← closeThread_iff clock hs hauth w cid]
    exact and_congr_left' (by rw [ThreadEvent.byMachine, decide_eq_true_eq]; rfl)
  | answer w body author requiresChange =>
    rw [right_iff clock settings (fun _ h => (by cases h)), ← answer_iff clock hs hauth w body author requiresChange]
    exact and_congr_left' (by rw [ThreadEvent.byMachine, decide_eq_true_eq]; rfl)
  | move w dst note blockReason =>
    rw [right_iff clock settings (fun _ h => (by cases h)), ← move_iff clock hs hauth w dst note blockReason]
    exact and_congr_left' (by rw [ThreadEvent.byMachine, decide_eq_true_eq]; rfl)
  | resumeBlocked w note eventNote =>
    obtain ⟨hkeep, hauth'⟩ := resumeBlocked_right clock settings hs hauth w note eventNote
    rw [right_iff clock settings (fun _ h => (by cases h))]
    exact iff_of_true ⟨fun _ => hkeep, hauth'⟩ trivial
  | elsewhere cid =>
    rw [right_iff clock settings (fun _ h => (by cases h))]
    exact iff_of_true ⟨fun _ _ hq => hq, hauth.shows, hauth.humans⟩ trivial
  | startRun stage =>
    rw [right_iff clock settings (fun _ h => (by cases h))]
    exact iff_of_true ⟨fun _ _ hq => hq, hauth.shows, hauth.humans⟩ trivial
  | acknowledge f threadIds =>
    rw [right_iff clock settings (fun _ h => (by cases h)), ← acknowledge_iff clock hs hauth f threadIds]
    exact and_congr_left' ⟨fun h => h rfl, fun h _ => h⟩
  | resume listed =>
    rw [← complete_iff hs listed]
    constructor
    · exact fun h => h.complete listed rfl
    · intro h
      refine ⟨fun _ _ hq => hq, hauth, ?_⟩
      intro listed' heq
      cases heq
      exact h

theorem wellFormed_start (tid : TicketId) (ticket : Ticket) (events : List TicketEvent) :
    (start tid ticket events).WellFormed :=
  ⟨.nil, fun _ h => (by cases h), fun _ h => (by cases h)⟩

theorem authentic_start (tid : TicketId) (ticket : Ticket) (events : List TicketEvent) :
    (start tid ticket events).Authentic := by
  rw [authentic_iff]
  exact fun _ h => (by cases h)

end Events

/-- **Operator answers are authentic, exactly.** From a ticket without comments, the runs in which machines close
    no question, only humans' replies are handed on and every human's reply is, are the runs whose events meet
    the condition. -/
theorem operator_answers_are_authentic (clock : Nat → DateTime) (settings : Settings) (tid : TicketId)
    (ticket : Ticket) (events : List TicketEvent) (l : List ThreadEvent) (t : Discussion) :
    Run (Guarded (Right clock settings) (Step clock settings)) (start tid ticket events) l t ↔
      Run (Guarded Sound (Step clock settings)) (start tid ticket events) l t := by
  apply Run.guarded_congr (I := fun s => s.WellFormed ∧ s.Authentic)
  · rintro s e t ⟨hs, -⟩ hright ⟨-, rfl⟩
    exact ⟨wellFormed_perform clock settings hs e, hright.authentic⟩
  · rintro s e ⟨hs, hauth⟩
    exact right_iff_sound clock settings hs hauth e
  · exact ⟨wellFormed_start tid ticket events, authentic_start tid ticket events⟩

/-- The reviewer asks whether an endpoint may go; the pause times out, and the operator sends the ticket back to
    `ready` without an answer. The implement run starts with the question open, and the acknowledgement answers
    it. A second question is answered, review sends the ticket back, and the agent resumes. -/
def unansweredQuestion : List ThreadEvent :=
  [.addComment .machine "[ASK_USER]\n\nMay /v1 go?" "review" none,
    .move .machine .awaitingUserReply (some "review asks") none,
    .move .machine .blocked (some "no reply in time") none,
    .move .human .ready (some "carry on") none,
    .startRun .implement,
    .acknowledge {} [1],
    .addComment .machine "[ASK_USER]\n\nWhich port?" "implement" none,
    .move .machine .awaitingUserReply (some "implement asks") none,
    .answer .human "8080" "operator" false,
    .move .machine .ready (some "changes requested") none,
    .resume true]

def reviewedTicket : Ticket := { title := "Retire /v1", state := .codeReview, createdAt := 0, updatedAt := 0 }

/-- **The operator never answered the first question**, and the resumed agent reads that they did. -/
theorem addressed_is_handed_as_answer :
    ∃ t, Run (Step id {}) (start "T1" reviewedTicket []) unansweredQuestion t ∧
      collectAskUserReplies (some (oldestFirst t.record)) =
        "[Q: \"]\n\nMay /v1 go?\"]: Addressed.\n[Q: \"]\n\nWhich port?\"]: 8080" ∧
      t.humanIds = [4] ∧ ∃ c ∈ handedReplies (some (oldestFirst t.record)), c.id = 2 := by
  refine ⟨_, .cons ⟨trivial, rfl⟩ (.cons ⟨trivial, rfl⟩ (.cons ⟨trivial, rfl⟩ (.cons ⟨trivial, rfl⟩
    (.cons ⟨trivial, rfl⟩ (.cons ⟨?_, rfl⟩ (.cons ⟨trivial, rfl⟩ (.cons ⟨trivial, rfl⟩ (.cons ⟨trivial, rfl⟩
      (.cons ⟨trivial, rfl⟩ (.single ⟨trivial, rfl⟩)))))))))), ?_, ?_, ?_⟩
  · exact List.Perm.refl [1]
  · decide +kernel
  · decide +kernel
  · decide +kernel

end Discussion
end Stages
end RobotsixMill
