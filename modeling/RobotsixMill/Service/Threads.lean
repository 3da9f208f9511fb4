import RobotsixMill.Service.History
import RobotsixMill.Service.Ops

/-!
# `Service.Threads` — the comment calls on the record of one ticket

`add_comment`, `close_thread` and `answer_pending_question` open sessions on one ticket. What they commit
to its record is told here apart from the boards: `fetch`, the id of the new comment and the clock are
arguments, a refused call leaves the record as it was.

- `addComment_get` — the call of `Service.Ops` stores its record;
- `addCommentRecord_cases`, `closeThreadRecord_cases`, `movedRecord_cases` — every call appends comments and closes
  some threads; what closing leaves alone.
-/

namespace RobotsixMill
namespace Service
open RobotsixMill.Core Lib

/-! ## The calls -/

/-- What `_maybe_resume_awaiting_user_reply` commits. -/
def maybeResumeRecord (tid : TicketId) (now : Nat → DateTime) (r : TicketRecord) : TicketRecord :=
  match autoResumeDst r with
  | none => r
  | some dst => autoResumeRecord tid now dst r

/-- `add_comment`; `now` is the clock of its session, `now'` that of the auto-resume behind it. -/
def addCommentRecord (tid : TicketId) (now now' : Nat → DateTime) (cid : CommentId) (body author : String)
    (parentId : Option CommentId) (r : TicketRecord) : TicketRecord :=
  let comment : Comment :=
    { id := cid, body := body, author := author, parentId := parentId, createdAt := now 1 }
  match parentId with
  | none => { r with comments := r.comments ++ [comment] }
  | some pid =>
    match r.comments.find? fun c => c.id = pid with
    | none => r
    | some parent =>
      if answersQuestion r.ticket parent then
        let cs := setClosedAt pid (some (now 0)) r.comments ++ [comment]
        maybeResumeRecord tid now' { r with comments := cs }
      else { r with comments := r.comments ++ [comment] }

/-- `close_thread`. -/
def closeThreadRecord (tid : TicketId) (now now' : Nat → DateTime) (cid : CommentId) (r : TicketRecord) :
    TicketRecord :=
  match r.comments.find? fun c => c.id = cid with
  | none => r
  | some comment =>
    if comment.parentId.isSome then r
    else if comment.closedAt.isSome then r
    else maybeResumeRecord tid now' { r with comments := setClosedAt cid (some (now 0)) r.comments }

/-- `transition`: the record as it was when the move is refused or re-closes a closed epic. -/
def movedRecord (tid : TicketId) (now : Nat → DateTime) (dst : State) (note blockReason : Option String)
    (r : TicketRecord) : TicketRecord :=
  if transitionNoop r.ticket dst then r
  else
    match transitionRefusal tid dst r with
    | some _ => r
    | none => transitionRecord tid now dst note blockReason r

/-- The comment `answer_pending_question` leaves on a ticket it takes out of `blocked`. -/
def unblockedBody (requiresChange : Bool) (updated : Ticket) : String :=
  let target := if requiresChange then "ready"
    else match updated.pausedFrom with
      | some s => s.value
      | none => "originating state"
  "Operator answered the [ASK_USER] question — resuming " ++ s!"from BLOCKED back to {target}."

/-- The part of `answer_pending_question` that takes a ticket out of `blocked`. The move is never refused,
    since only a ticket blocked from `awaiting_user_reply` can be answered. -/
def unblockedRecord (tid : TicketId) (now : Nat → Nat → DateTime) (noteId : CommentId) (requiresChange : Bool)
    (answered : TicketRecord) : TicketRecord :=
  if answered.ticket.state = .blocked then
    let updated := movedRecord tid (now 1) .awaitingUserReply
      (some "operator answered — resuming from ask_user timeout block") none answered
    addCommentRecord tid (now 2) (now 3) noteId (unblockedBody requiresChange updated.ticket) "system" none
      updated
  else answered

/-- `answer_pending_question`; `now 0, now 1, …` are the clocks of its sessions. -/
def answerPendingQuestionRecord (tid : TicketId) (now : Nat → Nat → DateTime) (replyId noteId : CommentId)
    (body author : String) (requiresChange : Bool) (r : TicketRecord) : TicketRecord :=
  if !answerable r.ticket then r
  else
    match latestOpenThread r.comments with
    | none => r
    | some ask_thread =>
      let reply : Comment :=
        { id := replyId, body := body, author := author, parentId := some ask_thread.id, createdAt := now 0 0 }
      let answered : TicketRecord :=
        { r with comments := setClosedAt ask_thread.id (some (now 0 1)) (r.comments ++ [reply]) }
      let unblocked := unblockedRecord tid now noteId requiresChange answered
      if requiresChange then movedRecord tid (now 3) .ready (some body) none unblocked
      else maybeResumeRecord tid (now 3) unblocked

/-! ## The call of `Service.Ops` stores its record -/

section Store

variable {env : Env} {svc : BoardId} {σ : Mill} {k : Key} {r : TicketRecord}

theorem get_maybeResume (k : Key) {cs : List Comment} :
    (maybeResumeAwaitingUserReply env k (σ.putComments k r cs)).records.get k =
      some (maybeResumeRecord k.2 ((σ.putComments k r cs).now env) { r with comments := cs }) := by
  have hget : (σ.putComments k r cs).records.get k = some { r with comments := cs } := Table.get_put_self ..
  unfold maybeResumeAwaitingUserReply maybeResumeRecord
  rw [hget]
  dsimp only
  cases autoResumeDst { r with comments := cs } with
  | none => exact hget
  | some dst => exact Table.get_put_self ..

theorem addComment_get {tid : TicketId} {body author : String} {parentId : Option CommentId}
    (hfetch : fetch env svc σ tid = .ok (k, r)) (hok : (addComment env svc tid body author parentId σ).2 = .ok ()) :
    ∃ now', (addComment env svc tid body author parentId σ).1.records.get k =
      some (addCommentRecord tid (σ.now env) now' (nextCommentId σ k.1) body author parentId r) := by
  have hid : k.2 = tid := (get_of_fetch hfetch).1
  unfold addComment at hok ⊢
  unfold addCommentRecord
  rw [hfetch] at hok ⊢
  dsimp only at hok ⊢
  cases parentId with
  | none => exact ⟨σ.now env, Table.get_put_self ..⟩
  | some pid =>
    dsimp only at hok ⊢
    cases hparent : r.comments.find? (fun c => c.id = pid) with
    | none =>
      rw [hparent] at hok
      dsimp only at hok
      split at hok <;> cases hok
    | some parent =>
      dsimp only
      by_cases hanswers : answersQuestion r.ticket parent = true
      · rw [if_pos hanswers]
        simp only [if_pos hanswers]
        rw [get_maybeResume, hid]
        exact ⟨_, rfl⟩
      · rw [if_neg hanswers]
        simp only [if_neg hanswers]
        exact ⟨σ.now env, Table.get_put_self ..⟩

end Store

/-! ## What a call does to the comments -/

/-- A comment after a call: closed at the time `stamp` gives, if it gives one. -/
def touched (stamp : Comment → Option DateTime) (c : Comment) : Comment :=
  { c with closedAt := (stamp c).or c.closedAt }

theorem touched_of_none {stamp : Comment → Option DateTime} {c : Comment} (h : stamp c = none) :
    touched stamp c = c := by
  show { c with closedAt := (stamp c).or c.closedAt } = c
  rw [h]
  rfl

theorem closedAt_touched_eq_none {stamp : Comment → Option DateTime} {c : Comment} :
    (touched stamp c).closedAt = none ↔ stamp c = none ∧ c.closedAt = none :=
  Option.or_eq_none_iff

/-- The stamp of closing the comment `cid`. -/
def stampId (cid : CommentId) (now : DateTime) (c : Comment) : Option DateTime :=
  if c.id = cid then some now else none

theorem setClosedAt_eq_map (cid : CommentId) (now : DateTime) (cs : List Comment) :
    setClosedAt cid (some now) cs = cs.map (touched (stampId cid now)) := by
  apply List.map_congr_left
  intro c _
  by_cases hid : c.id = cid
  · rw [if_pos hid, touched, stampId, if_pos hid]
    rfl
  · rw [if_neg hid, touched_of_none (if_neg hid)]

/-- The stamp of closing every open `[ASK_USER]` thread. -/
def stampAsked (now : DateTime) (c : Comment) : Option DateTime :=
  if isAskUserThread c && c.closedAt.isNone then some now else none

theorem closeAskUserThreads_eq_map (now : DateTime) (cs : List Comment) :
    closeAskUserThreads now cs = cs.map (touched (stampAsked now)) := by
  apply List.map_congr_left
  intro c _
  by_cases hopen : (isAskUserThread c && c.closedAt.isNone) = true
  · rw [if_pos hopen, touched, stampAsked, if_pos hopen]
    rfl
  · rw [if_neg hopen, touched_of_none (if_neg hopen)]

/-- Two calls in a row. -/
def stampBoth (first second : Comment → Option DateTime) (c : Comment) : Option DateTime :=
  (second (touched first c)).or (first c)

theorem touched_touched (first second : Comment → Option DateTime) (c : Comment) :
    touched second (touched first c) = touched (stampBoth first second) c := by
  show { c with closedAt := (second (touched first c)).or ((first c).or c.closedAt) } =
    { c with closedAt := ((second (touched first c)).or (first c)).or c.closedAt }
  rw [Option.or_assoc]

@[simp] theorem maybeResumeRecord_comments (tid : TicketId) (now : Nat → DateTime) (r : TicketRecord) :
    (maybeResumeRecord tid now r).comments = r.comments := by
  unfold maybeResumeRecord
  cases autoResumeDst r <;> rfl

/-- An auto-resume needs every question closed. -/
theorem maybeResumeRecord_of_open (tid : TicketId) (now : Nat → DateTime) {r : TicketRecord} {q : Comment}
    (hq : q ∈ r.comments) (hask : isAskUserThread q = true) (hopen : q.closedAt = none) :
    maybeResumeRecord tid now r = r := by
  unfold maybeResumeRecord
  cases hd : autoResumeDst r with
  | none => rfl
  | some dst =>
      obtain ⟨-, hanswered, -⟩ := autoResumeDst_eq_some.1 hd
      have hall := List.all_eq_true.1 (Bool.and_eq_true_iff.1 hanswered).2
      have hclosed := hall q (List.mem_filter.2 ⟨hq, hask⟩)
      rw [hopen] at hclosed
      cases hclosed

/-- An auto-resume takes a ticket out of the pause, it never begins one. -/
theorem awaiting_of_maybeResumeRecord {tid : TicketId} {now : Nat → DateTime} {r : TicketRecord}
    (h : (maybeResumeRecord tid now r).ticket.state = .awaitingUserReply) :
    r.ticket.state = .awaitingUserReply := by
  unfold maybeResumeRecord at h
  cases hd : autoResumeDst r with
  | none => rwa [hd] at h
  | some dst => exact (autoResumeDst_eq_some.1 hd).1

/-! ## What a call may do, case by case -/

/-- The comment `add_comment` writes. -/
def newComment (now : Nat → DateTime) (cid : CommentId) (body author : String) (parentId : Option CommentId) :
    Comment :=
  { id := cid, body := body, author := author, parentId := parentId, createdAt := now 1 }

/-- `add_comment` is refused, or adds the comment, or adds it and closes the question it answers. -/
theorem addCommentRecord_cases (tid : TicketId) (now now' : Nat → DateTime) (cid : CommentId)
    (body author : String) (parentId : Option CommentId) (r : TicketRecord) :
    (∃ pid, parentId = some pid ∧ r.comments.find? (fun c => c.id = pid) = none ∧
      addCommentRecord tid now now' cid body author parentId r = r) ∨
    ((∀ pid, parentId = some pid →
        ∃ parent, r.comments.find? (fun c => c.id = pid) = some parent ∧ answersQuestion r.ticket parent = false) ∧
      addCommentRecord tid now now' cid body author parentId r =
        { r with comments := r.comments ++ [newComment now cid body author parentId] }) ∨
    (∃ pid parent, parentId = some pid ∧ r.comments.find? (fun c => c.id = pid) = some parent ∧
      answersQuestion r.ticket parent = true ∧
      addCommentRecord tid now now' cid body author parentId r = maybeResumeRecord tid now'
        { r with comments := r.comments.map (touched (stampId pid (now 0))) ++
          [newComment now cid body author parentId] }) := by
  unfold addCommentRecord
  cases parentId with
  | none => exact .inr (.inl ⟨fun _ h => (by cases h), rfl⟩)
  | some pid =>
    dsimp only
    cases hfind : r.comments.find? fun c => c.id = pid with
    | none => exact .inl ⟨pid, rfl, hfind, rfl⟩
    | some parent =>
      dsimp only
      cases hans : answersQuestion r.ticket parent with
      | false =>
        refine .inr (.inl ⟨?_, rfl⟩)
        intro pid' h
        obtain rfl := Option.some.inj h
        exact ⟨parent, hfind, hans⟩
      | true =>
        refine .inr (.inr ⟨pid, parent, rfl, hfind, hans, ?_⟩)
        rw [if_pos rfl, setClosedAt_eq_map]
        rfl

/-- `close_thread` is refused, or closes an open thread. -/
theorem closeThreadRecord_cases (tid : TicketId) (now now' : Nat → DateTime) (cid : CommentId)
    (r : TicketRecord) :
    ((∀ c, r.comments.find? (fun c => c.id = cid) = some c → c.parentId ≠ none ∨ c.closedAt ≠ none) ∧
      closeThreadRecord tid now now' cid r = r) ∨
    (∃ c, r.comments.find? (fun c => c.id = cid) = some c ∧ c.parentId = none ∧ c.closedAt = none ∧
      closeThreadRecord tid now now' cid r = maybeResumeRecord tid now'
        { r with comments := r.comments.map (touched (stampId cid (now 0))) }) := by
  unfold closeThreadRecord
  cases hfind : r.comments.find? fun c => c.id = cid with
  | none => exact .inl ⟨fun _ h => (by cases h), rfl⟩
  | some c =>
    dsimp only
    cases hroot : c.parentId with
    | some p =>
      refine .inl ⟨?_, rfl⟩
      intro c' h
      obtain rfl := Option.some.inj h
      exact .inl (by rw [hroot]; exact Option.some_ne_none p)
    | none =>
      cases hclosed : c.closedAt with
      | some at_ =>
        refine .inl ⟨?_, rfl⟩
        intro c' h
        obtain rfl := Option.some.inj h
        exact .inr (by rw [hclosed]; exact Option.some_ne_none at_)
      | none =>
        refine .inr ⟨c, rfl, hroot, hclosed, ?_⟩
        rw [← setClosedAt_eq_map]
        rfl

/-- `transition` is refused, or moves the ticket and closes the threads it answers. -/
theorem movedRecord_cases (tid : TicketId) (now : Nat → DateTime) (dst : State)
    (note blockReason : Option String) (r : TicketRecord) :
    ((transitionNoop r.ticket dst = true ∨ transitionRefusal tid dst r ≠ none) ∧
      movedRecord tid now dst note blockReason r = r) ∨
    (transitionNoop r.ticket dst = false ∧ transitionRefusal tid dst r = none ∧
      movedRecord tid now dst note blockReason r = transitionRecord tid now dst note blockReason r) := by
  unfold movedRecord
  cases hnoop : transitionNoop r.ticket dst with
  | true => exact .inl ⟨.inl rfl, rfl⟩
  | false =>
    cases href : transitionRefusal tid dst r with
    | some e => exact .inl ⟨.inr (Option.some_ne_none e), rfl⟩
    | none => exact .inr ⟨rfl, rfl, rfl⟩

/-- The comments of a moved ticket. -/
theorem transitionRecord_comments (tid : TicketId) (now : Nat → DateTime) (dst : State)
    (note blockReason : Option String) (r : TicketRecord) :
    (transitionRecord tid now dst note blockReason r).comments =
      r.comments.map (touched fun c => if closesThreads r.ticket dst then stampAsked (now 0) c else none) := by
  show (if closesThreads r.ticket dst then closeAskUserThreads (now 0) r.comments else r.comments) = _
  cases closesThreads r.ticket dst with
  | true => exact closeAskUserThreads_eq_map _ _
  | false =>
    symm
    show r.comments.map (touched fun _ => none) = r.comments
    exact List.map_id'' (fun c => touched_of_none rfl) _

/-- From a pause a ticket can always be sent back to `ready`. -/
theorem movedRecord_ready {tid : TicketId} {now : Nat → DateTime} {note : Option String} {r : TicketRecord}
    (hs : r.ticket.state = .awaitingUserReply) :
    movedRecord tid now .ready note none r = transitionRecord tid now .ready note none r := by
  have hnoop : transitionNoop r.ticket .ready = false := by
    simp [transitionNoop, TERMINAL_EPIC_STATES]
  have href : transitionRefusal tid .ready r = none := by
    simp [transitionRefusal, hs, canTransition, TRANSITIONS, TERMINAL_STATES]
  unfold movedRecord
  rw [hnoop, href]
  rfl

/-- A ticket blocked from a pause can always be put back into it. -/
theorem movedRecord_awaiting {tid : TicketId} {now : Nat → DateTime} {note : Option String}
    {r : TicketRecord} (hb : r.ticket.state = .blocked) (hbf : r.ticket.blockedFrom = some .awaitingUserReply) :
    movedRecord tid now .awaitingUserReply note none r =
      transitionRecord tid now .awaitingUserReply note none r := by
  have hnoop : transitionNoop r.ticket .awaitingUserReply = false := by
    simp [transitionNoop, TERMINAL_EPIC_STATES]
  have href : transitionRefusal tid .awaitingUserReply r = none := by
    simp [transitionRefusal, hb, hbf, canTransition, TERMINAL_STATES]
  unfold movedRecord
  rw [hnoop, href]
  rfl

/-- The body of the system's comment asks nothing. -/
theorem not_ask_unblockedBody (requiresChange : Bool) (t : Ticket) :
    sqlLike ASK_USER_MARKER.toList (unblockedBody requiresChange t).toList = false := by
  unfold unblockedBody
  rw [String.toList_append]
  rfl

/-- After the unblocking the ticket is paused; at most the system's comment has come. -/
theorem unblockedRecord_spec (tid : TicketId) (now : Nat → Nat → DateTime) (noteId : CommentId)
    (requiresChange : Bool) {answered : TicketRecord} (hans : answerable answered.ticket = true) :
    (unblockedRecord tid now noteId requiresChange answered).ticket.state = .awaitingUserReply ∧
      ∃ notes, (unblockedRecord tid now noteId requiresChange answered).comments = answered.comments ++ notes ∧
        ∀ c ∈ notes, c.id = noteId ∧ c.parentId = none ∧ c.closedAt = none ∧ isAskUserThread c = false ∧
          notes = [c] := by
  unfold unblockedRecord
  by_cases hb : answered.ticket.state = .blocked
  · have hbf : answered.ticket.blockedFrom = some .awaitingUserReply := by
      simpa [answerable, hb] using hans
    rw [if_pos hb, movedRecord_awaiting hb hbf]
    generalize hupdated : transitionRecord tid (now 1) .awaitingUserReply _ none answered = updated
    have hstate : updated.ticket.state = .awaitingUserReply := by
      rw [← hupdated]
      rfl
    have hkeep : closesThreads answered.ticket .awaitingUserReply = false := by
      simp [closesThreads, forceClosesThreads]
    have hcomments : updated.comments = answered.comments := by
      rw [← hupdated, transitionRecord_comments, hkeep]
      exact List.map_id'' (fun c => touched_of_none rfl) _
    refine ⟨hstate, [newComment (now 2) noteId (unblockedBody requiresChange updated.ticket) "system" none], ?_, ?_⟩
    · show updated.comments ++ _ = _
      rw [hcomments]
      rfl
    · intro c hc
      obtain rfl := List.mem_singleton.1 hc
      exact ⟨rfl, rfl, rfl, not_ask_unblockedBody _ _, rfl⟩
  · rw [if_neg hb]
    refine ⟨?_, [], (List.append_nil _).symm, fun c hc => (by cases hc)⟩
    simpa [answerable, hb] using hans

/-- An answer is refused, or adds the reply and closes the thread it picks; if it requires a change, it closes
    every open thread. A ticket it takes out of `blocked` gets a comment of the system too. -/
theorem answerPendingQuestionRecord_cases {replyId : CommentId} {r : TicketRecord} (tid : TicketId)
    (now : Nat → Nat → DateTime) (noteId : CommentId) (body author : String) (requiresChange : Bool)
    (hfresh : ∀ c ∈ r.comments, c.id ≠ replyId) :
    ((answerable r.ticket = false ∨ latestOpenThread r.comments = none) ∧
      answerPendingQuestionRecord tid now replyId noteId body author requiresChange r = r) ∨
    (∃ ask stamp notes, answerable r.ticket = true ∧ latestOpenThread r.comments = some ask ∧
      (∀ c, stamp c ≠ none ↔ c.id = ask.id ∨
        (requiresChange = true ∧ isAskUserThread c = true ∧ c.closedAt = none)) ∧
      (∀ c ∈ notes, c.id = noteId ∧ c.parentId = none ∧ c.closedAt = none ∧ notes = [c]) ∧
      (answerPendingQuestionRecord tid now replyId noteId body author requiresChange r).comments =
        r.comments.map (touched stamp) ++ ⟨replyId, body, author, some ask.id, none, now 0 0⟩ :: notes) := by
  unfold answerPendingQuestionRecord
  cases hans : answerable r.ticket with
  | false => exact .inl ⟨.inl rfl, rfl⟩
  | true =>
    cases hask : latestOpenThread r.comments with
    | none => exact .inl ⟨.inr rfl, rfl⟩
    | some ask =>
      refine .inr ?_
      dsimp only [Bool.not_true, Bool.false_eq_true, ite_false]
      generalize hreply : (⟨replyId, body, author, some ask.id, none, now 0 0⟩ : Comment) = reply
      have hne : reply.id ≠ ask.id := by
        have hmem : ask ∈ openAskUserThreads r.comments := mem_of_latestBy hask
        rw [← hreply]
        exact (hfresh ask (List.mem_filter.1 hmem).1).symm
      have hcomments : setClosedAt ask.id (some (now 0 1)) (r.comments ++ [reply]) =
          r.comments.map (touched (stampId ask.id (now 0 1))) ++ [reply] := by
        rw [setClosedAt_eq_map, List.map_append, List.map_singleton, touched_of_none (if_neg hne)]
      rw [hcomments]
      generalize hr : ({ r with comments := r.comments.map (touched (stampId ask.id (now 0 1))) ++ [reply] } :
        TicketRecord) = answered
      have hans' : answerable answered.ticket = true := by
        rw [← hr]
        exact hans
      obtain ⟨hs, notes, hnotes, hnote⟩ :=
        unblockedRecord_spec tid now noteId requiresChange hans'
      have hcomments' : answered.comments = r.comments.map (touched (stampId ask.id (now 0 1))) ++ [reply] := by
        rw [← hr]
      rw [hcomments', List.append_assoc] at hnotes
      generalize unblockedRecord tid now noteId requiresChange answered = unblocked at hs hnotes ⊢
      have hnote' : ∀ c ∈ notes, c.id = noteId ∧ c.parentId = none ∧ c.closedAt = none ∧ notes = [c] := by
        intro c hc
        obtain ⟨hid, hroot, hopen, -, heq⟩ := hnote c hc
        exact ⟨hid, hroot, hopen, heq⟩
      cases requiresChange with
      | false =>
        refine ⟨ask, stampId ask.id (now 0 1), notes, rfl, rfl, ?_, hnote', ?_⟩
        · intro c
          simp [stampId]
        · show (maybeResumeRecord tid (now 3) unblocked).comments = _
          rw [maybeResumeRecord_comments, hnotes, hreply]
          rfl
      | true =>
        -- back to `ready`: every thread that is still open is closed as well
        refine ⟨ask, stampBoth (stampId ask.id (now 0 1)) (stampAsked (now 3 0)), notes, rfl, rfl, ?_, hnote', ?_⟩
        · intro c
          by_cases hid : c.id = ask.id
          · simp [stampBoth, stampId, hid]
          · have htouched : touched (stampId ask.id (now 0 1)) c = c := touched_of_none (if_neg hid)
            rw [stampBoth, htouched]
            simp [stampId, stampAsked, hid]
        · show (movedRecord tid (now 3) .ready (some body) none unblocked).comments = _
          have hclose : closesThreads unblocked.ticket .ready = true := by
            simp [closesThreads, hs]
          have hreply' : isAskUserThread reply = false := by
            rw [← hreply]
            rfl
          rw [movedRecord_ready hs, transitionRecord_comments, hclose, hnotes, hreply, List.map_append, List.map_map]
          congr 1
          · apply List.map_congr_left
            intro c _
            exact touched_touched _ _ c
          · have hsame : ∀ c ∈ [reply] ++ notes,
                touched (fun c => if true then stampAsked (now 3 0) c else none) c = id c := by
              intro c hc
              have hask : isAskUserThread c = false := by
                rcases List.mem_append.1 hc with hc | hc
                · obtain rfl := List.mem_singleton.1 hc
                  exact hreply'
                · exact (hnote c hc).2.2.2.1
              exact touched_of_none (by simp [stampAsked, hask])
            rw [List.map_congr_left hsame, List.map_id]
            rfl

end Service
end RobotsixMill
