import RobotsixMill.Service.Threads

/-!
# `Stages.Pause` — questions, answers and the threads in between

A stage asks the operator with an `[ASK_USER]` thread, and a resumed agent is handed what was answered there
(`_collect_ask_user_replies`). Review feedback lives in the same threads: a run is given the threads open
when it starts, and `acknowledge_unanswered_threads` answers and closes the ones the agent left open.

`Discussion` is one ticket with its comments, and beside them who wrote them, which no row records.
`ThreadEvent` is what may happen to it: the comment calls of a human or of a machine, the moves that pause,
block and resume the ticket, the agent runs with their acknowledgement, and the resumes.
-/

namespace RobotsixMill
namespace Stages
open RobotsixMill.Core Lib Service

/-! ## Reading the threads -/

/-- `list_comments`: oldest first. -/
def oldestFirst (r : TicketRecord) : List Comment :=
  r.comments.insertionSort fun a b => a.createdAt ≤ b.createdAt

/-- A top-level comment that starts with the marker. -/
def isQuestion (c : Comment) : Bool := c.parentId.isNone && startsWith c.body ASK_USER_MARKER

/-- `children_by_parent.get(t.id, [])`. -/
def repliesTo (comments : List Comment) (t : Comment) : List Comment :=
  comments.filter fun c => decide (c.parentId = some t.id)

/-- `answered`: the questions that are closed. -/
def answeredThreads (comments : List Comment) : List Comment :=
  (comments.filter isQuestion).filter fun t => t.closedAt.isSome

/-- `(t.body or "[ASK_USER]")[9:].strip()[:80]`; the body holds the marker, so it is not empty. -/
def questionSnippet (t : Comment) : String := String.ofList ((stripChars (t.body.toList.drop 9)).take 80)

/-- `[r for r in replies if r.body]`. -/
def spokenReplies (comments : List Comment) (t : Comment) : List Comment :=
  (repliesTo comments t).filter fun r => decide (r.body ≠ "")

/-- The part of the text about one answered question. -/
def replyPart (comments : List Comment) (t : Comment) : String :=
  let question_snippet := questionSnippet t
  let reply_text := if (repliesTo comments t).isEmpty then "(closed without reply)"
    else "; ".intercalate ((spokenReplies comments t).map Comment.body)
  "[Q: \"" ++ question_snippet ++ "\"]: " ++ reply_text

/-- `_collect_ask_user_replies`; `none` when `list_comments` raises. -/
def collectAskUserReplies (comments : Option (List Comment)) : String :=
  match comments with
  | none => "(no operator reply found)"
  | some comments =>
    let answered := answeredThreads comments
    if answered.isEmpty then "(no operator reply found)"
    else "\n".intercalate (answered.map (replyPart comments))

/-- The comments `_collect_ask_user_replies` puts in the text as replies of the operator. -/
def handedReplies (comments : Option (List Comment)) : List Comment :=
  match comments with
  | none => []
  | some comments => (answeredThreads comments).flatMap (spokenReplies comments)

/-- A part of the text that shows these replies, and no other, under the question. -/
inductive ShowsPart : Comment → List Comment → String → Prop
  | unanswered (q : Comment) :
      ShowsPart q [] ("[Q: \"" ++ questionSnippet q ++ "\"]: " ++ "(closed without reply)")
  | answered (q : Comment) (shown : List Comment) :
      ShowsPart q shown ("[Q: \"" ++ questionSnippet q ++ "\"]: " ++ "; ".intercalate (shown.map Comment.body))

/-- A text that shows these replies, and no other. -/
inductive Shows : String → List Comment → Prop
  | nothing : Shows "(no operator reply found)" []
  | parts {l : List (Comment × List Comment × String)} (h : ∀ p ∈ l, ShowsPart p.1 p.2.1 p.2.2) :
      Shows ("\n".intercalate (l.map fun p => p.2.2)) (l.flatMap fun p => p.2.1)

theorem mem_repliesTo {comments : List Comment} {t c : Comment} :
    c ∈ repliesTo comments t ↔ c ∈ comments ∧ c.parentId = some t.id := by
  unfold repliesTo
  rw [List.mem_filter, decide_eq_true_eq]

theorem mem_spokenReplies {comments : List Comment} {t c : Comment} :
    c ∈ spokenReplies comments t ↔ c ∈ comments ∧ c.parentId = some t.id ∧ c.body ≠ "" := by
  unfold spokenReplies
  rw [List.mem_filter, decide_eq_true_eq, mem_repliesTo, and_assoc]

theorem mem_answeredThreads {comments : List Comment} {t : Comment} :
    t ∈ answeredThreads comments ↔ t ∈ comments ∧ isQuestion t = true ∧ t.closedAt.isSome = true := by
  unfold answeredThreads
  rw [List.mem_filter, List.mem_filter, and_assoc]

theorem mem_handedReplies {comments : List Comment} {c : Comment} :
    c ∈ handedReplies (some comments) ↔ ∃ q ∈ comments, isQuestion q = true ∧ q.closedAt.isSome = true ∧
      c ∈ comments ∧ c.parentId = some q.id ∧ c.body ≠ "" := by
  show c ∈ (answeredThreads comments).flatMap (spokenReplies comments) ↔ _
  rw [List.mem_flatMap]
  constructor
  · rintro ⟨q, hq, hc⟩
    obtain ⟨hmem, hask, hclosed⟩ := mem_answeredThreads.1 hq
    exact ⟨q, hmem, hask, hclosed, mem_spokenReplies.1 hc⟩
  · rintro ⟨q, hmem, hask, hclosed, hc⟩
    exact ⟨q, mem_answeredThreads.2 ⟨hmem, hask, hclosed⟩, mem_spokenReplies.2 hc⟩

theorem showsPart_replyPart (comments : List Comment) (t : Comment) :
    ShowsPart t (spokenReplies comments t) (replyPart comments t) := by
  unfold replyPart
  dsimp only
  by_cases hempty : (repliesTo comments t).isEmpty = true
  · have hnone : spokenReplies comments t = [] := by
      unfold spokenReplies
      rw [List.isEmpty_iff.1 hempty, List.filter_nil]
    rw [if_pos hempty, hnone]
    exact .unanswered t
  · rw [if_neg hempty]
    exact .answered t _

/-- **The text shows the replies that are handed on**, and no other. -/
theorem shows_collectAskUserReplies (comments : Option (List Comment)) :
    Shows (collectAskUserReplies comments) (handedReplies comments) := by
  cases comments with
  | none => exact .nothing
  | some comments =>
    show Shows (if (answeredThreads comments).isEmpty then "(no operator reply found)"
      else "\n".intercalate ((answeredThreads comments).map (replyPart comments)))
      ((answeredThreads comments).flatMap (spokenReplies comments))
    by_cases hnone : (answeredThreads comments).isEmpty = true
    · rw [if_pos hnone, List.isEmpty_iff.1 hnone]
      exact .nothing
    · rw [if_neg hnone]
      have hparts := Shows.parts
        (l := (answeredThreads comments).map fun t => (t, spokenReplies comments t, replyPart comments t)) ?_
      · rwa [List.map_map, List.flatMap_map] at hparts
      · intro p hp
        obtain ⟨t, -, rfl⟩ := List.mem_map.1 hp
        exact showsPart_replyPart comments t

/-- What a reply says is in a text that shows it. -/
theorem Shows.contains_body {text : String} {replies : List Comment} (h : Shows text replies) {c : Comment}
    (hc : c ∈ replies) : contains text c.body = true := by
  cases h with
  | nothing => cases hc
  | parts hparts =>
    obtain ⟨⟨q, shown, part⟩, hp, hshown⟩ := List.mem_flatMap.1 hc
    have hpart : ShowsPart q shown part := hparts _ hp
    refine contains_intercalate (List.mem_map_of_mem hp) ?_
    cases hpart with
    | unanswered => cases hshown
    | answered =>
      exact contains_append_right _ (contains_intercalate (List.mem_map_of_mem hshown) (containsChars_self _))

/-! ## The threads a run is given -/

/-- Authors whose comments are no feedback. -/
def NON_FEEDBACK_AUTHORS : List String := ["mill", "system", "operator"]

/-- The time of the last `human_issue_approval → ready` move of a sorted history. -/
def lastApproval : Option DateTime → List TicketEvent → Option DateTime
  | cutoff, prev :: cur :: rest =>
    let cutoff := if cur.state = .ready ∧ prev.state = .humanIssueApproval then some cur.at_ else cutoff
    lastApproval cutoff (cur :: rest)
  | cutoff, _ => cutoff

/-- `_drop_gate_era_comments`. -/
def dropGateEraComments (comments : List Comment) (events : List TicketEvent) : List Comment :=
  if comments.isEmpty || events.isEmpty then comments
  else
    let ordered := events.insertionSort fun a b => a.at_ ≤ b.at_
    match lastApproval none ordered with
    | none => comments
    | some cutoff => comments.filter fun c => decide (cutoff < c.createdAt)

/-- The stages that acknowledge threads. -/
inductive AgentStage
  | refine | implement
deriving DecidableEq, Repr

/-- `open_thread_ids` of `_load_implement_context`, and of the refine run, which keeps the gate era. -/
def openThreadIds (stage : AgentStage) (r : TicketRecord) : List CommentId :=
  let comments := (oldestFirst r).filter fun c => !NON_FEEDBACK_AUTHORS.contains c.author
  let comments := match stage with
    | .refine => comments
    | .implement => dropGateEraComments comments r.events
  (comments.filter fun c => c.parentId.isNone && c.closedAt.isNone).map Comment.id

/-! ## The discussion on a ticket -/

/-- Who makes a call: a human at the board, or an agent, a stage or the system. -/
inductive Writer
  | human | machine
deriving DecidableEq, Repr

structure Discussion where
  ticketId : TicketId
  record : TicketRecord
  /-- The largest comment id on the other tickets of the board. -/
  elsewhere : CommentId := 0
  /-- The comments a human wrote; no row says so. -/
  humanIds : List CommentId := []
  /-- The threads open when the agent run under way started. -/
  openIds : List CommentId := []
  ticks : Nat := 0

namespace Discussion

/-- The next `Comment.id` of the board. -/
def nextId (s : Discussion) : CommentId :=
  s.record.comments.foldl (fun m c => max m c.id) s.elsewhere + 1

/-- The comments that a call by `w` adds to the human's. -/
def signed (s : Discussion) (w : Writer) : List CommentId :=
  match w with
  | .human => s.nextId :: s.humanIds
  | .machine => s.humanIds

variable (clock : Nat → DateTime) (settings : Settings)

/-- The clock of the `i`-th session of a call. -/
def now (s : Discussion) (i : Nat) : Nat → DateTime :=
  fun j => clock (s.ticks + readingsPerSession * i + j)

/-- The call has committed `r`; its sessions are over. -/
def commit (s : Discussion) (r : TicketRecord) (humanIds : List CommentId) : Discussion :=
  { s with record := r, humanIds := humanIds, ticks := s.ticks + readingsPerSession * 4 }

/-- Was a comment added? A refused call writes none. -/
def grown (s : Discussion) (r : TicketRecord) : Bool := decide (s.record.comments.length < r.comments.length)

/-- A call that adds a comment by `w`, or is refused. -/
def written (s : Discussion) (w : Writer) (r : TicketRecord) : Discussion :=
  s.commit r (if s.grown r then s.signed w else s.humanIds)

def addComment (w : Writer) (body author : String) (parentId : Option CommentId) (s : Discussion) :
    Discussion :=
  s.written w
    (addCommentRecord s.ticketId (s.now clock 0) (s.now clock 1) s.nextId body author parentId s.record)

def closeThread (cid : CommentId) (s : Discussion) : Discussion :=
  s.commit (closeThreadRecord s.ticketId (s.now clock 0) (s.now clock 1) cid s.record) s.humanIds

/-- `answer_pending_question`; the system's own comment comes behind the reply. -/
def answer (w : Writer) (body author : String) (requiresChange : Bool) (s : Discussion) : Discussion :=
  s.written w
    (answerPendingQuestionRecord s.ticketId (s.now clock) s.nextId (s.nextId + 1) body author requiresChange
      s.record)

def move (dst : State) (note blockReason : Option String) (s : Discussion) : Discussion :=
  s.commit (movedRecord s.ticketId (s.now clock 0) dst note blockReason s.record) s.humanIds

/-- `resume_blocked`; the note becomes a comment. -/
def resumeBlocked (w : Writer) (note eventNote : String) (s : Discussion) : Discussion :=
  match resumeRefusal s.ticketId s.record.ticket with
  | some _ => s
  | none =>
    s.written w (resumeRecord settings s.ticketId (s.now clock 0) s.nextId note eventNote s.record)

/-! ### The acknowledgement -/

/-- Which calls of an acknowledgement raise; it logs them and goes on. -/
structure Faults where
  list : Bool := false
  add : CommentId → Bool := fun _ => false
  close : CommentId → Bool := fun _ => false

/-- `close_thread` under `try`. -/
def tryClose (f : Faults) (tid : CommentId) (s : Discussion) : Discussion :=
  if f.close tid then s else s.closeThread clock tid

/-- `add_comment("Addressed.", parent_id=tid)` under `try`; no author is given. -/
def tryAddressed (f : Faults) (tid : CommentId) (s : Discussion) : Discussion :=
  if f.add tid then s else s.addComment clock .machine "Addressed." "user" (some tid)

/-- The loop body of `acknowledge_unanswered_threads`; `comments` were listed before the loop. -/
def acknowledgeThread (f : Faults) (comments : List Comment) (s : Discussion) (tid : CommentId) :
    Discussion :=
  match comments.find? fun c => c.id = tid with
  | none => s
  | some top =>
    if top.closedAt.isSome then s
    else if (repliesTo comments top).isEmpty then (s.tryAddressed clock f tid).tryClose clock f tid
    else s.tryClose clock f tid

/-- `acknowledge_unanswered_threads`. -/
def acknowledgeUnansweredThreads (f : Faults) (threadIds : List CommentId) (s : Discussion) : Discussion :=
  if f.list then s
  else
    let comments := oldestFirst s.record
    threadIds.foldl (acknowledgeThread clock f comments) s

/-- Open discussion on a ticket without comments. -/
def start (tid : TicketId) (ticket : Ticket) (events : List TicketEvent) : Discussion where
  ticketId := tid
  record := { ticket := ticket, events := events, comments := [] }

end Discussion

/-! ## What may happen -/

inductive ThreadEvent
  | addComment (w : Writer) (body author : String) (parentId : Option CommentId)
  | closeThread (w : Writer) (cid : CommentId)
  | answer (w : Writer) (body author : String) (requiresChange : Bool)
  /-- `transition`: a pause, a block, a resume. -/
  | move (w : Writer) (dst : State) (note blockReason : Option String)
  | resumeBlocked (w : Writer) (note eventNote : String)
  /-- A comment on another ticket of the board takes the id `cid`. -/
  | elsewhere (cid : CommentId)
  | startRun (stage : AgentStage)
  /-- The run is over; the set of its threads is gone through in the order `threadIds`. -/
  | acknowledge (f : Discussion.Faults) (threadIds : List CommentId)
  /-- A resumed agent is handed the text; `listed` is `false` when `list_comments` raises. -/
  | resume (listed : Bool)

namespace ThreadEvent

/-- Is it a machine's doing? -/
def byMachine : ThreadEvent → Bool
  | .addComment w .. | .closeThread w _ | .answer w .. | .move w .. | .resumeBlocked w .. => w = .machine
  | .elsewhere _ | .startRun _ | .acknowledge .. | .resume _ => true

end ThreadEvent

namespace Discussion

variable (clock : Nat → DateTime) (settings : Settings)

/-- The discussion after an event. -/
def perform (s : Discussion) : ThreadEvent → Discussion
  | .addComment w body author parentId => s.addComment clock w body author parentId
  | .closeThread _ cid => s.closeThread clock cid
  | .answer w body author requiresChange => s.answer clock w body author requiresChange
  | .move _ dst note blockReason => s.move clock dst note blockReason
  | .resumeBlocked w note eventNote => s.resumeBlocked clock settings w note eventNote
  | .elsewhere cid => { s with elsewhere := max s.elsewhere cid }
  | .startRun stage => { s with openIds := openThreadIds stage s.record }
  | .acknowledge f threadIds => s.acknowledgeUnansweredThreads clock f threadIds
  | .resume _ => s

/-- An acknowledgement goes through the threads of its run, in some order. -/
def Possible (s : Discussion) : ThreadEvent → Prop
  | .acknowledge _ threadIds => threadIds.Perm s.openIds
  | _ => True

def Step (s : Discussion) (e : ThreadEvent) (t : Discussion) : Prop :=
  s.Possible e ∧ t = s.perform clock settings e

end Discussion

end Stages
end RobotsixMill
