import RobotsixMill.Stages.ReviewPins
import RobotsixMill.Stages.StageCache
import RobotsixMill.Core.Models
import Mathlib.Data.List.Sort

/-!
# `Stages.Review` — the review stage

A review pass reads the diff and the spec, has them judged unless the same input was judged before, and routes the
verdict: APPROVE goes on to `documenting`, NEEDS_DISCUSSION asks the operator, and REQUEST_CHANGES counts a round
and goes back to `ready`, unless the rounds are used up, the findings repeat, or every ask is out of scope.

What the ticket keeps between two passes is a `ReviewState`; what a pass is given is a `ReviewPass`. A pass can
raise half way: what it did before stays done.
-/

namespace RobotsixMill
namespace Stages
open RobotsixMill.Core Lib

/-! ## State and input -/

/-- A follow-up ticket, with the ask it was made of. -/
structure FollowUp where
  id : String
  title : String
  body : String
  dependsOn : List String
  ask : ReviewAsk
deriving DecidableEq, Repr

/-- What the review stage keeps about a ticket: the counter of its row, its files, and what it has posted and
    spawned, oldest first. -/
structure ReviewState where
  reviewRounds : Nat := 0
  /-- `findings_fingerprint.txt` -/
  fingerprint : Option String := none
  cache : StageCache := fun _ => none
  /-- `review_ask_user_diff.json` -/
  askUserDiff : Option String := none
  posts : List String := []
  followUps : List FollowUp := []

/-- What routing a verdict depends on. -/
structure ReviewContext where
  /-- `settings.review_max_rounds` -/
  reviewMaxRounds : Nat
  ticketId : String
  fileMap : Option (List String)
  modifiedPaths : List String
  verifyClaim : String → List String → Bool
  /-- `list_comments(ticket.id)` -/
  comments : List Comment
  /-- whether `create` takes a ticket with this title and description -/
  accepts : String → String → Bool
  /-- the id of the nth follow-up -/
  followUpId : Nat → String

/-- What a pass can raise. -/
inductive ReviewError
  | indexError | createRefused | transient
deriving DecidableEq, Repr

/-- What a pass returns or raises. -/
abbrev ReviewResult := Except ReviewError StageOutcome

variable (sha256 : String → String) (ctx : ReviewContext)

/-! ## Texts -/

/-- `text.splitlines()[0]`; `none` where that raises. -/
def firstLine (text : String) : Option String := (splitlines text).head?

/-- `_collapse_comments`. -/
def collapseComments (comments : String) : String :=
  let collapsed := strip (" / ".intercalate ((splitChar '\n' comments.toList).map String.ofList))
  if collapsed = "" then "(no details)"
  else if collapsed.length > 300 then takeText 300 collapsed ++ "…"
  else collapsed

/-- `_sanitize_comments`. -/
def sanitizeComments (text : String) : String :=
  if startsWith text "[ASK_USER]" then
    String.ofList ((text.toList.drop "[ASK_USER]".length).dropWhile isPySpace)
  else text

/-- One line an ask: its first line, cut off. -/
def askLines (limit : Nat) (asks : List ReviewAsk) : Option (List String) :=
  asks.mapM fun a => (firstLine a.description).map fun line => "- " ++ takeText limit line

/-! ## The cache, the fingerprint -/

def ReviewState.post (st : ReviewState) (body : String) : ReviewState := { st with posts := st.posts ++ [body] }

def ReviewState.setRounds (st : ReviewState) (n : Nat) : ReviewState := { st with reviewRounds := n }

/-- `_maybe_cache`. -/
def maybeCache (inputHash : String) (outcome : StageOutcome) (st : ReviewState) : ReviewState :=
  if inputHash ≠ "" && outcome.nextState ≠ .awaitingUserReply then
    { st with cache := st.cache.update "review" inputHash outcome }
  else st

/-- The fingerprint of the findings. -/
def findingsFingerprint (asks : List ReviewAsk) : String :=
  let sorted := asks.mergeSort fun a b => decide (a.title ≤ b.title)
  sha256 (String.join (sorted.map fun a =>
    a.title ++ a.description ++ String.join (a.filesTouched.mergeSort fun f g => decide (f ≤ g))))

/-- The findings are those of the round before. -/
def converges (st : ReviewState) (asks : List ReviewAsk) : Bool :=
  st.fingerprint.map strip == some (findingsFingerprint sha256 asks)

/-- `_detect_convergence`. -/
def detectConvergence (inputHash : String) (v : ReviewVerdict) (st : ReviewState) :
    Option StageOutcome × ReviewState :=
  if converges sha256 st v.requestChanges then
    let outcome := StageOutcome.block "convergence: repeated review findings — implement stuck"
    let st := st.post ("Convergence detected: review round " ++ toString st.reviewRounds ++ " found the same " ++
      toString v.requestChanges.length ++ " issue(s) as the previous round. Implement is not making progress on " ++
      "these findings — escalating to BLOCKED for human inspection.")
    (some outcome, maybeCache inputHash outcome (st.setRounds 0))
  else (none, { st with fingerprint := some (findingsFingerprint sha256 v.requestChanges) })

/-! ## The round cap -/

/-- `ASK_USER_MARKER` threads, each with its replies that say something. -/
def askUserDirectives : List String :=
  (ctx.comments.filter fun c => c.parentId.isNone && startsWith c.body ASK_USER_MARKER).filterMap fun thread =>
    let replies := ctx.comments.filter fun c => c.parentId == some thread.id && !isBlank c.body
    if replies.isEmpty then none
    else some (collapseComments thread.body ++ "  →  " ++
      "; ".intercalate (replies.map fun c => collapseComments c.body))

/-- `_round_cap_directives`. -/
def roundCapDirectives (v : ReviewVerdict) : List ReviewAsk × List String :=
  (v.requestChanges.filter fun a => !isBlank a.title || !isBlank a.description, askUserDirectives ctx)

/-- A list with its numbers, from 1. -/
def numbered (f : Nat → String → String) (lines : List String) : List String :=
  (lines.zipIdx 1).map fun p => f p.2 p.1

/-- The lines of an ask in the question at the round cap. -/
def directiveText (a : ReviewAsk) : String :=
  let title := strip a.title
  let line := (firstLine (strip a.description)).getD ""
  if title ≠ "" && line ≠ "" && line ≠ title then "**" ++ title ++ "** — " ++ line
  else "**" ++ (if title ≠ "" then title else line) ++ "**"

/-- `_pause_for_directive_confirmation`. -/
def pauseForDirectiveConfirmation (reviewAsks : List ReviewAsk) (directives : List String) (rounds : Nat)
    (st : ReviewState) : StageOutcome × ReviewState :=
  let cap := "(" ++ toString rounds ++ "/" ++ toString ctx.reviewMaxRounds
  let lines :=
    ["Review round cap exhausted " ++ cap ++ " REQUEST_CHANGES rounds) while the following concrete directive(s) are " ++
      "still outstanding. This ticket will NOT be delivered automatically — confirm every directive below is " ++
      "implemented in the current branch before it can ship.", ""] ++
    (if reviewAsks.isEmpty then [] else
      ["**Reviewer's requested changes:**"] ++
        numbered (fun i line => toString i ++ ". " ++ line) (reviewAsks.map directiveText) ++ [""]) ++
    (if directives.isEmpty then [] else
      ["**Operator directives from previous ask_user replies:**"] ++
        numbered (fun i line => toString i ++ ". " ++ line) directives ++ [""]) ++
    ["Reply listing any directive still missing to kick the ticket back to implement, or confirm all are satisfied " ++
      "to let it proceed toward delivery."]
  ({ nextState := .awaitingUserReply
     note := some ("review round cap exhausted " ++ cap ++ ") — concrete directives outstanding; awaiting operator " ++
       "'directives satisfied?' confirmation") },
    (st.post ("[ASK_USER]\n\n" ++ "\n".intercalate lines)).setRounds 0)

/-- `_handle_request_changes` at the round cap. -/
def handleRoundCap (inputHash : String) (v : ReviewVerdict) (st : ReviewState) : StageOutcome × ReviewState :=
  let rounds := st.reviewRounds
  let outstanding := roundCapDirectives ctx v
  if outstanding.1.isEmpty && outstanding.2.isEmpty then
    let cap := "(" ++ toString rounds ++ "/" ++ toString ctx.reviewMaxRounds
    let outcome : StageOutcome :=
      { nextState := .documenting, note := some ("review rounds exhausted " ++ cap ++ ")") }
    let st := st.post ("Review round cap exhausted " ++ cap ++ " REQUEST_CHANGES rounds) with no concrete outstanding " ++
      "directives. Escalating to DELIVERABLE for human merge approval.\n\nLast review verdict:\n" ++ v.comments)
    (outcome, maybeCache inputHash outcome (st.setRounds 0))
  else pauseForDirectiveConfirmation ctx outstanding.1 outstanding.2 rounds st

/-! ## Follow-up tickets -/

/-- The title of a follow-up; `none` where there is no first line to take it from. -/
def followUpTitle (ask : ReviewAsk) : Option String :=
  if strip ask.title ≠ "" then some (takeText 120 (strip ask.title))
  else (firstLine ask.description).map fun line => takeText 120 (if line ≠ "" then line else "review follow-up")

/-- The description of a follow-up. -/
def followUpBody (ask : ReviewAsk) : String :=
  "\n".intercalate ([strip ask.description] ++
    (if ask.filesTouched.isEmpty then [] else
      ["", "Files involved:"] ++ ask.filesTouched.map fun f => "- `" ++ f ++ "`") ++
    ["", "(Spawned by review on parent ticket `" ++ ctx.ticketId ++ "` — its scope did not cover these files.)"])

/-- `_spawn_dependency_tickets`: the ids of the tickets it creates. -/
def spawnDependencyTickets : List ReviewAsk → ReviewState → Except ReviewError (List String) × ReviewState
  | [], st => (.ok [], st)
  | ask :: asks, st =>
    match followUpTitle ask with
    | none => (.error .indexError, st)
    | some title =>
      if ctx.accepts title (followUpBody ctx ask) then
        let followUp : FollowUp :=
          { id := ctx.followUpId st.followUps.length, title, body := followUpBody ctx ask, dependsOn := [], ask }
        let rest := spawnDependencyTickets asks { st with followUps := st.followUps ++ [followUp] }
        (rest.1.map fun ids => followUp.id :: ids, rest.2)
      else (.error .createRefused, st)

/-- `set_depends_on(nid, [ticket.id])`, for each of the new tickets. -/
def dependOnParent (ids : List String) (st : ReviewState) : ReviewState :=
  { st with followUps := st.followUps.map fun f => if f.id ∈ ids then { f with dependsOn := [ctx.ticketId] } else f }

/-- The comment on the asks that the branch addresses. -/
def addressedComment (asks : List ReviewAsk) (lines : List String) : String :=
  "\n".intercalate (["Review found " ++ toString asks.length ++ " gap(s) that appear already addressed in the " ++
    "implementer's commits — no follow-up needed:", ""] ++ lines)

def postAddressed (asks : List ReviewAsk) (st : ReviewState) : Except ReviewError ReviewState :=
  match askLines 120 asks with
  | none => .error .indexError
  | some lines => .ok (st.post (addressedComment asks lines))

/-- The tickets for the asks out of scope, and the comment on them. -/
def spawnFollowUps (asks : List ReviewAsk) (st : ReviewState) : Except ReviewError Unit × ReviewState :=
  match spawnDependencyTickets ctx asks st with
  | (.error e, st) => (.error e, st)
  | (.ok ids, st) =>
    let st := dependOnParent ctx ids st
    match asks.mapM fun a => firstLine a.description with
    | none => (.error .indexError, st)
    | some lines =>
      (.ok (), st.post ("\n".intercalate (["Review found " ++ toString asks.length ++ " out-of-scope ask(s) — spawned " ++
        "as follow-up ticket(s) that depend on this one (they run after it merges):", ""] ++
        (ids.zip lines).map fun p => "- `" ++ p.1 ++ "` — " ++ takeText 120 p.2)))

/-! ## REQUEST_CHANGES -/

/-- The comment that the next implement round reads. -/
def inScopeBody (v : ReviewVerdict) (asks : RoutedAsks) : Option String :=
  if asks.stillOutOfScope.isEmpty then some (sanitizeComments v.comments)
  else (askLines 200 asks.inScope).map fun lines =>
    sanitizeComments v.comments ++ "\n\nIn-scope items to fix now (out-of-scope asks were spawned as follow-ups):\n" ++
      "\n".intercalate lines

/-- The end of `_handle_request_changes`: what the ticket goes on to. -/
def settleAsks (inputHash : String) (v : ReviewVerdict) (asks : RoutedAsks) (st : ReviewState) :
    ReviewResult × ReviewState :=
  if !asks.inScope.isEmpty then
    match inScopeBody v asks with
    | none => (.error .indexError, st)
    | some body =>
      let outcome : StageOutcome := { nextState := .ready, note := some v.comments }
      (.ok outcome, maybeCache inputHash outcome (st.post body))
  else if !asks.stillOutOfScope.isEmpty then
    let outcome : StageOutcome :=
      { nextState := .documenting
        note := some ("approved; " ++ toString asks.stillOutOfScope.length ++
          " out-of-scope ask(s) spawned as follow-ups") }
    (.ok outcome, maybeCache inputHash outcome (st.setRounds 0))
  else if !asks.alreadyAddressed.isEmpty then
    let outcome : StageOutcome :=
      { nextState := .documenting
        note := some ("approved; " ++ toString asks.alreadyAddressed.length ++
          " review gap(s) already addressed in the implementer's commits") }
    (.ok outcome, maybeCache inputHash outcome (st.setRounds 0))
  else
    let outcome : StageOutcome := { nextState := .ready, note := some v.comments }
    (.ok outcome, maybeCache inputHash outcome (st.post (sanitizeComments v.comments)))

/-- `_handle_request_changes` from the split of the asks on. -/
def routeVerdict (inputHash : String) (v : ReviewVerdict) (st : ReviewState) : ReviewResult × ReviewState :=
  let asks := routeAsks ctx.verifyClaim ctx.fileMap ctx.modifiedPaths v.requestChanges
  match if asks.alreadyAddressed.isEmpty then .ok st else postAddressed asks.alreadyAddressed st with
  | .error e => (.error e, st)
  | .ok st =>
    match if asks.stillOutOfScope.isEmpty then (.ok (), st) else spawnFollowUps ctx asks.stillOutOfScope st with
    | (.error e, st) => (.error e, st)
    | (.ok (), st) => settleAsks inputHash v asks st

/-- `_handle_request_changes`. -/
def handleRequestChanges (inputHash : String) (v : ReviewVerdict) (st : ReviewState) : ReviewResult × ReviewState :=
  let rounds := st.reviewRounds + 1
  let st := st.setRounds rounds
  if ctx.reviewMaxRounds ≤ rounds then
    let settled := handleRoundCap ctx inputHash v st
    (.ok settled.1, settled.2)
  else
    match detectConvergence sha256 inputHash v st with
    | (some outcome, st) => (.ok outcome, st)
    | (none, st) => routeVerdict ctx inputHash v st

/-- `_handle_review_verdict`. -/
def handleReviewVerdict (inputHash : String) (v : ReviewVerdict) (st : ReviewState) : ReviewResult × ReviewState :=
  match v.verdict with
  | .approve =>
    let outcome : StageOutcome := { nextState := .documenting, note := some "review approved" }
    (.ok outcome, maybeCache inputHash outcome (st.setRounds 0))
  | .requestChanges => handleRequestChanges sha256 ctx inputHash v st
  | .needsDiscussion =>
    let outcome : StageOutcome := { nextState := .awaitingUserReply, note := some v.comments }
    (.ok outcome, maybeCache inputHash outcome (st.post ("[ASK_USER]\n\n" ++ v.comments)))

/-! ## A pass -/

/-- What `combined_diff` returns or raises. -/
inductive DiffResult
  | transient
  | failed (error : String)
  | ok (diff : String)
deriving DecidableEq, Repr

/-- What `run_review_agent` returns or raises. -/
inductive AgentResult
  | transient
  | failed (error : String)
  | verdict (v : ReviewVerdict)
deriving DecidableEq, Repr

/-- What a review pass is given: the clones, the spec, the diff with the refs it adds, the reviewer, the operator's
    approval, and what git and the agent answer. -/
structure ReviewPass extends ReviewContext where
  hasClone : Bool
  diff : DiffResult
  spec : String
  headSha : String
  reviewerFingerprint : String
  actionRefs : List ActionRef
  reusableWorkflowRefs : List ActionRef
  approval : Option String
  /-- `_answer_requests_change` -/
  requestsChange : String → Bool
  verifyActionSha : String → String → Option Bool
  shaIsOlderThan : String → String → String → Option Bool
  agent : AgentResult

/-- `_unaddressed_change_answer`: the operator's answer to the last question, if it asks for a change and the diff is
    the one the question was about. The record of that diff is used up. -/
def unaddressedChangeAnswer (p : ReviewPass) (diffHash : String) (st : ReviewState) : Option String × ReviewState :=
  match st.askUserDiff with
  | none => (none, st)
  | some recorded =>
    let st := { st with askUserDiff := none }
    if recorded ≠ diffHash then (none, st)
    else
      let threads := p.comments.filter fun c => c.parentId.isNone && startsWith c.body ASK_USER_MARKER
      -- `max` keeps the first of several
      match threads.foldl (fun (best : Option Comment) c =>
          match best with
          | none => some c
          | some b => if b.createdAt < c.createdAt || (b.createdAt == c.createdAt && decide (b.id < c.id)) then some c
              else some b) none with
      | none => (none, st)
      | some thread =>
        let answers := (p.comments.filter fun c => c.parentId == some thread.id &&
          !(["review", "system", "mill"].contains c.author) && !isBlank c.body).map fun c => strip c.body
        let answer := "\n".intercalate answers
        (if p.requestsChange answer then some answer else none, st)

/-- Steps 5 to 7 of `run`: the pins are checked, then the verdict is routed. -/
def judge (p : ReviewPass) (inputHash : String) (v : ReviewVerdict) (st : ReviewState) : ReviewResult × ReviewState :=
  handleReviewVerdict sha256 p.toReviewContext inputHash
    (checkPins p.verifyActionSha p.shaIsOlderThan p.actionRefs p.reusableWorkflowRefs p.approval v) st

/-- The input of a pass, as the cache knows it. -/
def ReviewPass.input (p : ReviewPass) (diff : String) : ReviewInput :=
  { spec := p.spec, diff, headSha := p.headSha, reviewerFingerprint := p.reviewerFingerprint }

/-- The pass pauses on a question. -/
def asksUser : ReviewResult → Bool
  | .ok outcome => decide (outcome.nextState = .awaitingUserReply)
  | .error _ => false

/-- `run` once the cache has missed. -/
def reviewAfresh (p : ReviewPass) (diffHash inputHash : String) (st : ReviewState) : ReviewResult × ReviewState :=
  match p.agent with
  | .transient => (.error .transient, st)
  | .failed error => (.ok (.block ("review agent error — resumable: " ++ error)), st)
  | .verdict v =>
    let judged := judge sha256 p inputHash v st
    (judged.1, if asksUser judged.1 then { judged.2 with askUserDiff := some diffHash } else judged.2)

/-- `ReviewStage.run`. -/
def reviewRun (p : ReviewPass) (st : ReviewState) : ReviewResult × ReviewState :=
  if !p.hasClone then (.ok (.block "no repository clone to review (re-run implement)"), st)
  else match p.diff with
    | .transient => (.error .transient, st)
    | .failed error => (.ok (.block ("failed to compute diff: " ++ error)), st)
    | .ok diff =>
      if isBlank diff then (.ok { nextState := .documenting, note := some "empty diff (no-op implementation)" }, st)
      else match unaddressedChangeAnswer p (sha256 diff) st with
        | (some answer, st) =>
          (.ok { nextState := .ready, note := some "review: operator answer requests a change; diff unchanged" },
            (st.setRounds (st.reviewRounds + 1)).post
              ("[REQUEST_CHANGES] The operator's answer to the review's [ASK_USER] question requests a change, but the " ++
                "diff is unchanged since the question was asked. Implement the operator's answer:\n\n" ++ answer))
        | (none, st) =>
          let inputHash := reviewInputHash sha256 (p.input diff) st.reviewRounds
          match st.cache.check "review" inputHash with
          | some cached => (.ok cached, st)
          | none => reviewAfresh sha256 p (sha256 diff) inputHash st

end Stages
end RobotsixMill
