import RobotsixMill.Agents.TimeoutEscalation

/-!
# `Agents.AutoResume` — the runner that resumes blocked tickets

A pass goes through the boards. On each it lists the blocked tickets, comments on those that wait for each other
in a circle and leaves them alone, and looks at the others one after the other. A ticket is resumed when the note
of its newest `blocked` event is one to retry, that event is old enough, and the comments that earlier automatic
resumes left behind are fewer than the limit.

History, comments and resume are three sessions, so the pass is given as the steps between them (`Pass.advance`).
-/

namespace RobotsixMill
namespace Agents
open RobotsixMill.Core Lib Service

def AUTO_RESUME_MARKER : String := "[auto-resume"

def CYCLE_MARKER : String := "[cycle-detected]"

def UPSTREAM_CI_BLOCK_MARKER : String := "Upstream CI breakage detected"

def REPO_SETTING_BLOCK_MARKER : String := "repo setting required:"

/-- `_HARD_EXCLUDES`. -/
def HARD_EXCLUDES : List String :=
  ["spec unchanged", UPSTREAM_CI_BLOCK_MARKER, REPO_SETTING_BLOCK_MARKER, "refusing to close", "not merged"]

/-- What the runner is configured with; the numbers are constrained to be non-negative. -/
structure AutoResumeSettings where
  cooldownSeconds : Nat := 1800
  maxPerTicket : Nat := 1
  patterns : List String :=
    ["agent error — resumable", "— resumable", "timed out", "stage timeout", "clone (is )?missing",
      "pr_urls\\.json corrupted", "unknown repo_id", "could not turn CI green within its iteration budget",
      "tests still failing after", "review rounds exhausted", "Infrastructure: LLM model outage",
      "scope-triage agent error", "requires more credits", "insufficient_credits", "insufficient credits"]
  /-- `re.search(pattern, text, re.IGNORECASE)`; `none` when the pattern is no regular expression. -/
  search : String → String → Option Bool

/-! ## Why and how often -/

/-- `_latest_blocked_event`. -/
def latestBlockedEvent (events : List TicketEvent) : Option TicketEvent :=
  latestBy TicketEvent.at_ (events.filter fun e => e.state = .blocked)

/-- `_matches`. -/
def blockMatches (cfg : AutoResumeSettings) (note : String) : Bool :=
  let head := cut 400 note
  if HARD_EXCLUDES.any fun x => contains (lower head) (lower x) then false
  else cfg.patterns.any fun pat => (cfg.search pat head).getD false

/-- Is it a comment that an automatic resume leaves behind? -/
def isAutoResume (c : Comment) : Bool := startsWith c.body AUTO_RESUME_MARKER

/-- `_prior_auto_resumes`. -/
def priorAutoResumes (cs : List Comment) : Nat := (cs.filter isAutoResume).length

/-- The note an automatic resume is made with; `age` is in microseconds. -/
def autoResumeNote (cfg : AutoResumeSettings) (prior age : Nat) (blockedFrom : State) (note : String) : String :=
  s!"{AUTO_RESUME_MARKER} {prior + 1}/{cfg.maxPerTicket}] automatic retry after " ++
    s!"{age / 60000000} min BLOCKED (back to {blockedFrom.value}); " ++ s!"block note was: {cut 200 note}"

/-! ## Dependency deadlocks -/

/-- Who waits for whom, in the order of the keys. -/
abbrev WaitsFor := List (TicketId × List TicketId)

namespace WaitsFor

/-- The edges out of a node. -/
def edges (g : WaitsFor) (node : TicketId) : List TicketId :=
  ((g.find? fun row => row.1 = node).map Prod.snd).getD []

/-- `graph[a].add(b)`. -/
def add (g : WaitsFor) (a b : TicketId) : WaitsFor :=
  g.map fun row => if row.1 = a ∧ b ∉ row.2 then (row.1, row.2 ++ [b]) else row

/-- `_build_dependency_graph`. -/
def build (tickets : List (TicketId × Ticket)) : WaitsFor :=
  let ids := tickets.map Prod.fst
  tickets.foldl (fun g t =>
    let deps := (parseDependsOnStr t.2.dependsOn).filter fun dep => dep ∈ ids
    let targets := (parseDependsOnStr t.2.unblocks).filter fun target => target ∈ ids
    targets.foldl (fun g target => g.add target t.1) (deps.foldl (fun g dep => g.add t.1 dep) g))
    (ids.map fun id => (id, []))

/-- The inner loop of `_dfs_finish_order`: the nodes seen and the order so far. Every node is pushed and popped
    once. -/
def finish (g : WaitsFor) : Nat → List (TicketId × List TicketId) → List TicketId × List TicketId →
    List TicketId × List TicketId
  | 0, _, found => found
  | _ + 1, [], found => found
  | fuel + 1, (node, it) :: stack, (seen, order) =>
    match it.dropWhile fun nxt => nxt ∈ seen with
    | [] => finish g fuel stack (seen, order ++ [node])
    | nxt :: rest => finish g fuel ((nxt, g.edges nxt) :: (node, rest) :: stack) (nxt :: seen, order)

/-- `_dfs_finish_order`. -/
def finishOrder (g : WaitsFor) : List TicketId :=
  (g.foldl (fun found row =>
    if row.1 ∈ found.1 then found
    else g.finish (2 * g.length + 1) [row] (row.1 :: found.1, found.2)) ([], [])).2

/-- `_transpose`. -/
def transpose (g : WaitsFor) : WaitsFor :=
  g.foldl (fun t row => row.2.foldl (fun t dep => t.add dep row.1) t) (g.map fun row => (row.1, []))

/-- `_collect_component`: the component and the nodes assigned. -/
def collectComponent (transposed : WaitsFor) : Nat → List TicketId → List TicketId × List TicketId →
    List TicketId × List TicketId
  | 0, _, found => found
  | _ + 1, [], found => found
  | fuel + 1, node :: stack, (comp, assigned) =>
    let fresh := (transposed.edges node).filter fun nxt => nxt ∉ assigned
    collectComponent transposed fuel (fresh.reverse ++ stack) (comp ++ [node], fresh ++ assigned)

/-- `_strongly_connected_components`. -/
def components (g : WaitsFor) : List (List TicketId) :=
  (g.finishOrder.reverse.foldl (fun found node =>
    if node ∈ found.2 then found
    else
      let collected := g.transpose.collectComponent (g.length + 1) [node] ([], node :: found.2)
      (found.1 ++ [collected.1], collected.2)) ([], [])).1

end WaitsFor

/-- The comment on a member of a deadlock. -/
def cycleNote (comp : List TicketId) : String :=
  let path := " → ".intercalate (comp.mergeSort fun a b => decide (a ≤ b))
  s!"{CYCLE_MARKER} dependency deadlock: this ticket is in a " ++
    s!"strongly-connected cycle of {comp.length} BLOCKED tickets " ++
    s!"({path}). Auto-resume cannot break it — needs manual " ++
    "intervention: break one edge or close a member. See docs/cycles.md."

/-- The outcomes of a pass. -/
structure ResumeCounts where
  resumed : Nat := 0
  cooling : Nat := 0
  budgetExhausted : Nat := 0
  notMatched : Nat := 0
  cyclesEscalated : Nat := 0
deriving DecidableEq, Repr

/-- Comment on one member, unless that was done before; an error leaves it at that. -/
def escalateMember (env : Env) (board : BoardId) (note : String) (σ : Mill) (tid : TicketId) : Mill × Nat :=
  let reported := fetched env board σ tid fun _ r => r.comments.any fun c => startsWith c.body CYCLE_MARKER
  if reported then (σ, 0)
  else
    match addComment env board tid note "blocked-auto-resume" none σ with
    | (σ', .ok ()) => (σ', 1)
    | (σ', .error _) => (σ', 0)

/-- The members of one component, one after the other. -/
def escalateMembers (env : Env) (board : BoardId) (note : String) : List TicketId → Mill × Nat → Mill × Nat
  | [], done => done
  | tid :: tids, done =>
    let one := escalateMember env board note done.1 tid
    escalateMembers env board note tids (one.1, done.2 + one.2)

/-- The components with more than one member. -/
def deadlocks (blocked : List (TicketId × Ticket)) : List (List TicketId) :=
  (WaitsFor.build blocked).components.filter fun comp => decide (2 ≤ comp.length)

/-- `_detect_and_escalate_cycles`, next to `deadlocks`. -/
def escalateCycles (env : Env) (board : BoardId) : List (List TicketId) → Mill × Nat → Mill × Nat
  | [], done => done
  | comp :: comps, done => escalateCycles env board comps (escalateMembers env board (cycleNote comp) comp done)

/-! ## A pass -/

/-- A ticket as it was listed. -/
structure Listed where
  id : TicketId
  blockedFrom : Option State
deriving DecidableEq, Repr

/-- Where the pass stands with a ticket. -/
inductive Inspection
  | idle
  /-- The note is one to retry, and the event is old enough. -/
  | due (t : Listed) (blockedFrom : State) (note : String) (age : Nat)
  /-- The limit is not reached. -/
  | granted (t : Listed) (resumeNote : String)
deriving DecidableEq, Repr

/-- A pass under way. -/
structure Pass where
  now : DateTime
  /-- The boards still to be scanned. -/
  boards : List BoardId
  board : BoardId
  /-- The tickets of `board` still to be looked at. -/
  waiting : List Listed
  inspection : Inspection
  counts : ResumeCounts
deriving DecidableEq, Repr

/-- `service.list(state=State.BLOCKED)`: the rows of the board, oldest first. -/
def listBlocked (board : BoardId) (σ : Mill) : List (TicketId × Ticket) :=
  ((σ.records.rows.filter fun row =>
    decide (row.1.1 = board) && decide (row.2.ticket.state = .blocked)).mergeSort
      fun a b => decide (a.2.ticket.createdAt ≤ b.2.ticket.createdAt)).map fun row => (row.1.2, row.2.ticket)

namespace Pass

/-- A pass begins; without a pattern, or with a limit of zero, it has nothing to scan. -/
def start (env : Env) (cfg : AutoResumeSettings) (now : DateTime) (σ : Mill) : Pass where
  now := now
  boards := if cfg.patterns = [] ∨ cfg.maxPerTicket = 0 then [] else boardsToScan env σ
  board := ""
  waiting := []
  inspection := .idle
  counts := {}

/-- List a board and comment on its deadlocks. -/
def scan (env : Env) (board : BoardId) (boards : List BoardId) (p : Pass) (σ : Mill) : Mill × Pass :=
  let blocked := listBlocked board σ
  let comps := deadlocks blocked
  let escalated := escalateCycles env board comps (σ, 0)
  (escalated.1,
    { p with
      boards := boards
      board := board
      waiting := (blocked.filter fun t => decide (t.1 ∉ comps.flatten)).map fun t => ⟨t.1, t.2.blockedFrom⟩
      counts := { p.counts with cyclesEscalated := p.counts.cyclesEscalated + escalated.2 } })

def countNotMatched (p : Pass) : Pass :=
  { p with counts := { p.counts with notMatched := p.counts.notMatched + 1 } }

def countCooling (p : Pass) : Pass :=
  { p with counts := { p.counts with cooling := p.counts.cooling + 1 } }

def countExhausted (p : Pass) : Pass :=
  { p with counts := { p.counts with budgetExhausted := p.counts.budgetExhausted + 1 } }

def countResumed (p : Pass) : Pass :=
  { p with counts := { p.counts with resumed := p.counts.resumed + 1 } }

/-- The history of a ticket, from the board it is on now. -/
def historyOf (env : Env) (board : BoardId) (tid : TicketId) (σ : Mill) : List TicketEvent :=
  match fetch env board σ tid with
  | .error _ => []
  | .ok (_, r) => r.events

/-- `_resume_one` up to the age of the block. -/
def readHistory (env : Env) (cfg : AutoResumeSettings) (t : Listed) (p : Pass) (σ : Mill) : Pass :=
  match latestBlockedEvent (historyOf env p.board t.id σ), t.blockedFrom with
  | some ev, some blockedFrom =>
    let note := ev.note.getD ""
    if !blockMatches cfg note then p.countNotMatched
    else if p.now < ev.at_ + cfg.cooldownSeconds * 1000000 then p.countCooling
    else { p with inspection := .due t blockedFrom note (p.now - ev.at_) }
  | _, _ => p.countNotMatched

/-- `_resume_one` up to the limit; `none` when the ticket is gone, which ends the pass with an exception. -/
def readComments (env : Env) (cfg : AutoResumeSettings) (t : Listed) (blockedFrom : State) (note : String)
    (age : Nat) (p : Pass) (σ : Mill) : Option Pass :=
  match fetch env p.board σ t.id with
  | .error _ => none
  | .ok (_, r) =>
    let prior := priorAutoResumes r.comments
    if cfg.maxPerTicket ≤ prior then some { p.countExhausted with inspection := .idle }
    else some { p with inspection := .granted t (autoResumeNote cfg prior age blockedFrom note) }

/-- The rest of `_resume_one`. -/
def resume (env : Env) (t : Listed) (resumeNote : String) (p : Pass) (σ : Mill) : Mill × Pass :=
  match resumeBlocked env p.board t.id resumeNote σ with
  | (σ', .ok ()) => (σ', { p.countResumed with inspection := .idle })
  | (σ', .error _) => (σ', { p with inspection := .idle })

/-- The next step of a pass; the pass is over when it is `none`. -/
def advance (env : Env) (cfg : AutoResumeSettings) (p : Pass) (σ : Mill) : Mill × Option Pass :=
  match p.inspection, p.waiting, p.boards with
  | .granted t resumeNote, _, _ =>
    let after := p.resume env t resumeNote σ
    (after.1, some after.2)
  | .due t blockedFrom note age, _, _ => (σ, p.readComments env cfg t blockedFrom note age σ)
  | .idle, t :: waiting, _ => (σ, some ({ p with waiting := waiting }.readHistory env cfg t σ))
  | .idle, [], board :: boards =>
    let after := p.scan env board boards σ
    (after.1, some after.2)
  | .idle, [], [] => (σ, none)

end Pass

/-! ## What is read and written -/

/-- The event that is read is a `blocked` one, and no later one is. -/
theorem latestBlockedEvent_spec {events : List TicketEvent} {ev : TicketEvent}
    (h : latestBlockedEvent events = some ev) :
    ev ∈ events ∧ ev.state = .blocked ∧ ∀ e ∈ events, e.state = .blocked → e.at_ ≤ ev.at_ := by
  obtain ⟨hmem, hstate⟩ := List.mem_filter.1 (mem_of_latestBy h)
  refine ⟨hmem, of_decide_eq_true hstate, ?_⟩
  intro e he hes
  apply le_of_latestBy h
  exact List.mem_filter.2 ⟨he, decide_eq_true hes⟩

/-- The automatic resumes are counted by what the comments say. -/
theorem priorAutoResumes_eq (cs : List Comment) : priorAutoResumes cs =
    ((cs.map Comment.body).filter fun body => startsWith body AUTO_RESUME_MARKER).length := by
  rw [List.filter_map, List.length_map]
  rfl

theorem priorAutoResumes_congr {cs cs' : List Comment} (h : cs'.map Comment.body = cs.map Comment.body) :
    priorAutoResumes cs' = priorAutoResumes cs := by
  rw [priorAutoResumes_eq, priorAutoResumes_eq, h]

/-- A discussion that goes on forgets none of them. -/
theorem priorAutoResumes_le {cs cs' : List Comment} (h : Discussed cs cs') :
    priorAutoResumes cs ≤ priorAutoResumes cs' := by
  rw [priorAutoResumes_eq, priorAutoResumes_eq]
  exact (h.sublist.filter _).length_le

/-- The note of an automatic resume is counted once it is a comment. -/
theorem startsWith_strip_autoResumeNote (cfg : AutoResumeSettings) (prior age : Nat) (blockedFrom : State)
    (note : String) :
    startsWith (strip (autoResumeNote cfg prior age blockedFrom note)) AUTO_RESUME_MARKER = true := by
  unfold startsWith strip
  rw [String.toList_ofList, List.isPrefixOf_iff_prefix]
  apply isPrefix_stripChars
  · decide
  · decide
  · refine ⟨(s!" {prior + 1}/{cfg.maxPerTicket}] automatic retry after " ++
      s!"{age / 60000000} min BLOCKED (back to {blockedFrom.value}); " ++
      s!"block note was: {cut 200 note}").toList, ?_⟩
    rw [← String.toList_append]
    apply congrArg String.toList
    simp only [autoResumeNote, String.append_assoc]
    rfl

end Agents
end RobotsixMill
