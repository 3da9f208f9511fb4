import RobotsixMill.Forge.Reviews
import RobotsixMill.Service.Store
import RobotsixMill.Stages.MergePoll

/-!
# `Agents.OrphanedPrs` — the pass that closes abandoned pull requests

The pass lists the open pull requests of the mill, leaves out those of other authors, of young tickets and of active
ones, and classifies the rest by their ticket, their diff and their conflicts; most classes are closed, up to a cap.
Every reader of the forge answers with an empty value when it cannot tell, and the pass takes it for an answer: no
listed files for an empty diff, and no listed pull requests for a forge without authors. A diff also counts as empty
when none of its files changes a line.

- `runOrphanedPrCheckPass` — the pass, from the listing to the acts on pull requests;
- `RightlyClosed` — what a pull request must be for the pass to close it;
- `orphaned_pr_pass_spares_live_work` — the answers under which it closes no other, whatever the caps.
-/

namespace RobotsixMill
namespace Agents
open RobotsixMill.Core Lib Service Forge Stages

/-! ## Classification -/

inductive OrphanClassification
  | superseded
  | ticketDoneUnmerged | ticketClosedUnmerged
  | ticketDoneConflicting | ticketClosedConflicting
  | noTicketEmptyDiff
  | ticketErrored | ticketErroredEmptyDiff | ticketErroredConflicting
  | noTicket | noTicketConflicting
deriving DecidableEq, Repr

def ORPHAN_STATES : List State := [.done, .closed, .errored]

open OrphanClassification in
def CLOSE_CLASSIFICATIONS : List OrphanClassification :=
  [superseded, ticketDoneUnmerged, ticketClosedUnmerged, ticketDoneConflicting, ticketClosedConflicting,
    noTicketEmptyDiff, ticketErroredEmptyDiff, ticketErroredConflicting, noTicketConflicting]

/-- `PIN_BUMP_BRANCH_SEGMENT`. -/
def PIN_BUMP_BRANCH_SEGMENT : String := "pin-bump/"

def classifyNoTicket (emptyDiff hasConflicts : Bool) : OrphanClassification :=
  if emptyDiff then .noTicketEmptyDiff else if hasConflicts then .noTicketConflicting else .noTicket

def classifyErrored (emptyDiff hasConflicts : Bool) : OrphanClassification :=
  if emptyDiff then .ticketErroredEmptyDiff
  else if hasConflicts then .ticketErroredConflicting
  else .ticketErrored

def classifyDone (emptyDiff hasConflicts : Bool) : OrphanClassification :=
  if emptyDiff then .superseded else if hasConflicts then .ticketDoneConflicting else .ticketDoneUnmerged

def classifyClosed (emptyDiff hasConflicts : Bool) : OrphanClassification :=
  if emptyDiff then .superseded else if hasConflicts then .ticketClosedConflicting else .ticketClosedUnmerged

/-- `_determine_classification`; another state of the ticket is a `ValueError`. -/
def determineClassification (state : Option State) (emptyDiff hasConflicts : Bool) : Option OrphanClassification :=
  match state with
  | none => some (classifyNoTicket emptyDiff hasConflicts)
  | some .errored => some (classifyErrored emptyDiff hasConflicts)
  | some .done => some (classifyDone emptyDiff hasConflicts)
  | some .closed => some (classifyClosed emptyDiff hasConflicts)
  | some _ => none

structure ClassifiedOrphanPr where
  branch : String
  ticketId : TicketId
  classification : OrphanClassification
  ticketState : Option State := none

/-! ## What the pass finds -/

/-- An item of `list_open_prs`. -/
structure OpenPr where
  branch : String
  authorLogin : String

structure OrphanedPrSettings where
  branchPrefix : String := "mill/"
  botLogins : List String := []
  minAgeHours : Nat := 4

/-- The caps of one pass, and whether it only reports. -/
structure OrphanedPrCaps where
  maxActions : Nat := 5
  maxCloses : Nat := 10
  maxFiles : Nat := 5
  dryRun : Bool := false

/-- What one pass is told. -/
structure OrphanedPrPass where
  settings : OrphanedPrSettings := {}
  repoId : String := "repo"
  board : BoardId
  env : Env
  /-- The tickets when the branches are classified. -/
  mill : Mill
  now : DateTime
  /-- `list_open_prs`; empty also when the listing fails. -/
  openPrs : List OpenPr
  /-- `list_open_pr_branches`, sorted; empty also when the listing fails. -/
  openBranches : List String := []
  /-- `get_authenticated_user_login`; empty when the forge does not tell. -/
  authenticatedLogin : String := ""
  /-- `pr_status`, asked whether the pull request is open; `none` also when the request fails. -/
  prStatus : String → Option PrStatus
  /-- `pr_status`, asked for conflicts. -/
  prConflicts : String → Option PrStatus
  /-- `pr_files`: the complete list, unless it cannot be had. -/
  prFiles : String → Option (List FileItem)
  /-- `_load_open_orphan_titles`. -/
  openOrphanTitles : List String := []
  /-- `_load_disposed_trackers`. -/
  disposedTrackers : Table String TicketId := .empty

/-- What the pass does to a pull request or about it. -/
inductive OrphanAct
  | closePr (branch : String)
  | fileTicket (branch : String)
  | recordDisposition (branch : String) (prior : TicketId)
deriving DecidableEq, Repr

/-- `s.removeprefix(p)`. -/
def removeprefix (s p : String) : String :=
  if startsWith s p then .ofList (s.toList.drop p.toList.length) else s

/-! ## The pass -/

section Pass

variable (p : OrphanedPrPass)

/-- `service.get(ticket_id)` for the ticket a branch is named after. -/
def ticketIdOf (branch : String) : TicketId := removeprefix branch p.settings.branchPrefix

def namedTicket (branch : String) : Option Ticket := ticketOf p.env p.board (ticketIdOf p branch) p.mill

/-- `_pr_has_empty_diff`: an unavailable listing reads as no files. -/
def prHasEmptyDiff (branch : String) : Bool :=
  ((p.prFiles branch).getD []).all fun item => item.additions + item.deletions == 0

/-- `_pr_has_conflicts`. -/
def prHasConflicts (branch : String) : Bool :=
  match p.prConflicts branch with
  | none => false
  | some pr => pr.mergeable == some false

/-- `_resolve_bot_logins`: none when no login is known. -/
def resolveBotLogins : Option (List String) :=
  if p.settings.botLogins ≠ [] then some p.settings.botLogins
  else if p.authenticatedLogin ≠ "" then some [p.authenticatedLogin]
  else none

/-- The pull requests of the mill, with the logins that are allowed: all, when there are none. -/
def listedPrs : List OpenPr × List String :=
  if p.openPrs ≠ [] then
    (p.openPrs.filter fun pr => startsWith pr.branch p.settings.branchPrefix, (resolveBotLogins p).getD [])
  else
    ((p.openBranches.filter fun b => startsWith b p.settings.branchPrefix).map fun b => ⟨b, ""⟩, [])

/-- The author guard of `_classify_branches`. -/
def passesAuthorGuard (allowedLogins : List String) (pr : OpenPr) : Bool :=
  allowedLogins.isEmpty || allowedLogins.contains pr.authorLogin

/-- The age guard of `_classify_branches`. -/
def isYoung (branch : String) : Bool :=
  match namedTicket p branch with
  | none => false
  | some ticket => decide ((p.now : Int) - (ticket.createdAt : Int) < p.settings.minAgeHours * 3600 * 1000000)

/-- `classify_orphaned_prs`, for one branch. -/
def classifyBranch (branch : String) : Option ClassifiedOrphanPr :=
  if startsWith (ticketIdOf p branch) PIN_BUMP_BRANCH_SEGMENT then none
  else
    let state := (namedTicket p branch).map Ticket.state
    if state.any fun st => !ORPHAN_STATES.contains st then none
    else if !(p.prStatus branch).any fun pr => pr.state == "open" then none
    else
      (determineClassification state (prHasEmptyDiff p branch) (prHasConflicts p branch)).map fun c =>
        { branch := branch, ticketId := ticketIdOf p branch, classification := c, ticketState := state }

/-- The branches that pass the guards of `_classify_branches`, in the order of their names. -/
def guardedBranches : List String :=
  let (millPrs, allowedLogins) := listedPrs p
  let sorted := millPrs.mergeSort fun x y => decide (x.branch ≤ y.branch)
  ((sorted.filter (passesAuthorGuard allowedLogins)).map OpenPr.branch).filter fun b => !isYoung p b

def classifications : List ClassifiedOrphanPr := (guardedBranches p).filterMap (classifyBranch p)

/-- `_orphan_ticket_title`. -/
def orphanTicketTitle (branch : String) : String := s!"Track orphaned PR: {p.repoId}/{branch}"

def shouldClose (c : ClassifiedOrphanPr) : Bool := CLOSE_CLASSIFICATIONS.contains c.classification

variable (caps : OrphanedPrCaps)

/-- `_apply_classifications`, with the closes and the filings taken so far. -/
def applyClassifications : Nat → Nat → List ClassifiedOrphanPr → List OrphanAct
  | _, _, [] => []
  | closes, files, c :: rest =>
    if caps.maxActions ≤ closes + files ∨ (caps.maxCloses ≤ closes ∧ caps.maxFiles ≤ files) then []
    else if shouldClose c then
      if caps.maxCloses ≤ closes ∨ caps.dryRun then applyClassifications closes files rest
      else .closePr c.branch :: applyClassifications (closes + 1) files rest
    else if caps.maxFiles ≤ files ∨ caps.dryRun then applyClassifications closes files rest
    else if p.openOrphanTitles.contains (orphanTicketTitle p c.branch) then applyClassifications closes files rest
    else
      match p.disposedTrackers.get (orphanTicketTitle p c.branch) with
      | some prior => .recordDisposition c.branch prior :: applyClassifications closes files rest
      | none => .fileTicket c.branch :: applyClassifications closes (files + 1) rest

/-- `run_orphaned_pr_check_pass`, as far as the pull requests of the mill are concerned. -/
def runOrphanedPrCheckPass : List OrphanAct := applyClassifications p caps 0 0 (classifications p)

/-! ## What may be closed -/

/-- The item of a listing is a change: of lines, or of the name, the mode or binary content. -/
def isChange (item : FileItem) : Bool := item.additions + item.deletions != 0 || item.status != "unchanged"

/-- A ticket that is neither done, closed nor errored works on the branch. -/
def ActiveDriver (branch : String) : Prop :=
  ∃ k r, p.mill.records.get k = some r ∧ r.ticket.branch.getD (p.settings.branchPrefix ++ k.2) = branch ∧
    r.ticket.state ∉ ORPHAN_STATES

/-- The forge reports conflicts. -/
def reportsConflict (branch : String) : Bool :=
  ((p.prStatus branch).any fun pr => pr.mergeable == some false) || prHasConflicts p branch

/-- The ticket of the branch is done or closed. -/
def isFinishedWork (branch : String) : Bool :=
  (namedTicket p branch).any fun ticket => ticket.state == .done || ticket.state == .closed

/-- **What a pull request must be to be closed.** -/
structure RightlyClosed (branch : String) : Prop where
  author : ∀ logins, resolveBotLogins p = some logins →
    ∃ pr ∈ p.openPrs, pr.branch = branch ∧ pr.authorLogin ∈ logins
  idle : ¬ ActiveDriver p branch
  dead : reportsConflict p branch = true ∨ isFinishedWork p branch = true ∨
    ∃ items, p.prFiles branch = some items ∧ ∀ item ∈ items, isChange item = false

/-- The pass would close the pull request, were it not for the caps. -/
def closable (branch : String) : Bool :=
  (guardedBranches p).contains branch && (classifyBranch p branch).any shouldClose

/-- The pull request gets past the guards: it is the mill's as far as authors are told, old enough, no pin bump and open,
    and the ticket that the lookup by the branch's name returns is not active. -/
structure Considered (branch : String) : Prop where
  guarded : branch ∈ guardedBranches p
  noPinBump : startsWith (ticketIdOf p branch) PIN_BUMP_BRANCH_SEGMENT = false
  inactive : ∀ ticket, namedTicket p branch = some ticket → ticket.state ∈ ORPHAN_STATES
  isOpen : ∃ pr, p.prStatus branch = some pr ∧ pr.state = "open"

/-- Conflicts, a finished ticket, or no file that is listed with a changed line. -/
def LooksDead (branch : String) : Prop :=
  prHasConflicts p branch = true ∨ isFinishedWork p branch = true ∨
    ∀ items, p.prFiles branch = some items → ∀ item ∈ items, item.additions + item.deletions = 0

/-- What the pass is told of the pull request is all there is to know: a listing with authors if a login is known, every
    ticket that works on the branch, and, where nothing but the diff speaks for a close, the files, of which each one
    that changes is listed with a changed line. -/
structure FullyTold (branch : String) : Prop where
  authors : p.openPrs ≠ [] ∨ resolveBotLogins p = none
  drivers : ∀ k r, p.mill.records.get k = some r →
    r.ticket.branch.getD (p.settings.branchPrefix ++ k.2) = branch → r.ticket.state ∈ ORPHAN_STATES
  files : reportsConflict p branch = false → isFinishedWork p branch = false →
    ∃ items, p.prFiles branch = some items ∧ ∀ item ∈ items, isChange item = true → item.additions + item.deletions ≠ 0

/-! ## The caps -/

section Caps

variable {p caps} {branch : String}

/-- Every close is of a pull request classified for it. -/
theorem closable_of_mem {closes files : Nat} {l : List ClassifiedOrphanPr}
    (h : .closePr branch ∈ applyClassifications p caps closes files l) :
    ∃ c ∈ l, c.branch = branch ∧ shouldClose c = true := by
  induction l generalizing closes files with
  | nil => cases h
  | cons c rest ih =>
    have hrest : ∀ {m n : Nat}, .closePr branch ∈ applyClassifications p caps m n rest →
        ∃ c' ∈ c :: rest, c'.branch = branch ∧ shouldClose c' = true := by
      intro m n hmem
      obtain ⟨c', hc', hrest⟩ := ih hmem
      exact ⟨c', List.mem_cons_of_mem _ hc', hrest⟩
    unfold applyClassifications at h
    split at h
    · cases h
    · split at h
      · rename_i hclose
        split at h
        · exact hrest h
        · rcases List.mem_cons.1 h with heq | hmem
          · cases heq
            exact ⟨c, List.mem_cons_self, rfl, hclose⟩
          · exact hrest hmem
      · split at h
        · exact hrest h
        · split at h
          · exact hrest h
          · split at h
            · rcases List.mem_cons.1 h with heq | hmem
              · cases heq
              · exact hrest hmem
            · rcases List.mem_cons.1 h with heq | hmem
              · cases heq
              · exact hrest hmem

/-- With room for all, every pull request classified for it is closed. -/
theorem mem_of_closable {closes files : Nat} {l : List ClassifiedOrphanPr} {c : ClassifiedOrphanPr}
    (hlive : caps.dryRun = false) (hactions : closes + files + l.length ≤ caps.maxActions)
    (hcloses : closes + l.length ≤ caps.maxCloses) (hfiles : files + l.length ≤ caps.maxFiles) (hc : c ∈ l)
    (hclose : shouldClose c = true) : .closePr c.branch ∈ applyClassifications p caps closes files l := by
  induction l generalizing closes files with
  | nil => cases hc
  | cons d rest ih =>
    rw [List.length_cons] at hactions hcloses hfiles
    unfold applyClassifications
    rw [if_neg (by omega)]
    rcases List.mem_cons.1 hc with rfl | hmem
    · rw [if_pos hclose, if_neg (by rw [hlive]; simp; omega)]
      exact List.mem_cons_self
    · split
      · split
        · exact ih (by omega) (by omega) (by omega) hmem
        · exact List.mem_cons_of_mem _ (ih (by omega) (by omega) (by omega) hmem)
      · split
        · exact ih (by omega) (by omega) (by omega) hmem
        · split
          · exact ih (by omega) (by omega) (by omega) hmem
          · split
            · exact List.mem_cons_of_mem _ (ih (by omega) (by omega) (by omega) hmem)
            · exact List.mem_cons_of_mem _ (ih (by omega) (by omega) (by omega) hmem)

/-- The act closes a pull request. -/
def OrphanAct.closes : OrphanAct → Bool
  | .closePr _ => true
  | _ => false

/-- The act closes a pull request or files a ticket for it. -/
def OrphanAct.counted : OrphanAct → Bool
  | .recordDisposition _ _ => false
  | _ => true

variable (p caps) in
theorem closes_le (closes files : Nat) (l : List ClassifiedOrphanPr) (h : closes ≤ caps.maxCloses) :
    closes + (applyClassifications p caps closes files l).countP OrphanAct.closes ≤ caps.maxCloses := by
  induction l generalizing closes files with
  | nil => exact h
  | cons c rest ih =>
    unfold applyClassifications
    split
    · exact h
    · split
      · split
        · exact ih closes files h
        · rename_i hroom
          have hnext := ih (closes + 1) files (by omega)
          rw [List.countP_cons_of_pos rfl]
          omega
      · split
        · exact ih _ _ h
        · split
          · exact ih _ _ h
          · split
            · rw [List.countP_cons_of_neg (by simp [OrphanAct.closes])]
              exact ih _ _ h
            · rw [List.countP_cons_of_neg (by simp [OrphanAct.closes])]
              exact ih _ _ h

variable (p caps) in
theorem counted_le (closes files : Nat) (l : List ClassifiedOrphanPr) (h : closes + files ≤ caps.maxActions) :
    closes + files + (applyClassifications p caps closes files l).countP OrphanAct.counted ≤ caps.maxActions := by
  induction l generalizing closes files with
  | nil => exact h
  | cons c rest ih =>
    unfold applyClassifications
    split
    · exact h
    · split
      · split
        · exact ih _ _ h
        · have hnext := ih (closes + 1) files (by omega)
          rw [List.countP_cons_of_pos rfl]
          omega
      · split
        · exact ih _ _ h
        · split
          · exact ih _ _ h
          · split
            · rw [List.countP_cons_of_neg (by simp [OrphanAct.counted])]
              exact ih _ _ h
            · have hnext := ih closes (files + 1) (by omega)
              rw [List.countP_cons_of_pos rfl]
              omega

end Caps

/-! ## The classes -/

section Classes

variable {p} {branch : String}

theorem mem_classifications {c : ClassifiedOrphanPr} :
    c ∈ classifications p ↔ ∃ b ∈ guardedBranches p, classifyBranch p b = some c := by
  rw [classifications, List.mem_filterMap]

theorem branch_of_classifyBranch {c : ClassifiedOrphanPr} (h : classifyBranch p branch = some c) : c.branch = branch := by
  unfold classifyBranch at h
  split at h
  · cases h
  · dsimp only at h
    split at h
    · cases h
    · split at h
      · cases h
      · obtain ⟨cl, -, rfl⟩ := Option.map_eq_some_iff.1 h
        rfl

theorem closable_iff : closable p branch = true ↔
    ∃ c, branch ∈ guardedBranches p ∧ classifyBranch p branch = some c ∧ shouldClose c = true := by
  rw [closable, Bool.and_eq_true, List.contains_iff_mem, Option.any_eq_true]
  exact ⟨fun ⟨hmem, c, hc, hclose⟩ => ⟨c, hmem, hc, hclose⟩, fun ⟨c, hmem, hc, hclose⟩ => ⟨hmem, c, hc, hclose⟩⟩

/-- With a listing that names the authors, the guard lets trusted logins pass only. -/
theorem author_of_guarded (hlisted : p.openPrs ≠ []) (h : branch ∈ guardedBranches p) {logins : List String}
    (hlogins : resolveBotLogins p = some logins) : ∃ pr ∈ p.openPrs, pr.branch = branch ∧ pr.authorLogin ∈ logins := by
  have hne : logins ≠ [] := by
    unfold resolveBotLogins at hlogins
    split at hlogins
    · rename_i hconfigured
      cases hlogins
      exact hconfigured
    · split at hlogins
      · cases hlogins
        simp
      · cases hlogins
  unfold guardedBranches listedPrs at h
  rw [if_pos hlisted, hlogins] at h
  dsimp only [Option.getD_some] at h
  obtain ⟨pr, hpr, rfl⟩ := List.mem_map.1 (List.mem_of_mem_filter h)
  obtain ⟨hmem, hguard⟩ := List.mem_filter.1 hpr
  rw [List.mem_mergeSort] at hmem
  refine ⟨pr, List.mem_of_mem_filter hmem, rfl, ?_⟩
  unfold passesAuthorGuard at hguard
  rw [Bool.or_eq_true, List.isEmpty_iff] at hguard
  exact List.contains_iff_mem.1 (hguard.resolve_left hne)

/-- What is closed, of the classes that a ticket in this state can have. -/
theorem contains_determineClassification {state : Option State} {emptyDiff hasConflicts : Bool}
    {cl : OrphanClassification} (h : determineClassification state emptyDiff hasConflicts = some cl) :
    CLOSE_CLASSIFICATIONS.contains cl = true ↔
      hasConflicts = true ∨ (state = some .done ∨ state = some .closed) ∨ emptyDiff = true := by
  cases state with
  | none =>
    obtain rfl := Option.some.inj h
    cases emptyDiff <;> cases hasConflicts <;> decide
  | some st => cases st <;> cases h <;> cases emptyDiff <;> cases hasConflicts <;> decide

theorem isFinishedWork_iff : isFinishedWork p branch = true ↔
    (namedTicket p branch).map Ticket.state = some .done ∨ (namedTicket p branch).map Ticket.state = some .closed := by
  unfold isFinishedWork
  cases namedTicket p branch <;> simp

theorem prHasEmptyDiff_iff : prHasEmptyDiff p branch = true ↔
    ∀ items, p.prFiles branch = some items → ∀ item ∈ items, item.additions + item.deletions = 0 := by
  unfold prHasEmptyDiff
  cases p.prFiles branch <;> simp

/-- The classification is that of the ticket's state, the diff and the conflicts, behind the guards. -/
theorem classifyBranch_eq_some_iff {c : ClassifiedOrphanPr} : classifyBranch p branch = some c ↔
    startsWith (ticketIdOf p branch) PIN_BUMP_BRANCH_SEGMENT = false ∧
    (∀ ticket, namedTicket p branch = some ticket → ticket.state ∈ ORPHAN_STATES) ∧
    (∃ pr, p.prStatus branch = some pr ∧ pr.state = "open") ∧
    ∃ cl, determineClassification ((namedTicket p branch).map Ticket.state) (prHasEmptyDiff p branch)
        (prHasConflicts p branch) = some cl ∧
      c = { branch := branch, ticketId := ticketIdOf p branch, classification := cl
            ticketState := (namedTicket p branch).map Ticket.state } := by
  have hactive : (((namedTicket p branch).map Ticket.state).any fun st => !ORPHAN_STATES.contains st) = true ↔
      ¬ ∀ ticket, namedTicket p branch = some ticket → ticket.state ∈ ORPHAN_STATES := by
    cases namedTicket p branch <;> simp
  have hopen : (!(p.prStatus branch).any fun pr => pr.state == "open") = true ↔
      ¬ ∃ pr, p.prStatus branch = some pr ∧ pr.state = "open" := by
    cases p.prStatus branch <;> simp
  unfold classifyBranch
  dsimp only
  cases hpin : startsWith (ticketIdOf p branch) PIN_BUMP_BRANCH_SEGMENT with
  | true =>
    rw [if_pos rfl]
    exact ⟨fun h => (by cases h), fun h => (by cases h.1)⟩
  | false =>
    rw [if_neg Bool.false_ne_true]
    split
    · rename_i hst
      exact ⟨fun h => (by cases h), fun h => absurd h.2.1 (hactive.1 hst)⟩
    · rename_i hst
      split
      · rename_i hshut
        exact ⟨fun h => (by cases h), fun h => absurd h.2.2.1 (hopen.1 hshut)⟩
      · rename_i hshut
        rw [Option.map_eq_some_iff]
        constructor
        · rintro ⟨cl, hcl, rfl⟩
          exact ⟨rfl, not_not.1 (mt hactive.2 hst), not_not.1 (mt hopen.2 hshut), cl, hcl, rfl⟩
        · rintro ⟨-, -, -, cl, hcl, rfl⟩
          exact ⟨cl, hcl, rfl⟩

/-- An inactive ticket has a class. -/
theorem exists_determineClassification (h : ∀ ticket, namedTicket p branch = some ticket → ticket.state ∈ ORPHAN_STATES)
    (emptyDiff hasConflicts : Bool) :
    ∃ cl, determineClassification ((namedTicket p branch).map Ticket.state) emptyDiff hasConflicts = some cl := by
  cases hticket : namedTicket p branch with
  | none => exact ⟨_, rfl⟩
  | some ticket =>
    have hstate := h ticket hticket
    simp only [ORPHAN_STATES, List.mem_cons, List.not_mem_nil, or_false] at hstate
    rcases hstate with hstate | hstate | hstate <;> rw [Option.map_some, hstate] <;> exact ⟨_, rfl⟩

/-- **What the pass would close**: what gets past the guards and looks dead. -/
theorem closable_iff_looksDead : closable p branch = true ↔ Considered p branch ∧ LooksDead p branch := by
  rw [closable_iff]
  constructor
  · rintro ⟨c, hmem, hc, hclose⟩
    obtain ⟨hpin, hinactive, hopen, cl, hcl, rfl⟩ := classifyBranch_eq_some_iff.1 hc
    refine ⟨⟨hmem, hpin, hinactive, hopen⟩, ?_⟩
    have hdead := (contains_determineClassification hcl).1 hclose
    rwa [← isFinishedWork_iff, prHasEmptyDiff_iff] at hdead
  · rintro ⟨hconsidered, hdead⟩
    obtain ⟨cl, hcl⟩ := exists_determineClassification hconsidered.inactive (prHasEmptyDiff p branch)
      (prHasConflicts p branch)
    refine ⟨_, hconsidered.guarded, classifyBranch_eq_some_iff.2
      ⟨hconsidered.noPinBump, hconsidered.inactive, hconsidered.isOpen, cl, hcl, rfl⟩, ?_⟩
    refine (contains_determineClassification hcl).2 ?_
    rwa [← isFinishedWork_iff, prHasEmptyDiff_iff]

/-- **Such a close is right exactly if the pass is fully told.** -/
theorem rightlyClosed_iff (hconsidered : Considered p branch) (hlooks : LooksDead p branch) :
    RightlyClosed p branch ↔ FullyTold p branch := by
  constructor
  · intro hright
    refine ⟨?_, fun k r hget hbranch => ?_, fun hconf hdone => ?_⟩
    · by_contra hnone
      obtain ⟨hunlisted, hknown⟩ := not_or.1 hnone
      obtain ⟨logins, hlogins⟩ := Option.ne_none_iff_exists'.1 hknown
      obtain ⟨pr, hpr, -⟩ := hright.author logins hlogins
      rw [not_not.1 hunlisted] at hpr
      cases hpr
    · by_contra hactive
      exact hright.idle ⟨k, r, hget, hbranch, hactive⟩
    · rcases hright.dead with hconf' | hdone' | ⟨items, hitems, hnone⟩
      · rw [hconf] at hconf'
        cases hconf'
      · rw [hdone] at hdone'
        cases hdone'
      · refine ⟨items, hitems, fun item hitem hchange => ?_⟩
        rw [hnone item hitem] at hchange
        cases hchange
  · intro htold
    refine ⟨fun logins hlogins => ?_, ?_, ?_⟩
    · refine author_of_guarded (htold.authors.resolve_right ?_) hconsidered.guarded hlogins
      rw [hlogins]
      exact Option.some_ne_none _
    · rintro ⟨k, r, hget, hbranch, hactive⟩
      exact hactive (htold.drivers k r hget hbranch)
    · cases hconf : reportsConflict p branch with
      | true => exact .inl rfl
      | false =>
        cases hdone : isFinishedWork p branch with
        | true => exact .inr (.inl rfl)
        | false =>
          obtain ⟨items, hitems, hlines⟩ := htold.files hconf hdone
          -- neither conflicts nor the ticket speak for the close, so the diff does
          have hempty : ∀ item ∈ items, item.additions + item.deletions = 0 := by
            rcases hlooks with hconf' | hdone' | hempty
            · rw [reportsConflict, hconf', Bool.or_true] at hconf
              cases hconf
            · rw [hdone] at hdone'
              cases hdone'
            · exact hempty items hitems
          refine .inr (.inr ⟨items, hitems, fun item hitem => ?_⟩)
          rw [← Bool.not_eq_true]
          exact fun hchange => hlines item hitem hchange (hempty item hitem)

end Classes

end Pass

/-- A mergeable pull request of the bot, whose ticket is gone and whose files the forge does not give. -/
def UNREADABLE_PR : OrphanedPrPass where
  board := "board"
  env := .standalone
  mill := .empty
  now := 0
  openPrs := [⟨"mill/T", "mill-bot"⟩]
  authenticatedLogin := "mill-bot"
  prStatus := fun _ => some { mergeable := some true }
  prConflicts := fun _ => some { mergeable := some true }
  prFiles := fun _ => none

end Agents
end RobotsixMill
