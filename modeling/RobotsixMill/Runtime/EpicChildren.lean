import RobotsixMill.Service.Children
import RobotsixMill.Service.CascadeMoves
import RobotsixMill.Runtime.Delivery
import RobotsixMill.Agents.DataDirGc
import RobotsixMill.Lib.Regex
import Mathlib.Data.Finset.Card
import Mathlib.Data.Finset.Lattice.Basic

/-!
# `Runtime.EpicChildren` — what a re-evaluation does to the children of an epic

When a child is finished, a status agent proposes changes to the others, and `_reconcile_child_changes` applies them:
it files new children, rewrites drafts and closes drafts whose scope a sibling has delivered. Three brakes keep it from
filing the same work again and again: a sibling filed a moment ago, a cap on the children filed by re-evaluations, and
titles (or paths) that say what a sibling already says.

- `Reeval` — a re-evaluation on its way through its proposals, with what it has read of the siblings;
- `readSiblings`, `fileNext`, `finish` — its parts: what it reads at the start, one proposal, the rest;
- `filed_children` — what is filed adds something to every sibling that is open, closed without a delivery, or
  satisfied;
- `finish_spares` — the rest does nothing to a ticket that is neither blocked nor a draft it is about.
-/

namespace RobotsixMill
namespace Runtime
namespace EpicChildren
open RobotsixMill.Core Lib Service

/-! ## Titles -/

/-- `_EPIC_CHILD_TERMINAL`. -/
def EPIC_CHILD_TERMINAL : List State := [.done, .closed, .answered, .epicClosed]

def RECENT_CHILD_WINDOW_SECONDS : Int := 600

def TITLE_STOPWORDS : List String :=
  ["a", "an", "the", "and", "or", "for", "of", "to", "in", "on", "with", "from", "by", "when", "into"]

/-- `[a-z0-9_]`. -/
def isTokenChar (c : Char) : Bool :=
  (97 ≤ c.toNat && c.toNat ≤ 122) || (48 ≤ c.toNat && c.toNat ≤ 57) || c.toNat == 95

/-- A word without its plural s; a stop word says nothing. -/
def titleToken (w : List Char) : Option (List Char) :=
  if w.isEmpty || (TITLE_STOPWORDS.map String.toList).contains w then none
  else if decide (3 < w.length) && "s".toList.isSuffixOf w && !"ss".toList.isSuffixOf w then some w.dropLast
  else some w

/-- The words of a text in lower case. -/
def titleWords (cs : List Char) : List (List Char) := (cs.splitOnP fun c => !isTokenChar c).filterMap titleToken

/-- `_title_tokens`. -/
def titleTokens (title : String) : Finset (List Char) := (titleWords (lower title).toList).toFinset

/-- `_titles_similar`: half of the words of both are words of each. -/
def titlesSimilar (a b : String) : Bool :=
  let ta := titleTokens a
  let tb := titleTokens b
  if ta = ∅ ∨ tb = ∅ then false
  else decide ((ta ∪ tb).card ≤ 2 * (ta ∩ tb).card)

example : titlesSimilar "Add tests for the rollback" "rollback test" = true := by decide +kernel

/-! ### White space around a title -/

theorem titleWords_append_cons (xs ys : List Char) {c : Char} (hc : isTokenChar c = false) :
    titleWords (xs ++ c :: ys) = titleWords xs ++ titleWords ys := by
  unfold titleWords
  rw [List.splitOnP_append_cons xs ys (by rw [hc]; rfl), List.filterMap_append]

theorem lowerChar_of_isPySpace {c : Char} (hc : isPySpace c = true) : lowerChar c = [c] ∧ isTokenChar c = false := by
  have hn : c.toNat < 33 ∨ 122 < c.toNat ∧ c.toNat ≠ 0x212a ∧ c.toNat ≠ 0x130 := by
    simp only [isPySpace, Bool.or_eq_true, Bool.and_eq_true, decide_eq_true_eq, beq_iff_eq] at hc
    omega
  have hupper : ¬(65 ≤ c.toNat ∧ c.toNat ≤ 90) := by omega
  constructor
  · unfold lowerChar asciiLower
    rw [if_neg (by omega), if_neg (by omega), if_neg (by simpa using fun h => not_and.1 hupper h)]
  · simp only [isTokenChar, Bool.or_eq_false_iff, Bool.and_eq_false_iff, decide_eq_false_iff_not, beq_eq_false_iff_ne]
    omega

theorem titleWords_dropWhile (cs : List Char) :
    titleWords ((cs.dropWhile isPySpace).flatMap lowerChar) = titleWords (cs.flatMap lowerChar) := by
  induction cs with
  | nil => rfl
  | cons c cs ih =>
    by_cases hc : isPySpace c = true
    · obtain ⟨hlower, htoken⟩ := lowerChar_of_isPySpace hc
      rw [List.dropWhile_cons_of_pos hc, ih, List.flatMap_cons, hlower]
      exact (titleWords_append_cons [] _ htoken).symm
    · rw [List.dropWhile_cons_of_neg hc]

theorem titleWords_dropWhile_reverse (cs : List Char) :
    titleWords ((cs.dropWhile isPySpace).reverse.flatMap lowerChar) = titleWords (cs.reverse.flatMap lowerChar) := by
  induction cs with
  | nil => rfl
  | cons c cs ih =>
    by_cases hc : isPySpace c = true
    · obtain ⟨hlower, htoken⟩ := lowerChar_of_isPySpace hc
      rw [List.dropWhile_cons_of_pos hc, ih, List.reverse_cons, List.flatMap_append, List.flatMap_singleton, hlower,
        titleWords_append_cons _ [] htoken]
      exact (List.append_nil _).symm
    · rw [List.dropWhile_cons_of_neg hc]

/-- A title says the same without the white space around it. -/
theorem titleTokens_strip (title : String) : titleTokens (strip title) = titleTokens title := by
  unfold titleTokens lower strip stripChars
  rw [String.toList_ofList, String.toList_ofList, String.toList_ofList, titleWords_dropWhile_reverse,
    List.reverse_reverse, titleWords_dropWhile]

theorem titlesSimilar_strip (a b : String) : titlesSimilar (strip a) b = titlesSimilar a b := by
  unfold titlesSimilar
  rw [titleTokens_strip]

theorem titlesSimilar_comm (a b : String) : titlesSimilar a b = titlesSimilar b a := by
  unfold titlesSimilar
  dsimp only
  rw [Finset.union_comm, Finset.inter_comm]
  exact if_congr or_comm rfl rfl

/-! ## Ages -/

/-- `_id_created_at`, in microseconds. -/
def idCreatedAt (ticket_id : TicketId) : Option Int :=
  if Agents.isTicketName ticket_id then Agents.closeTimeFromTicketId ticket_id else none

/-! ## Paths -/

section Paths

-- `\w`: letters, digits and the underscore
variable (isWordChar : Char → Bool)

open Matcher in
/-- `_PATH_TOKEN_RE`, for a text of at most so many characters. -/
def PATH_TOKEN_RE (size : Nat) : Matcher Char :=
  let segment := plus fun c => isWordChar c || decide (c = '.') || decide (c = '-')
  seq segment (seq (lit ['/']) (seq segment (rep (seq (lit ['/']) segment) size)))

/-- `_path_tokens`. -/
def pathTokens (text : String) : Finset (List Char) :=
  (((PATH_TOKEN_RE isWordChar text.length).findAll text.toList).map fun token =>
    (token.reverse.dropWhile fun c => decide (c = '.')).reverse).toFinset

end Paths

open Matcher in
/-- `_UNCLASSIFIED_GAP_RE`. -/
def UNCLASSIFIED_GAP_RE : Grouped Char :=
  let path_char := fun c => !isPySpace c
  .andThen
    (.plain (seq (lit "<!--".toList) (seq (many isPySpace) (seq (lit "module_curator-gap-id:".toList)
      (seq (many isPySpace) (lit "unclassified:".toList))))))
    (.andThen (.group (seq (one path_char) (manyLazy path_char))) (.plain (seq (many isPySpace) (lit "-->".toList))))

/-- `parse_unclassified_gap_path`. -/
def parseUnclassifiedGapPath (text : String) : Option (List Char) :=
  match UNCLASSIFIED_GAP_RE.searchFrom (fun _ => true) none text.toList with
  | some [some found] =>
    let backtick := fun c : Char => c.toNat == 96
    let bare := (((stripChars found).dropWhile backtick).reverse.dropWhile backtick).reverse
    let path := if ['.', '/'].isPrefixOf bare then bare.drop 2 else bare
    if path.isEmpty then none else some path
  | _ => none

/-! ## The siblings -/

/-- A proposed child, or the fields to rewrite; a field that is missing has nothing. -/
structure ChildFields where
  title : Option String := none
  body : Option String := none
deriving DecidableEq, Repr

/-- The changes to the children in `EpicStatusResult`. A closure names the sibling that covers the child. -/
structure EpicStatusResult where
  newChildren : List ChildFields := []
  childRescopes : List (TicketId × ChildFields) := []
  childClosures : List (TicketId × Option TicketId) := []
deriving DecidableEq, Repr

/-- The settings that bound a re-evaluation. -/
structure EpicSettings where
  epicMaxReevalChildren : Nat := 5
  epicDedupLookbackDays : Int := 7

/-- A child that closed as satisfied: its title, and the paths of the gap it was about. -/
structure SatisfiedChild where
  id : TicketId
  title : String
  gapPaths : Finset (List Char)
deriving DecidableEq

/-- A re-evaluation: the proposals to come, what it has read and filed, and what is left to do after them. -/
structure Reeval where
  svc : BoardId
  pending : List ChildFields
  reevalCount : Nat
  liveTitles : List String
  closedNoDelivery : List (TicketId × String)
  satisfied : List SatisfiedChild
  childRescopes : List (TicketId × ChildFields)
  childClosures : List (TicketId × Option TicketId)
deriving DecidableEq

def isTerminal (c : Key × TicketRecord) : Bool := decide (c.2.ticket.state ∈ EPIC_CHILD_TERMINAL)

/-- Was the ticket created within the window before `now`? -/
def isRecent (now : DateTime) (tid : TicketId) : Bool :=
  (idCreatedAt tid).any fun created => decide ((now : Int) - created < RECENT_CHILD_WINDOW_SECONDS * 1000000)

/-- Was the ticket created long enough after the epic to come from a re-evaluation? -/
def isReevalChild (epic_id tid : TicketId) : Bool :=
  match idCreatedAt epic_id, idCreatedAt tid with
  | some epic_created, some created => decide (RECENT_CHILD_WINDOW_SECONDS * 1000000 < created - epic_created)
  | _, _ => false

/-- `_count_reeval_children`. -/
def countReevalChildren (epic_id : TicketId) (children : List (Key × TicketRecord)) : Nat :=
  (children.filter fun c => isReevalChild epic_id c.1.2).length

/-- Is the ticket too old for the lookback? An id without a time is not. -/
def isBeyond (lookback_days : Int) (now : DateTime) (tid : TicketId) : Bool :=
  (idCreatedAt tid).any fun created => decide (lookback_days * 86400 * 1000000 < (now : Int) - created)

section Siblings

variable (env : Env) (isWordChar : Char → Bool) (svc : BoardId)

/-- `_closed_no_delivery_children`. -/
def closedNoDeliveryChildren (σ : Mill) (children : List (Key × TicketRecord)) (now : DateTime) (lookback_days : Int) :
    List (TicketId × String) :=
  (children.filter fun c =>
    isTerminal c && !isBeyond lookback_days now c.1.2 &&
      !(deliveryOf env svc isWordChar σ c.1.2).elim true Delivery.delivered).map
    fun c => (c.1.2, c.2.ticket.title)

/-- `_satisfied_children`. -/
def satisfiedChildren (σ : Mill) (children : List (Key × TicketRecord)) : List SatisfiedChild :=
  (children.filter fun c => isTerminal c && (deliveryOf env svc isWordChar σ c.1.2).any Delivery.satisfied).map fun c =>
    let paths := pathTokens isWordChar c.2.ticket.title
    { id := c.1.2
      title := c.2.ticket.title
      gapPaths := match parseUnclassifiedGapPath (σ.workspace c.1).readDescription with
        | some marker => insert marker paths
        | none => paths }

variable (cfg : EpicSettings) (epic_id : TicketId)

/-- What `_reconcile_child_changes` reads before it files anything. -/
def readSiblings (now : DateTime) (result : EpicStatusResult) (σ : Mill) : Reeval :=
  let existing_children := listChildrenAcrossBoards env svc epic_id σ
  let recent := existing_children.filter fun c => !isTerminal c && isRecent now c.1.2
  let reeval_count := countReevalChildren epic_id existing_children
  -- either brake drops all proposals
  let new_children :=
    if recent ≠ [] ∨ cfg.epicMaxReevalChildren ≤ reeval_count then [] else result.newChildren
  { svc := svc
    pending := new_children
    reevalCount := reeval_count
    liveTitles := (existing_children.filter fun c => !isTerminal c).map fun c => c.2.ticket.title
    closedNoDelivery :=
      if new_children = [] then []
      else closedNoDeliveryChildren env isWordChar svc σ existing_children now cfg.epicDedupLookbackDays
    satisfied := if new_children = [] then [] else satisfiedChildren env isWordChar svc σ existing_children
    childRescopes := result.childRescopes
    childClosures := result.childClosures }

/-! ## Filing -/

/-- Why a proposal is skipped. -/
inductive Skip
  | noTitle
  | noBody
  | liveSibling (title : String)
  | closedMatch (id : TicketId)
  | satisfiedMatch (id : TicketId)
deriving DecidableEq, Repr

/-- The checks on a proposal. -/
def skipped (p : Reeval) (title body : String) : Option Skip :=
  if isBlank title then some .noTitle
  else if isBlank body then some .noBody
  else
    match p.liveTitles.find? (titlesSimilar title) with
    | some t => some (.liveSibling t)
    | none =>
      match p.closedNoDelivery.find? fun c => titlesSimilar title c.2 with
      | some c => some (.closedMatch c.1)
      | none =>
        let new_paths := pathTokens isWordChar (title ++ "\n" ++ body)
        (p.satisfied.find? fun c => !decide (c.gapPaths ∩ new_paths = ∅) || titlesSimilar title c.title).map
          fun c => .satisfiedMatch c.id

/-- The ticket filed for a proposal; its id is the one `create` draws. -/
def childArgs (id : TicketId) (title body : String) : CreateArgs where
  id := id
  title := strip title
  description := strip body
  kind := .task
  parentId := some epic_id

/-- One round of the loop over `new_children`. -/
def fileNext (id : TicketId) (s : Mill × Reeval) : Mill × Reeval :=
  match s.2.pending with
  | [] => s
  | child_spec :: pending =>
    if cfg.epicMaxReevalChildren ≤ s.2.reevalCount then (s.1, { s.2 with pending := [] })
    else
      let title := child_spec.title.getD ""
      let body := child_spec.body.getD ""
      match skipped isWordChar s.2 title body with
      | some _ => (s.1, { s.2 with pending := pending })
      | none =>
        match create env s.2.svc (childArgs epic_id id title body) s.1 with
        | (σ, .ok ()) =>
          (σ, { s.2 with
            pending := pending
            reevalCount := s.2.reevalCount + 1
            liveTitles := s.2.liveTitles ++ [strip title] })
        | (σ, .error _) => (σ, { s.2 with pending := pending })

/-- So many rounds. -/
def fileRounds (newId : Nat → TicketId) : Nat → Mill × Reeval → Mill × Reeval
  | 0, s => s
  | n + 1, s => fileRounds newId n (fileNext env isWordChar cfg epic_id (newId n) s)

/-- The first part of `_reconcile_child_changes`, with nothing else going on. -/
def fileChildren (now : DateTime) (newId : Nat → TicketId) (result : EpicStatusResult) (σ : Mill) : Mill × Reeval :=
  let p := readSiblings env isWordChar svc cfg epic_id now result σ
  fileRounds env isWordChar cfg epic_id newId p.pending.length (σ, p)

/-! ## Rewriting and closing drafts -/

/-- `_fetch_draft_child`. -/
def fetchDraftChild (child_id : TicketId) (σ : Mill) : Option (Key × TicketRecord) :=
  (get env svc σ child_id).filter fun kr => decide (kr.2.ticket.state = .draft)

/-- One entry of `child_rescopes`. -/
def rescopeChild (σ : Mill) (entry : TicketId × ChildFields) : Mill :=
  let new_title := entry.2.title.getD ""
  let new_body := entry.2.body.getD ""
  if isBlank new_title && isBlank new_body then σ
  else
    match fetchDraftChild env svc entry.1 σ with
    | none => σ
    | some (k, _) =>
      let σ := if isBlank new_title then σ else (setTitle env svc entry.1 (strip new_title) σ).1
      if isBlank new_body then σ
      else (setContentHash env svc entry.1
        (σ.editWorkspace k fun ws => { ws with description := some (strip new_body) })).1

/-- One entry of `child_closures`. -/
def closeChild (σ : Mill) (entry : TicketId × Option TicketId) : Mill :=
  if isBlank entry.1 then σ
  else
    match fetchDraftChild env svc entry.1 σ with
    | none => σ
    | some _ =>
      let covering := strip (entry.2.getD "")
      if covering = "" ∨ covering = entry.1 then σ
      else if (deliveryOf env svc isWordChar σ covering).any Delivery.delivered then
        let note := s!"Obsoleted: scope delivered by merged sibling {covering}"
        (transition env svc entry.1 .closed (some note) none σ).1
      else σ

/-- What `_reconcile_child_changes` does after the loop. -/
def finish (p : Reeval) (σ : Mill) : Mill :=
  p.childClosures.foldl (closeChild env isWordChar p.svc) (p.childRescopes.foldl (rescopeChild env p.svc) σ)

end Siblings

/-! ## One proposal -/

section Filing

variable {env : Env} {isWordChar : Char → Bool} {cfg : EpicSettings} {epic_id : TicketId}

theorem similar_eq_false_of_skipped {p : Reeval} {title body : String} (h : skipped isWordChar p title body = none) :
    (∀ t ∈ p.liveTitles, titlesSimilar title t = false) ∧
    (∀ c ∈ p.closedNoDelivery, titlesSimilar title c.2 = false) ∧
    ∀ c ∈ p.satisfied, titlesSimilar title c.title = false := by
  unfold skipped at h
  split at h
  · cases h
  split at h
  · cases h
  split at h
  · cases h
  rename_i hlive
  split at h
  · cases h
  rename_i hclosed
  have hsatisfied := List.find?_eq_none.1 (Option.map_eq_none_iff.1 h)
  refine ⟨fun t ht => ?_, fun c hc => ?_, fun c hc => ?_⟩
  · exact Bool.eq_false_iff.2 (List.find?_eq_none.1 hlive t ht)
  · exact Bool.eq_false_iff.2 (List.find?_eq_none.1 hclosed c hc)
  · exact Bool.eq_false_iff.2 fun hsimilar => hsatisfied c hc (Bool.or_eq_true_iff.2 (.inr hsimilar))

/-- A round that files `new`. -/
structure Files (isWordChar : Char → Bool) (cfg : EpicSettings) (epic_id id : TicketId) (s s' : Mill × Reeval)
    (new : TicketRecord) : Prop where
  room : s.2.reevalCount < cfg.epicMaxReevalChildren
  board : s.2.svc ≠ ""
  absent : s.1.records.get (s.2.svc, id) = none
  proposed : ∃ title body, skipped isWordChar s.2 title body = none ∧ new.ticket.title = strip title
  draft : new.ticket.state = .draft
  child : new.ticket.parentId = some epic_id
  records : s'.1.records = s.1.records.put (s.2.svc, id) new
  reeval : ∃ pending, s'.2 = { s.2 with
    pending := pending
    reevalCount := s.2.reevalCount + 1
    liveTitles := s.2.liveTitles ++ [new.ticket.title] }

/-- **One round** files nothing, or one child. -/
theorem fileNext_cases (id : TicketId) (s : Mill × Reeval) :
    ((fileNext env isWordChar cfg epic_id id s).1.records = s.1.records ∧
      ∃ pending, (fileNext env isWordChar cfg epic_id id s).2 = { s.2 with pending := pending }) ∨
    ∃ new, Files isWordChar cfg epic_id id s (fileNext env isWordChar cfg epic_id id s) new := by
  obtain ⟨σ, p⟩ := s
  unfold fileNext
  dsimp only
  cases hpending : p.pending with
  | nil => exact .inl ⟨rfl, p.pending, rfl⟩
  | cons child_spec pending =>
    dsimp only
    by_cases hfull : cfg.epicMaxReevalChildren ≤ p.reevalCount
    · rw [if_pos hfull]
      exact .inl ⟨rfl, [], rfl⟩
    · rw [if_neg hfull]
      cases hskip : skipped isWordChar p (child_spec.title.getD "") (child_spec.body.getD "") with
      | some reason => exact .inl ⟨rfl, pending, rfl⟩
      | none =>
        dsimp only
        have hcases := @create_cases env p.svc
          (childArgs epic_id id (child_spec.title.getD "") (child_spec.body.getD "")) σ
        cases hcreate : create env p.svc
            (childArgs epic_id id (child_spec.title.getD "") (child_spec.body.getD "")) σ with
        | mk σ' outcome =>
          rw [hcreate] at hcases
          obtain ⟨hsame, hfails⟩ | ⟨habsent, hboard, hok, inherited, hput⟩ := hcases
          · -- `create` raised
            cases outcome with
            | ok _ => exact absurd rfl hfails
            | error e => exact .inl ⟨hsame, pending, rfl⟩
          · obtain rfl : outcome = .ok () := hok
            exact .inr ⟨_, Nat.lt_of_not_le hfull, hboard, habsent, ⟨_, _, hskip, rfl⟩, rfl, rfl, hput, pending, rfl⟩

/-! ## All proposals -/

/-- What a re-evaluation that began as `p₀` over `σ₀` has filed by now. -/
structure Filed (env : Env) (svc : BoardId) (epic_id : TicketId) (σ₀ : Mill) (p₀ : Reeval) (s : Mill × Reeval) :
    Prop where
  kept : ∀ k r, σ₀.records.get k = some r → s.1.records.get k = some r
  svc_eq : s.2.svc = svc
  closed_eq : s.2.closedNoDelivery = p₀.closedNoDelivery
  satisfied_eq : s.2.satisfied = p₀.satisfied
  /-- The titles of the open siblings are known. -/
  titles : ∀ c ∈ listChildrenAcrossBoards env svc epic_id s.1, isTerminal c = false →
    c.2.ticket.title ∈ s.2.liveTitles
  new : ∀ c ∈ listChildrenAcrossBoards env svc epic_id s.1, c ∉ listChildrenAcrossBoards env svc epic_id σ₀ →
    c.2.ticket.state = .draft ∧
    (∀ other ∈ listChildrenAcrossBoards env svc epic_id s.1, other.1 ≠ c.1 → isTerminal other = false →
      titlesSimilar c.2.ticket.title other.2.ticket.title = false) ∧
    (∀ closed ∈ p₀.closedNoDelivery, titlesSimilar c.2.ticket.title closed.2 = false) ∧
    ∀ satisfied ∈ p₀.satisfied, titlesSimilar c.2.ticket.title satisfied.title = false

theorem listChildren_congr {svc : BoardId} {σ σ' : Mill} (h : σ'.records = σ.records) (parent_id : TicketId) :
    listChildrenAcrossBoards env svc parent_id σ' = listChildrenAcrossBoards env svc parent_id σ := by
  obtain ⟨T, ws, n⟩ := σ
  obtain ⟨T', ws', n'⟩ := σ'
  subst h
  rfl

theorem isTerminal_eq_false_of_draft {c : Key × TicketRecord} (h : c.2.ticket.state = .draft) :
    isTerminal c = false := by
  unfold isTerminal
  rw [h]
  rfl

variable {svc : BoardId} {σ₀ : Mill} {p₀ : Reeval} {s : Mill × Reeval}

theorem Filed.fileNext (h : Filed env svc epic_id σ₀ p₀ s) (id : TicketId) :
    Filed env svc epic_id σ₀ p₀ (fileNext env isWordChar cfg epic_id id s) := by
  obtain ⟨hsame, pending, hp⟩ | ⟨new, hfiles⟩ :=
    @fileNext_cases env isWordChar cfg epic_id id s
  · have hlist := @listChildren_congr env svc _ _ hsame epic_id
    refine ⟨?_, ?_, ?_, ?_, ?_, ?_⟩
    · rw [hsame]
      exact h.kept
    · rw [hp]
      exact h.svc_eq
    · rw [hp]
      exact h.closed_eq
    · rw [hp]
      exact h.satisfied_eq
    · rw [hlist, hp]
      exact h.titles
    · rw [hlist]
      exact h.new
  · obtain ⟨pending, hp⟩ := hfiles.reeval
    obtain ⟨title, body, hskip, htitle⟩ := hfiles.proposed
    obtain ⟨hlive, hclosed, hsatisfied⟩ := similar_eq_false_of_skipped hskip
    have hsvc : s.2.svc = svc := h.svc_eq
    have hput : (EpicChildren.fileNext env isWordChar cfg epic_id id s).1.records = s.1.records.put (svc, id) new := by
      rw [← hsvc]
      exact hfiles.records
    have hlisted : ∀ c ∈ listChildrenAcrossBoards env svc epic_id
        (EpicChildren.fileNext env isWordChar cfg epic_id id s).1,
        (c.1 = (svc, id) ∧ c.2 = new) ∨
          (c.1.2 ≠ id ∧ c ∈ listChildrenAcrossBoards env svc epic_id s.1) := fun c hc =>
      mem_listChildren_put (hsvc ▸ hfiles.board) hput hfiles.child hc
    -- what is filed now says something new
    have hfresh : ∀ t ∈ s.2.liveTitles, titlesSimilar new.ticket.title t = false := by
      intro t ht
      rw [htitle, titlesSimilar_strip]
      exact hlive t ht
    refine ⟨?_, ?_, ?_, ?_, ?_, ?_⟩
    · intro k r hget
      rw [hfiles.records, Table.get_put_ne]
      · exact h.kept k r hget
      · rintro rfl
        have habsent := hfiles.absent
        rw [h.kept _ r hget] at habsent
        cases habsent
    · rw [hp]
      exact h.svc_eq
    · rw [hp]
      exact h.closed_eq
    · rw [hp]
      exact h.satisfied_eq
    · intro c hc hopen
      rw [hp]
      obtain ⟨-, hnew⟩ | ⟨-, hold⟩ := hlisted c hc
      · rw [hnew]
        exact List.mem_append_right _ (List.mem_singleton_self _)
      · exact List.mem_append_left _ (h.titles c hold hopen)
    · intro c hc hadded
      obtain ⟨hkey, hnew⟩ | ⟨hid, hold⟩ := hlisted c hc
      · rw [hnew]
        refine ⟨hfiles.draft, ?_, ?_, ?_⟩
        · intro other hother hne hopen
          obtain ⟨hkey', -⟩ | ⟨-, hold'⟩ := hlisted other hother
          · exact absurd (hkey'.trans hkey.symm) hne
          · exact hfresh _ (h.titles other hold' hopen)
        · intro closed hmem
          rw [htitle, titlesSimilar_strip]
          exact hclosed closed (h.closed_eq ▸ hmem)
        · intro satisfied hmem
          rw [htitle, titlesSimilar_strip]
          exact hsatisfied satisfied (h.satisfied_eq ▸ hmem)
      · obtain ⟨hdraft, hothers, hrest⟩ := h.new c hold hadded
        refine ⟨hdraft, ?_, hrest⟩
        intro other hother hne hopen
        obtain ⟨-, hnew⟩ | ⟨-, hold'⟩ := hlisted other hother
        · rw [hnew, titlesSimilar_comm]
          exact hfresh _ (h.titles c hold (isTerminal_eq_false_of_draft hdraft))
        · exact hothers other hold' hne hopen

theorem Filed.fileRounds (newId : Nat → TicketId) (n : Nat) (h : Filed env svc epic_id σ₀ p₀ s) :
    Filed env svc epic_id σ₀ p₀ (fileRounds env isWordChar cfg epic_id newId n s) := by
  induction n generalizing s with
  | zero => exact h
  | succ n ih => exact ih (h.fileNext (newId n))

theorem filed_readSiblings (now : DateTime) (result : EpicStatusResult) (σ : Mill) :
    Filed env svc epic_id σ (readSiblings env isWordChar svc cfg epic_id now result σ)
      (σ, readSiblings env isWordChar svc cfg epic_id now result σ) where
  kept _ _ h := h
  svc_eq := rfl
  closed_eq := rfl
  satisfied_eq := rfl
  titles c hc hopen := List.mem_map.2 ⟨c, List.mem_filter.2 ⟨hc, by rw [hopen]; rfl⟩, rfl⟩
  new c hc hadded := absurd hc hadded

end Filing

/-! ## The drafts a re-evaluation is about -/

section Finishing

variable {env : Env} {isWordChar : Char → Bool} {svc : BoardId} {σ σ' : Mill} {k : Key}

/-- The closure names a sibling that covers the child. -/
def namesCover (entry : TicketId × Option TicketId) : Bool :=
  !decide (strip (entry.2.getD "") = "") && !decide (strip (entry.2.getD "") = entry.1)

/-- Neither the rewriting nor the closing is about the ticket: it is not blocked, and if it is a draft, it is not among
    those to rewrite or to close for a sibling that covers it. -/
def OutOfReach (p : Reeval) (σ : Mill) (k : Key) : Prop :=
  ∀ r, σ.records.get k = some r → r.ticket.state ≠ .blocked ∧
    (r.ticket.state = .draft →
      k.2 ∉ p.childRescopes.map Prod.fst ∧ ∀ entry ∈ p.childClosures, entry.1 = k.2 → namesCover entry = false)

theorem OutOfReach.of_spared {p : Reeval} (h : OutOfReach p σ k) (hspared : Spared env svc σ σ' k) :
    OutOfReach p σ' k :=
  fun r hget => h r (hspared.record_eq hget)

theorem asBefore_putRecord {k' : Key} (r : TicketRecord) (hne : k ≠ k') : AsBefore σ (σ.putRecord k' r).tick k :=
  ⟨Table.get_put_ne _ _ hne, rfl⟩

theorem asBefore_trans {σ₁ σ₂ : Mill} (h : AsBefore σ σ₁ k) (h' : AsBefore σ₁ σ₂ k) : AsBefore σ σ₂ k :=
  ⟨h'.1.trans h.1, h'.2.trans h.2⟩

theorem fetch_of_fetchDraftChild {child_id : TicketId} {kr : Key × TicketRecord}
    (h : fetchDraftChild env svc child_id σ = some kr) :
    fetch env svc σ child_id = .ok kr ∧ kr.2.ticket.state = .draft := by
  obtain ⟨hget, hdraft⟩ := Option.filter_eq_some_iff.1 h
  exact ⟨fetch_of_get hget, of_decide_eq_true hdraft⟩

theorem asBefore_setTitle {tid : TicketId} {k' : Key} {r : TicketRecord} (hf : fetch env svc σ tid = .ok (k', r))
    (hne : k ≠ k') (title : String) : AsBefore σ (setTitle env svc tid title σ).1 k := by
  unfold setTitle
  rw [hf]
  exact asBefore_putRecord _ hne

theorem fetch_setTitle {tid : TicketId} {k' : Key} {r : TicketRecord} (hf : fetch env svc σ tid = .ok (k', r))
    (title : String) : ∃ r', fetch env svc (setTitle env svc tid title σ).1 tid = .ok (k', r') := by
  unfold setTitle
  rw [hf]
  exact ⟨_, fetch_putRecord hf⟩

/-- Writing the body of a ticket and stamping its row. -/
theorem asBefore_describe {tid : TicketId} {k' : Key} {r : TicketRecord} (hf : fetch env svc σ tid = .ok (k', r))
    (hne : k ≠ k') (f : Workspace → Workspace) :
    AsBefore σ (setContentHash env svc tid (σ.editWorkspace k' f)).1 k := by
  have hf' : fetch env svc (σ.editWorkspace k' f) tid = .ok (k', r) := (fetch_congr rfl tid).trans hf
  unfold setContentHash
  rw [hf']
  exact ⟨Table.get_put_ne _ _ hne, Function.update_of_ne hne ..⟩

theorem asBefore_rescopeChild {p : Reeval} (h : OutOfReach p σ k) {entry : TicketId × ChildFields}
    (hentry : entry ∈ p.childRescopes) : AsBefore σ (rescopeChild env svc σ entry) k := by
  unfold rescopeChild
  dsimp only
  split
  · exact .refl σ k
  split
  · exact .refl σ k
  · rename_i k' r hdraft
    obtain ⟨hf, hstate⟩ := fetch_of_fetchDraftChild hdraft
    -- the ticket rewritten is a draft of the list
    have hne : k ≠ k' := by
      rintro rfl
      obtain ⟨hid, hget⟩ := get_of_fetch hf
      exact ((h r hget).2 hstate).1 (hid ▸ List.mem_map_of_mem hentry)
    by_cases htitle : isBlank (entry.2.title.getD "") = true
    · rw [if_pos htitle]
      split
      · exact .refl σ k
      · exact asBefore_describe hf hne _
    · rw [if_neg htitle]
      have hrow := asBefore_setTitle hf hne (strip (entry.2.title.getD ""))
      obtain ⟨r', hf'⟩ := fetch_setTitle hf (strip (entry.2.title.getD ""))
      split
      · exact hrow
      · exact asBefore_trans hrow (asBefore_describe hf' hne _)

/-- A transition spares the tickets that are not blocked, but for its own. -/
theorem spared_transition {tid : TicketId} {dst : State} {note reason : Option String} {k₀ : Key} {r₀ : TicketRecord}
    (hf : fetch env svc σ tid = .ok (k₀, r₀)) (hne : k ≠ k₀)
    (hopen : ∀ r, σ.records.get k = some r → r.ticket.state ≠ .blocked) :
    Spared env svc σ (transition env svc tid dst note reason σ).1 k := by
  obtain ⟨moves, inner, rfl, hfires⟩ := @transitions_transition env svc tid dst note reason σ
  cases hsession : transitionSession env svc tid dst note reason σ with
  | mk σ₁ res =>
    rw [hsession] at hfires
    dsimp only at hfires
    obtain halone | ⟨k₁, r₁, hcommitted⟩ := session_cases hsession
    · rw [halone.fired] at hfires
      obtain ⟨-, hstore⟩ := hfires.nil_inv
      rw [hstore, halone.store]
      exact .inl (.refl σ k)
    · obtain ⟨rfl, rfl⟩ := Prod.mk.inj (Except.ok.inj (hf.symm.trans hcommitted.fetched))
      have hself := hcommitted.others k hne
      -- the cascade moves blocked tickets only
      have hnot : k ∉ inner := by
        intro hmoved
        obtain ⟨r, hget, hblocked⟩ := hfires.advances.blocked k hmoved
        exact hopen r (hself.record_eq hget) hblocked
      exact hself.trans (hfires.advances.others k hnot)

theorem spared_closeChild {p : Reeval} (h : OutOfReach p σ k) {entry : TicketId × Option TicketId}
    (hentry : entry ∈ p.childClosures) : Spared env svc σ (closeChild env isWordChar svc σ entry) k := by
  unfold closeChild
  split
  · exact .inl (.refl σ k)
  split
  · exact .inl (.refl σ k)
  · rename_i kr hdraft
    dsimp only
    split
    · exact .inl (.refl σ k)
    rename_i hcover
    split
    · obtain ⟨hf, hstate⟩ := fetch_of_fetchDraftChild hdraft
      have hnames : namesCover entry = true := by
        obtain ⟨hsome, hother⟩ := not_or.1 hcover
        simp [namesCover, hsome, hother]
      have hne : k ≠ kr.1 := by
        rintro rfl
        obtain ⟨hid, hget⟩ := get_of_fetch hf
        exact absurd hnames (Bool.eq_false_iff.1 (((h kr.2 hget).2 hstate).2 entry hentry hid.symm))
      exact spared_transition hf hne fun r hget => (h r hget).1
    · exact .inl (.refl σ k)

/-- A part that spares what is out of reach, entry by entry. -/
theorem spared_foldl {α : Type} {p : Reeval} {f : Mill → α → Mill} {l : List α}
    (hf : ∀ σ, OutOfReach p σ k → ∀ a ∈ l, Spared env svc σ (f σ a) k) (h : OutOfReach p σ k) :
    Spared env svc σ (l.foldl f σ) k := by
  induction l generalizing σ with
  | nil => exact .inl (.refl σ k)
  | cons a l ih =>
    have hone := hf σ h a List.mem_cons_self
    rw [List.foldl_cons]
    exact hone.trans (ih (fun σ hσ b hb => hf σ hσ b (List.mem_cons_of_mem a hb)) (h.of_spared hone))

/-- **The end of a re-evaluation** does nothing to a ticket that is neither blocked nor a draft it rewrites or closes
    for a sibling, but the purge may delete an archived one. -/
theorem finish_spares (env : Env) (isWordChar : Char → Bool) (p : Reeval) (σ : Mill) (k : Key)
    (h : OutOfReach p σ k) : Spared env p.svc σ (finish env isWordChar p σ) k := by
  have hrescoped : Spared env p.svc σ (p.childRescopes.foldl (rescopeChild env p.svc) σ) k :=
    spared_foldl (fun σ hσ entry hentry => .inl (asBefore_rescopeChild hσ hentry)) h
  exact hrescoped.trans
    (spared_foldl (fun σ hσ entry hentry => spared_closeChild hσ hentry) (h.of_spared hrescoped))

end Finishing

/-- A draft, and a ticket at work. -/
def Mill.atWork : Mill where
  records := (Table.empty.put
    ("mill", "t-1") ⟨{ title := "draft", state := .draft, createdAt := 1, updatedAt := 1 }, [], []⟩).put
    ("mill", "t-2") ⟨{ title := "at work", state := .ready, createdAt := 2, updatedAt := 2 }, [], []⟩
  workspaces := fun _ => none
  ticks := 0

/-- A re-evaluation that would rewrite both. -/
def rewritesBoth : Reeval :=
  { svc := "mill", pending := [], reevalCount := 0, liveTitles := [], closedNoDelivery := [], satisfied := []
    childRescopes := [("t-1", { title := some "narrower" }), ("t-2", { title := some "narrower" })]
    childClosures := [("t-2", none)] }

theorem finish_spares_atWork :
    ((finish .standalone Char.isAlphanum rewritesBoth Mill.atWork).records.get ("mill", "t-1")).map
      (fun r => r.ticket.title) = some "narrower" ∧
    Spared .standalone "mill" Mill.atWork (finish .standalone Char.isAlphanum rewritesBoth Mill.atWork)
      ("mill", "t-2") := by
  refine ⟨by decide +kernel, finish_spares .standalone Char.isAlphanum rewritesBoth Mill.atWork ("mill", "t-2") ?_⟩
  intro r hget
  obtain rfl := Option.some.inj hget
  exact ⟨State.noConfusion, State.noConfusion⟩

end EpicChildren
end Runtime
end RobotsixMill
