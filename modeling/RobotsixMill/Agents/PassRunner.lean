import Mathlib.Data.List.Sort
import RobotsixMill.Core.States
import RobotsixMill.Lib.PyText
import RobotsixMill.Lib.Runs
import RobotsixMill.Lib.Table

/-!
# `Agents.PassRunner` — the findings of the periodic agents

`run_agent_pass` files what a periodic agent reports, one draft for a finding, or with `scanner_rollup` one for
all of them. A finding names its gap; the id goes into a marker at the end of the description and is read back
from there before the next draft is filed. Ids are compared by `canonical_gap_id`, whatever the order of their
words.

- `gapMarkers`, `canonicalGapId`, `findPriorGap` — the ids, read back and compared;
- `collapsed`, `createOneDraft` — a pass;
- `isSome_findPriorGap_iff` — when a draft is taken for a duplicate;
- `finding_is_filed_once` — the histories in which no finding is filed twice or dropped wrongly.
-/

namespace RobotsixMill
namespace Agents
open RobotsixMill.Core Lib

/-! ## Markers -/

/-- `\s*(\S+)\s*-->` at the start of the text: the id, and the text after the match. -/
def idThenClose (cs : List Char) : Option (List Char × List Char) :=
  let cs := cs.dropWhile isPySpace
  let run := cs.takeWhile fun c => !isPySpace c
  -- the longest id first
  (List.range run.length).reverse.findSome? fun k =>
    let after := (cs.drop (k + 1)).dropWhile isPySpace
    if "-->".toList.isPrefixOf after then some (cs.take (k + 1), after.drop 3) else none

/-- `<!--\s*(\S+)-gap-id:\s*(\S+)\s*-->` at the start of the text. -/
def markerAt (cs : List Char) : Option ((String × String) × List Char) :=
  if "<!--".toList.isPrefixOf cs then
    let cs := (cs.drop 4).dropWhile isPySpace
    let run := cs.takeWhile fun c => !isPySpace c
    (List.range run.length).reverse.findSome? fun k =>
      let after := cs.drop (k + 1)
      if "-gap-id:".toList.isPrefixOf after then
        (idThenClose (after.drop 8)).map fun found => ((.ofList (cs.take (k + 1)), .ofList found.1), found.2)
      else none
  else none

/-- The matches of a text this long. -/
def gapMarkersFrom : Nat → List Char → List (String × String)
  | 0, _ => []
  | _, [] => []
  | n + 1, c :: cs =>
    match markerAt (c :: cs) with
    | some (marker, rest) => marker :: gapMarkersFrom n rest
    | none => gapMarkersFrom n cs

/-- `_GAP_ID_RE.finditer`: labels and ids. -/
def gapMarkers (text : String) : List (String × String) := gapMarkersFrom text.toList.length text.toList

/-! ## Ids -/

def GAP_ID_STOPWORDS : List String := ["add", "enforce", "check"]

section Ids

/- What `str.lower` does. -/
variable (lowered : String → String)

/-- `re.split(r"[_\-]+", raw)`, without the empty tokens. -/
def gapTokens (raw : String) : List String :=
  ((raw.toList.splitOnP fun c => c == '_' || c == '-').filter (· ≠ [])).map .ofList

/-- `canonical_gap_id`. -/
def canonicalGapId (gapId : String) : String :=
  let raw := lowered (strip gapId)
  let kept := ((gapTokens raw).filter fun token => !GAP_ID_STOPWORDS.contains token).insertionSort (· ≤ ·)
  if kept = [] then raw else "_".intercalate kept

/-- `_find_prior_gap`: the id itself, or the first that is canonically equal. -/
def findPriorGap (verified : Table String String) (gapId : String) : Option String :=
  match verified.get gapId with
  | some ticketId => some ticketId
  | none =>
    (verified.rows.find? fun row => canonicalGapId lowered row.1 == canonicalGapId lowered gapId).map Prod.snd

/-- Two ids name the same gap. -/
def SameGap (a b : String) : Prop := canonicalGapId lowered a = canonicalGapId lowered b

instance (a b : String) : Decidable (SameGap lowered a b) := inferInstanceAs (Decidable (_ = _))

end Ids

/-! ## The board -/

/-- A ticket of the board. -/
structure BoardTicket where
  id : String
  /-- `source`. -/
  source : String
  state : State := .draft
  /-- The text of its `description.md`. -/
  description : String
  /-- The gap ids of the findings it was filed for. -/
  carried : List String := []
deriving DecidableEq

/-- The ids in its markers, if it is of the source. -/
def BoardTicket.gapIds (source : String) (t : BoardTicket) : List String :=
  if t.source = source then ((gapMarkers t.description).filter fun m => m.1 == source).map Prod.snd else []

/-- `_verify_prior_proposals`, of which the ticket id is kept. -/
def verifyPriorProposals (source : String) (board : List BoardTicket) : Table String String :=
  .ofPairs (board.flatMap fun t => (t.gapIds source).map fun gapId => (gapId, t.id))

/-! ## A pass -/

def ROLLUP_SOURCES : List String := ["docstring_coverage", "test_gap", "health", "completeness_check"]

/-- What a pass reports, with the settings it runs under. -/
structure AgentPass where
  /-- `draft_titles` and `draft_bodies`, as far as both go. -/
  drafts : List (String × String)
  gapIds : List String := []
  scannerRollup : Bool := false
  maxDrafts : Option Nat := none
  scannerMaxDraftsPerRun : Nat := 3
  today : String := "2026-01-01"
  /-- The notes on a draft's premise and on a ticket in flight, put in front of its body. -/
  notes : Nat → String := fun _ => ""
  /-- The measurements of a module, added to its body. -/
  additions : Nat → String := fun _ => ""
  /-- A guard holds the draft back, or its title has the fingerprint of an open ticket and it has no gap id. -/
  heldBack : Nat → Bool := fun _ => false
  /-- The id of the ticket `TicketService.create` makes, none if it fails. -/
  created : Nat → Option String

/-- A draft that is about to be filed. -/
structure PassDraft where
  title : String
  body : String
  /-- The gap ids of its findings, those that have one. -/
  findings : List String
  note : String := ""
  addition : String := ""
  heldBack : Bool := false
  created : Option String

/-- The id of the draft; the ids of a rollup are joined. -/
def PassDraft.gapId (d : PassDraft) : Option String :=
  if d.findings = [] then none else some ("_".intercalate d.findings)

section Pass

variable (lowered : String → String) (source : String)

/-- `_maybe_collapse_scanner_rollup`: the drafts of a pass. -/
def collapsed (p : AgentPass) : List PassDraft :=
  let drafts := match p.maxDrafts with
    | some n => p.drafts.take n
    | none => p.drafts
  let gapIdOf := fun (i : Nat) => (p.gapIds[i]?.getD "")
  let rolls := ROLLUP_SOURCES.contains source
  if p.scannerRollup && rolls && 2 ≤ drafts.length then
    let sections := drafts.zipIdx.map fun draft => s!"## {draft.2 + 1}. {draft.1.1}\n\n{draft.1.2}"
    [{ title := s!"{source} scan: {drafts.length} findings ({p.today})"
       body := "\n\n".intercalate sections
       findings := ((List.range drafts.length).map gapIdOf).filter (· ≠ "")
       note := p.notes 0
       addition := p.additions 0
       heldBack := p.heldBack 0
       created := p.created 0 }]
  else
    let drafts := if rolls && p.maxDrafts.isNone then drafts.take p.scannerMaxDraftsPerRun else drafts
    drafts.zipIdx.map fun draft =>
      { title := draft.1.1
        body := draft.1.2
        findings := [gapIdOf draft.2].filter (· ≠ "")
        note := p.notes draft.2
        addition := p.additions draft.2
        heldBack := p.heldBack draft.2
        created := p.created draft.2 }

/-- The description a draft is filed with. -/
def filedDescription (d : PassDraft) : String :=
  match d.gapId with
  | some gapId => d.note ++ d.body ++ d.addition ++ s!"\n\n<!-- {source}-gap-id: {gapId} -->"
  | none => d.note ++ d.body ++ d.addition

/-- What becomes of a draft. -/
inductive DraftFate
  | empty
  /-- A ticket names its gap. -/
  | duplicate (ticketId : String)
  | heldBack
  | failed
  | filed (t : BoardTicket)

/-- `_create_one_draft`. -/
def createOneDraft (board : List BoardTicket) (d : PassDraft) : DraftFate :=
  if d.title = "" ∨ d.body = "" then .empty
  else
    match d.gapId.bind (findPriorGap lowered (verifyPriorProposals source board)) with
    | some ticketId => .duplicate ticketId
    | none =>
      if d.heldBack then .heldBack
      else
        match d.created with
        | none => .failed
        | some id =>
          .filed { id := id, source := source, description := filedDescription source d, carried := d.findings }

/-- The board after a draft. -/
def afterDraft (board : List BoardTicket) (d : PassDraft) : List BoardTicket :=
  match createOneDraft lowered source board d with
  | .filed t => board ++ [t]
  | _ => board

/-- `run_agent_pass`: the drafts one after the other. -/
def runAgentPass (board : List BoardTicket) (p : AgentPass) : List BoardTicket :=
  (collapsed source p).foldl (afterDraft lowered source) board

end Pass

/-! ## What is taken for a duplicate -/

section Duplicates

variable (lowered : String → String) (source : String)

theorem SameGap.symm {a b : String} (h : SameGap lowered a b) : SameGap lowered b a := Eq.symm h

theorem SameGap.trans {a b c : String} (h : SameGap lowered a b) (h' : SameGap lowered b c) : SameGap lowered a c :=
  Eq.trans h h'

/-- The ids the verification knows are those in the markers. -/
theorem get_verifyPriorProposals_ne_none {board : List BoardTicket} {gapId : String} :
    (verifyPriorProposals source board).get gapId ≠ none ↔ ∃ t ∈ board, gapId ∈ t.gapIds source := by
  unfold verifyPriorProposals
  rw [Table.get_ofPairs, ne_eq, Option.map_eq_none_iff, List.getLast?_eq_none_iff, List.filter_eq_nil_iff]
  constructor
  · intro h
    by_contra hnone
    refine h ?_
    rintro ⟨id, ticketId⟩ hmem
    obtain ⟨t, ht, hmem⟩ := List.mem_flatMap.1 hmem
    obtain ⟨id', hid, heq⟩ := List.mem_map.1 hmem
    obtain ⟨rfl, -⟩ := Prod.mk.inj heq
    simp only [decide_eq_true_eq]
    rintro rfl
    exact hnone ⟨t, ht, hid⟩
  · rintro ⟨t, ht, hid⟩ h
    have hmem : (gapId, t.id) ∈ board.flatMap fun t => (t.gapIds source).map fun id => (id, t.id) :=
      List.mem_flatMap.2 ⟨t, ht, List.mem_map.2 ⟨gapId, hid, rfl⟩⟩
    exact h _ hmem (by simp)

/-- **A draft is taken for a duplicate** when a marker of the source names its gap. -/
theorem isSome_findPriorGap_iff {board : List BoardTicket} {gapId : String} :
    (findPriorGap lowered (verifyPriorProposals source board) gapId).isSome = true ↔
      ∃ t ∈ board, ∃ m ∈ t.gapIds source, SameGap lowered m gapId := by
  unfold findPriorGap
  cases hget : (verifyPriorProposals source board).get gapId with
  | some ticketId =>
    have hne : (verifyPriorProposals source board).get gapId ≠ none := by simp [hget]
    obtain ⟨t, ht, hid⟩ := (get_verifyPriorProposals_ne_none source).1 hne
    exact ⟨fun _ => ⟨t, ht, gapId, hid, rfl⟩, fun _ => rfl⟩
  | none =>
    rw [Option.isSome_map, List.find?_isSome]
    constructor
    · rintro ⟨⟨m, ticketId⟩, hrow, hsame⟩
      have hne : (verifyPriorProposals source board).get m ≠ none := by simp [Table.mem_rows.1 hrow]
      obtain ⟨t, ht, hid⟩ := (get_verifyPriorProposals_ne_none source).1 hne
      exact ⟨t, ht, m, hid, beq_iff_eq.1 hsame⟩
    · rintro ⟨t, ht, m, hid, hsame⟩
      obtain ⟨ticketId, hticket⟩ :=
        Option.ne_none_iff_exists'.1 ((get_verifyPriorProposals_ne_none source).2 ⟨t, ht, hid⟩)
      exact ⟨(m, ticketId), Table.mem_rows.2 hticket, beq_iff_eq.2 hsame⟩

/-- A ticket of the source shows the id of the draft. -/
def ShownToAgent (board : List BoardTicket) (d : PassDraft) : Prop :=
  ∃ gapId, d.gapId = some gapId ∧ ∃ t ∈ board, ∃ m ∈ t.gapIds source, SameGap lowered m gapId

/-- A marker of the ticket names the gap: with its own id, or with the joined ids of findings of which it is one. -/
def BoardTicket.Names (t : BoardTicket) (gapId : String) : Prop :=
  ∃ m ∈ t.gapIds source, SameGap lowered m gapId ∨
    (SameGap lowered m ("_".intercalate t.carried) ∧ ∃ other ∈ t.carried, SameGap lowered other gapId)

/-- No gap is carried by two tickets. -/
def FiledOnce (board : List BoardTicket) : Prop :=
  board.Pairwise fun t t' => ∀ a ∈ t.carried, ∀ b ∈ t'.carried, ¬ SameGap lowered a b

/-- Some ticket carries a gap of the draft. -/
def Carried (board : List BoardTicket) (d : PassDraft) : Prop :=
  ∃ t ∈ board, ∃ a ∈ t.carried, ∃ b ∈ d.findings, SameGap lowered a b

/-- **The fate of a draft.** -/
theorem createOneDraft_cases (board : List BoardTicket) (d : PassDraft) :
    ((d.title = "" ∨ d.body = "") ∧ createOneDraft lowered source board d = .empty) ∨
      (¬ (d.title = "" ∨ d.body = "") ∧
        ((ShownToAgent lowered source board d ∧
            ∃ ticketId, createOneDraft lowered source board d = .duplicate ticketId) ∨
          (¬ ShownToAgent lowered source board d ∧
            ((d.heldBack = true ∧ createOneDraft lowered source board d = .heldBack) ∨
              (d.heldBack = false ∧ d.created = none ∧ createOneDraft lowered source board d = .failed) ∨
                (d.heldBack = false ∧ d.created ≠ none ∧
                  ∃ t, createOneDraft lowered source board d = .filed t ∧ t.carried = d.findings))))) := by
  unfold createOneDraft
  by_cases hempty : d.title = "" ∨ d.body = ""
  · rw [if_pos hempty]
    exact .inl ⟨hempty, rfl⟩
  · rw [if_neg hempty]
    refine .inr ⟨hempty, ?_⟩
    have hshown : (d.gapId.bind (findPriorGap lowered (verifyPriorProposals source board))).isSome = true ↔
        ShownToAgent lowered source board d := by
      unfold ShownToAgent
      cases hgap : d.gapId with
      | none => simp
      | some gapId =>
        rw [Option.bind_some, isSome_findPriorGap_iff]
        constructor
        · intro h
          exact ⟨gapId, rfl, h⟩
        · rintro ⟨_, heq, h⟩
          obtain rfl := Option.some.inj heq
          exact h
    cases hprior : d.gapId.bind (findPriorGap lowered (verifyPriorProposals source board)) with
    | some ticketId =>
      rw [hprior] at hshown
      exact .inl ⟨hshown.1 rfl, ticketId, rfl⟩
    | none =>
      rw [hprior] at hshown
      refine .inr ⟨fun h => (by cases hshown.2 h), ?_⟩
      cases hheld : d.heldBack with
      | true => exact .inl ⟨rfl, rfl⟩
      | false =>
        cases hcreated : d.created with
        | none => exact .inr (.inl ⟨rfl, rfl, rfl⟩)
        | some id => exact .inr (.inr ⟨rfl, fun h => (by cases h), _, rfl, rfl⟩)

/-- A finding that is filed on its own is named by what shows it. -/
theorem names_of_shown {board : List BoardTicket} {d : PassDraft} (h : ShownToAgent lowered source board d)
    (hone : d.findings.length < 2) : ∀ g ∈ d.findings, ∃ t ∈ board, t.Names lowered source g := by
  intro g hg
  obtain ⟨gapId, hgap, t, ht, m, hm, hsame⟩ := h
  obtain ⟨g', hfindings⟩ : ∃ g', d.findings = [g'] := by
    cases hlist : d.findings with
    | nil => rw [hlist] at hg; cases hg
    | cons g' rest =>
      rw [hlist, List.length_cons] at hone
      have hrest : rest = [] := List.eq_nil_of_length_eq_zero (by omega)
      exact ⟨g', by rw [hrest]⟩
  rw [hfindings, List.mem_singleton] at hg
  have hid : gapId = g' := by
    rw [PassDraft.gapId, hfindings] at hgap
    simpa using hgap.symm
  subst hg hid
  exact ⟨t, ht, m, hm, .inl hsame⟩

/-- A ticket more is filed rightly when none before it carries a gap of it. -/
theorem filedOnce_append_iff {board : List BoardTicket} {d : PassDraft} {t : BoardTicket}
    (hboard : FiledOnce lowered board) (ht : t.carried = d.findings) :
    FiledOnce lowered (board ++ [t]) ↔ ¬ Carried lowered board d := by
  unfold FiledOnce Carried
  rw [List.pairwise_append]
  constructor
  · rintro ⟨-, -, h⟩ ⟨t', ht', a, ha, b, hb, hsame⟩
    exact h t' ht' t (List.mem_singleton_self t) a ha b (ht ▸ hb) hsame
  · intro h
    refine ⟨hboard, List.pairwise_singleton _ _, ?_⟩
    intro t' ht' t'' ht'' a ha b hb hsame
    rw [List.mem_singleton] at ht''
    subst ht''
    exact h ⟨t', ht', a, ha, b, ht ▸ hb, hsame⟩

end Duplicates

/-! ## Histories -/

/-- What happens to the tickets of the board between the drafts. -/
inductive BoardEvent
  | draft (d : PassDraft)
  | moved (id : String) (state : State)
  /-- A stage writes the description anew. -/
  | rewritten (id : String) (description : String)
  | deleted (id : String)
  /-- Somebody else files a ticket. -/
  | other (id source description : String)

/-- What happens between the passes, and the passes. -/
inductive HistoryEvent
  | pass (p : AgentPass)
  | change (e : BoardEvent)

section Histories

variable (lowered : String → String) (source : String)

/-- A pass is its drafts, one after the other. -/
def HistoryEvent.steps : HistoryEvent → List BoardEvent
  | .pass p => (collapsed source p).map .draft
  | .change e => [e]

def boardStep (board : List BoardTicket) : BoardEvent → List BoardTicket → Prop
  | .draft d, board' => board' = afterDraft lowered source board d
  | .moved id state, board' => board' = board.map fun t => if t.id = id then { t with state := state } else t
  | .rewritten id description, board' =>
    board' = board.map fun t => if t.id = id then { t with description := description } else t
  | .deleted id, board' => board' = board.filter fun t => t.id != id
  | .other id source description, board' =>
    board' = board ++ [{ id := id, source := source, description := description }]

theorem run_pass (board : List BoardTicket) (p : AgentPass) :
    Run (boardStep lowered source) board ((HistoryEvent.pass p).steps source)
      (runAgentPass lowered source board p) := by
  unfold HistoryEvent.steps runAgentPass
  dsimp only
  generalize collapsed source p = drafts
  induction drafts generalizing board with
  | nil => exact .nil board
  | cons d drafts ih => exact .cons rfl (ih _)

/-- A draft is filed at most once, and dropped only for a ticket that names its gaps. -/
def BoardEvent.Right (board : List BoardTicket) : BoardEvent → Prop
  | .draft d =>
    FiledOnce lowered (afterDraft lowered source board d) ∧
      ∀ ticketId, createOneDraft lowered source board d = .duplicate ticketId →
        ∀ g ∈ d.findings, ∃ t ∈ board, t.Names lowered source g
  | _ => True

/-- A draft that nothing else holds back and of which a ticket carries a gap finds its id shown; and where a rollup
    finds its id shown, each of its gaps is named. -/
def BoardEvent.Shows (board : List BoardTicket) : BoardEvent → Prop
  | .draft d =>
    ¬ (d.title = "" ∨ d.body = "") →
      (d.heldBack = false → d.created ≠ none → Carried lowered board d → ShownToAgent lowered source board d) ∧
        (2 ≤ d.findings.length → ShownToAgent lowered source board d →
          ∀ g ∈ d.findings, ∃ t ∈ board, t.Names lowered source g)
  | _ => True

/-- **One event.** -/
theorem BoardEvent.right_iff {board : List BoardTicket} (hboard : FiledOnce lowered board) (e : BoardEvent) :
    e.Right lowered source board ↔ e.Shows lowered source board := by
  cases e with
  | moved | rewritten | deleted | other => exact Iff.rfl
  | draft d =>
    show (FiledOnce lowered (afterDraft lowered source board d) ∧ _) ↔ (_ → _)
    unfold afterDraft
    rcases createOneDraft_cases lowered source board d with ⟨hempty, hfate⟩ | ⟨hsome, ⟨hshown, ticketId, hfate⟩ |
      ⟨hnot, ⟨hheld, hfate⟩ | ⟨hheld, hcreated, hfate⟩ | ⟨hheld, hcreated, t, hfate, ht⟩⟩⟩
    · rw [hfate]
      exact ⟨fun _ hsome => absurd hempty hsome, fun _ => ⟨hboard, fun _ h => (by cases h)⟩⟩
    · rw [hfate]
      constructor
      · rintro ⟨-, hdropped⟩ -
        exact ⟨fun _ _ _ => hshown, fun _ _ => hdropped ticketId rfl⟩
      · intro h
        refine ⟨hboard, fun _ _ => ?_⟩
        by_cases hrollup : 2 ≤ d.findings.length
        · exact (h hsome).2 hrollup hshown
        · exact names_of_shown lowered source hshown (Nat.lt_of_not_le hrollup)
    · rw [hfate]
      constructor
      · intro _ _
        exact ⟨fun h => (by rw [hheld] at h; cases h), fun _ h => absurd h hnot⟩
      · intro _
        exact ⟨hboard, fun _ h => (by cases h)⟩
    · rw [hfate]
      constructor
      · intro _ _
        exact ⟨fun _ h => absurd hcreated h, fun _ h => absurd h hnot⟩
      · intro _
        exact ⟨hboard, fun _ h => (by cases h)⟩
    · rw [hfate]
      dsimp only
      rw [filedOnce_append_iff lowered hboard ht]
      constructor
      · rintro ⟨hfresh, -⟩ -
        exact ⟨fun _ _ hcarried => absurd hcarried hfresh, fun _ h => absurd h hnot⟩
      · intro h
        exact ⟨fun hcarried => hnot ((h hsome).1 hheld hcreated hcarried), fun _ h => (by cases h)⟩

/-- What does not touch the findings of the tickets leaves them filed once. -/
theorem filedOnce_map {board : List BoardTicket} {f : BoardTicket → BoardTicket} (hf : ∀ t, (f t).carried = t.carried)
    (h : FiledOnce lowered board) : FiledOnce lowered (board.map f) := by
  unfold FiledOnce
  rw [List.pairwise_map]
  refine h.imp ?_
  intro t t' htt
  rw [hf, hf]
  exact htt

/-- **The step lemma.** -/
theorem boardStep_filedOnce {board board' : List BoardTicket} {e : BoardEvent} (hboard : FiledOnce lowered board)
    (hright : e.Right lowered source board) (h : boardStep lowered source board e board') :
    FiledOnce lowered board' := by
  cases e with
  | draft d =>
    subst h
    exact hright.1
  | moved id state =>
    subst h
    refine filedOnce_map lowered ?_ hboard
    intro t
    split <;> rfl
  | rewritten id description =>
    subst h
    refine filedOnce_map lowered ?_ hboard
    intro t
    split <;> rfl
  | deleted id =>
    subst h
    exact hboard.filter _
  | other id source description =>
    subst h
    refine List.pairwise_append.2 ⟨hboard, List.pairwise_singleton _ _, ?_⟩
    intro t _ t' ht' a _ b hb
    rw [List.mem_singleton] at ht'
    subst ht'
    cases hb

/-- **A finding is filed once, and dropped only for a ticket that names it,** in exactly the histories in which
    every gap that a ticket carries is shown when it is reported again. -/
theorem finding_is_filed_once (history : List HistoryEvent) (board : List BoardTicket) :
    Run (Guarded (BoardEvent.Right lowered source) (boardStep lowered source)) []
        (history.flatMap (HistoryEvent.steps source)) board ↔
      Run (Guarded (BoardEvent.Shows lowered source) (boardStep lowered source)) []
        (history.flatMap (HistoryEvent.steps source)) board := by
  apply Run.guarded_congr (I := FiledOnce lowered)
  · intro board e board' hboard hright h
    exact boardStep_filedOnce lowered source hboard hright h
  · intro board e hboard
    exact BoardEvent.right_iff lowered source hboard e
  · exact List.Pairwise.nil

end Histories

/-! ### A rollup, and one of its findings on its own -/

/-- Two findings, rolled up. -/
def rolledUpPass : AgentPass where
  drafts := [("Dead code", "unused"), ("No tests", "untested")]
  gapIds := ["dead_code", "no_tests"]
  scannerRollup := true
  created := fun _ => some "T1"

/-- The first of them again, alone. -/
def singleFindingPass : AgentPass where
  drafts := [("Dead code", "unused")]
  gapIds := ["dead_code"]
  scannerRollup := true
  created := fun _ => some "T2"

/-- The marker of the rollup names the two together only. -/
theorem rolled_up_finding_is_filed_again :
    ¬ ∀ (history : List HistoryEvent) (board : List BoardTicket),
      Run (boardStep (fun s => s) "health") [] (history.flatMap (HistoryEvent.steps "health")) board →
        FiledOnce (fun s => s) board := by
  intro hclaim
  have hrun := (run_pass (fun s => s) "health" [] rolledUpPass).append
    (run_pass (fun s => s) "health" (runAgentPass (fun s => s) "health" [] rolledUpPass) singleFindingPass)
  have honce := hclaim [.pass rolledUpPass, .pass singleFindingPass] _ (by simpa using hrun)
  have hcarried : (runAgentPass (fun s => s) "health" (runAgentPass (fun s => s) "health" [] rolledUpPass)
      singleFindingPass).map BoardTicket.carried = [["dead_code", "no_tests"], ["dead_code"]] := by
    decide +kernel
  generalize runAgentPass (fun s => s) "health" (runAgentPass (fun s => s) "health" [] rolledUpPass)
    singleFindingPass = tickets at honce hcarried
  rcases tickets with - | ⟨t, - | ⟨t', rest⟩⟩
  · cases hcarried
  · exact absurd (congrArg List.length hcarried) (by simp)
  · obtain ⟨hrollup, hrest⟩ := List.cons_eq_cons.1 hcarried
    obtain ⟨hsingle, -⟩ := List.cons_eq_cons.1 hrest
    have hdistinct := (List.pairwise_cons.1 honce).1 t' List.mem_cons_self "dead_code" (by rw [hrollup]; decide)
      "dead_code" (by rw [hsingle]; decide)
    exact hdistinct rfl

end Agents
end RobotsixMill
