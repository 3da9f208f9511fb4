import Mathlib.Data.Char
import Mathlib.Data.List.Dedup
import Mathlib.Data.List.Lex
import RobotsixMill.Core.States
import RobotsixMill.Lib.DelimitedText
import RobotsixMill.Lib.Regex

/-!
# `Core.Dedup` — advisory notes on drafts that overlap another ticket

Before a draft is filed, or refined, it is compared with the recent tickets and with its siblings of the same batch.
An overlap never drops the draft; a note on it is put in front of the body, as a blockquote.

- `extractPaths`, `extractConcernTokens`, `scopePaths` — what texts are compared by;
- `findPriorMatchingTicket`, `describeRecentSignal` — the recent ticket that matches, and what it matches on;
- `findInflightOverlap`, `findChildOverlaps` — the producers of notes, and `annotateChildBody`;
- `Produced`, `produced_shape` — the notes they produce, and that these are of two shapes.

What Python knows of Unicode is a parameter.
-/

namespace RobotsixMill
namespace Core
namespace Dedup
open Lib

/-- Properties of characters that Python reads from the Unicode tables. -/
structure Unicode where
  /-- `\w`. -/
  isWord : Char → Bool
  isPrintable : Char → Bool
  casefold : Char → List Char
  not_word_of_break : ∀ c, isLineBreak c = true → isWord c = false
  not_printable_of_break : ∀ c, isLineBreak c = true → isPrintable c = false

/-- Does the text begin with this one? -/
def begins (text : List Char) (p : String) : Bool := p.toList.isPrefixOf text

/-- `sorted(texts)`. -/
def sortedTexts (texts : List (List Char)) : List (List Char) := texts.mergeSort fun a b => decide (a ≤ b)

/-- The digits of `n` in base sixteen, `width` of them. -/
def hex : Nat → Nat → List Char
  | 0, _ => []
  | width + 1, n => hex width (n / 16) ++ [Nat.digitChar (n % 16)]

section Text

variable (u : Unicode)

/-! ## Texts -/

/-- `repr(text)`. -/
def reprText (s : List Char) : List Char :=
  let quote := if '\'' ∈ s ∧ '"' ∉ s then '"' else '\''
  let escape (c : Char) : List Char :=
    if c = '\\' ∨ c = quote then ['\\', c]
    else if c = '\t' then "\\t".toList
    else if c = '\n' then "\\n".toList
    else if c = '\r' then "\\r".toList
    else if u.isPrintable c then [c]
    else if c.toNat ≤ 0xff then "\\x".toList ++ hex 2 c.toNat
    else if c.toNat ≤ 0xffff then "\\u".toList ++ hex 4 c.toNat
    else "\\U".toList ++ hex 8 c.toNat
  quote :: s.flatMap escape ++ [quote]

/-- The runs of other characters are spaces; `inRun` tells whether one is on. -/
def collapse : Bool → List Char → List Char
  | _, [] => []
  | inRun, c :: cs =>
    if ('a' ≤ c && c ≤ 'z') || ('0' ≤ c && c ≤ '9') then c :: collapse false cs
    else if inRun then collapse true cs
    else ' ' :: collapse true cs

def normalize (s : List Char) : List Char := stripChars (collapse false (s.flatMap u.casefold))

/-- `[\w.+-]`. -/
def pathChar (c : Char) : Bool := u.isWord c || c = '.' || c = '+' || c = '-'

/-- `\b` behind a letter or a digit. -/
def wordEnd : List Char → Bool
  | [] => true
  | c :: _ => !u.isWord c

/-- `_SOURCE_EXT`. -/
def SOURCE_EXT : List String :=
  ["py", "md", "yml", "yaml", "json", "toml", "js", "mjs", "cfg", "ini", "txt", "sh", "html", "css"]

open Matcher in
/-- `_PATH_TOKEN_RE`, for a text of at most so many characters. -/
def PATH_TOKEN_RE (size : Nat) : Matcher Char :=
  let segment := plus (pathChar u)
  let slash := lit ['/']
  let boundary := test (wordEnd u)
  alt
    (seq segment <| seq slash <| seq segment <| seq (rep (seq slash segment) size) <| seq (lit ['.']) <|
      seq (one fun c => c.isAlpha) <| seq (upTo (fun c => c.isAlphanum) 6) boundary)
    (seq segment <| seq (lit ['.']) <|
      seq (SOURCE_EXT.foldr (fun ext m => alt (lit ext.toList) m) fun _ => []) boundary)

/-- `_BACKTICK_RE`. -/
def BACKTICK_RE : Matcher Char := .seq (.lit ['`']) (.seq (.plus fun c => c ≠ '`') (.lit ['`']))

/-- `_extract_paths`. -/
def extractPaths (text : List Char) : List (List Char) :=
  ((PATH_TOKEN_RE u text.length).findAll text).foldl (fun out tok => if tok ∈ out then out else out ++ [tok]) []

/-- `_PUNCT_ONLY_RE`, for a text without a line break at its end. -/
def punctOnly (tok : List Char) : Bool := !tok.isEmpty && tok.all fun c => !u.isWord c || c = '_'

/-- `_extract_concern_tokens`. The spans between backticks may run over line breaks. -/
def extractConcernTokens (text : List Char) : List (List Char) :=
  ((BACKTICK_RE.findAll text).map fun span => stripChars (span.drop 1).dropLast).filter fun tok =>
    !punctOnly u tok && !(PATH_TOKEN_RE u tok.length tok).contains []

/-- The lines of the declared sections; `inFencedFileMap` tells whether such a block is on. -/
def scopeLines : Bool → Bool → List (List Char) → List (List Char)
  | _, _, [] => []
  | capturing, inFencedFileMap, line :: rest =>
    let stripped := stripChars line
    if begins stripped "```" then
      let fenceLang := (stripChars (stripped.drop 3)).flatMap u.casefold
      -- a fence inside the block closes it, whatever its language
      scopeLines capturing (!inFencedFileMap && fenceLang = "file_map".toList) rest
    else if inFencedFileMap then line :: scopeLines capturing true rest
    else if begins stripped "#" then
      let title := (stripChars (stripped.dropWhile (· = '#'))).flatMap u.casefold
      scopeLines (!begins title "out of scope" &&
        ["scope", "acceptance", "file map", "file_map"].any (begins title)) false rest
    else if capturing then line :: scopeLines capturing false rest
    else scopeLines capturing false rest

/-- `_scope_paths`. -/
def scopePaths (text : List Char) : List (List Char) :=
  extractPaths u (['\n'].intercalate (scopeLines u false false (splitlinesGo [] text)))

end Text

/-! ## Tickets -/

/-- `f"{stamp}-{slug}-{hex}"`: no white space. -/
structure TicketId where
  text : List Char
  ne_nil : text ≠ []
  no_space : ∀ c ∈ text, isPySpace c = false

structure Ticket where
  id : TicketId
  title : List Char
  /-- In seconds. -/
  createdAt : Option Int := none
  state : State := .draft
  /-- It has been DONE, if the history can be read. -/
  wasDone : Option Bool := some false
  /-- What the labels column reads as; nothing if it is no list. -/
  labels : List (List Char) := []
  /-- The body, if it can be read. -/
  description : Option (List Char) := some []

/-- What is asked of the ticket service. -/
structure Service where
  /-- `recent_tickets(limit=200)`, the latest first. -/
  recentTickets : Option (List Ticket)
  /-- The ids of `list_children(id)`. -/
  listChildren : List Char → Option (List (List Char)) := fun _ => some []

/-- `epic_dedup_lookback_days`. -/
structure Settings where
  epicDedupLookbackDays : Int := 7

/-- The arguments of `find_prior_matching_ticket`. -/
structure PriorQuery where
  targetFiles : List (List Char)
  fingerprintText : List Char
  lookbackDays : Int := 7
  excludeIds : List (List Char) := []
  requireScopeForSinglePath : Bool := false
  targetConcernTokens : Option (List (List Char)) := none
  concernMinOverlap : Nat := 1
  dedupLabels : List (List Char) := []
  suppressTitleOnlyMatch : Bool := false

/-- What `_label_gate` says. -/
inductive LabelGate
  | isMatch
  | skip
  | continue
deriving DecidableEq, Repr

section Prior

variable (u : Unicode)

/-- `_is_eligible_candidate`; `none` where it raises. -/
def isEligibleCandidate (query : PriorQuery) (cutoff : Int) (ticket : Ticket) : Option Bool :=
  if ticket.id.text ∈ query.excludeIds then some false
  else match ticket.createdAt with
    | none => some false
    | some createdAt =>
      if createdAt < cutoff then some false
      else if ticket.state = .errored then some false
      -- a closed ticket counts if it was finished, not if it was dropped
      else if ticket.state = .closed then ticket.wasDone
      else some true

/-- `_label_gate`. -/
def labelGate (query : PriorQuery) (ticket : Ticket) : LabelGate :=
  if query.dedupLabels.any fun label => decide (label ∈ ticket.labels) then .isMatch
  else if query.dedupLabels.any fun label => begins label "ci_fp:" then .skip
  else .continue

/-- `_is_path_strong`. -/
def isPathStrong (query : PriorQuery) (body : List Char) : List (List Char) → Bool
  | [] => false
  | [path] => !query.requireScopeForSinglePath || decide (path ∈ scopePaths u body)
  | _ :: _ :: _ => true

/-- `_concern_gate`. -/
def concernGate (query : PriorQuery) (title body : List Char) (tokens : List (List Char)) : Bool :=
  let candConcern := extractConcernTokens u (title ++ '\n' :: body)
  if tokens ≠ [] ∧ candConcern ≠ [] then
    decide (query.concernMinOverlap ≤ (tokens.dedup.filter (· ∈ candConcern)).length)
  -- one of the two texts names no symbol
  else decide (query.concernMinOverlap ≤ 1)

/-- The paths that a body names. -/
def matchedPaths (paths : List (List Char)) (body : List Char) : List (List Char) :=
  paths.filter fun p => !p.isEmpty && containsChars p body

/-- `_path_match`. -/
def pathMatch (query : PriorQuery) (ticket : Ticket) : Option Bool :=
  if query.targetFiles = [] then some false
  else do
    let body ← ticket.description
    let strong := isPathStrong u query body (matchedPaths query.targetFiles body)
    match query.targetConcernTokens with
    | none => some strong
    | some tokens => some (strong && concernGate u query ticket.title body tokens)

/-- `_fingerprint_match`. -/
def fingerprintMatch (query : PriorQuery) (fingerprint : List Char) (ticket : Ticket) : Bool :=
  !query.suppressTitleOnlyMatch && !fingerprint.isEmpty && containsChars fingerprint (normalize u ticket.title)

/-- The loop over the candidates; `none` where it raises. -/
def scanCandidates (query : PriorQuery) (cutoff : Int) (fingerprint : List Char) : List Ticket → Option (Option Ticket)
  | [] => some none
  | ticket :: rest => do
    let eligible ← isEligibleCandidate query cutoff ticket
    if eligible = false then scanCandidates query cutoff fingerprint rest
    else match labelGate query ticket with
      | .isMatch => some (some ticket)
      | .skip => scanCandidates query cutoff fingerprint rest
      | .continue => do
        let byPath ← pathMatch u query ticket
        -- the latest ticket that matches is taken
        if byPath || fingerprintMatch u query fingerprint ticket then some (some ticket)
        else scanCandidates query cutoff fingerprint rest

/-- `find_prior_matching_ticket`; any exception is no match. -/
def findPriorMatchingTicket (service : Service) (now : Int) (query : PriorQuery) : Option Ticket := do
  let candidates ← service.recentTickets
  let found ← scanCandidates u query (now - 86400 * query.lookbackDays)
    ((normalize u query.fingerprintText).take 60) candidates
  found

/-- `_describe_recent_signal`. -/
def describeRecentSignal (ticket : Ticket) (paths targetConcernTokens : List (List Char)) : List Char :=
  match paths, ticket.description with
  | _ :: _, some body =>
    let matched := matchedPaths paths body
    match matched with
    | [] => "title overlap".toList
    | path :: _ =>
      if 2 ≤ matched.length ∨ path ∈ scopePaths u body then
        let desc := "file path `".toList ++ path ++ ['`']
        let candConcern := extractConcernTokens u (ticket.title ++ '\n' :: body)
        let symbols := sortedTexts (targetConcernTokens.dedup.filter (· ∈ candConcern))
        if symbols = [] then desc
        else
          let quoted := "`, `".toList.intercalate (symbols.take 3)
          let more := if 3 < symbols.length then "`, …".toList else []
          desc ++ " (symbol `".toList ++ quoted ++ more ++ "`)".toList
      else "title overlap".toList
  | _, _ => "title overlap".toList

/-! ## Notes -/

/-- The note that names a recent ticket. -/
def ticketNote (id : TicketId) (title signal : List Char) : List Char :=
  "Possible duplicate of ".toList ++ id.text ++ " (".toList ++ reprText u title ++ ") — matched on ".toList ++ signal

/-- The note that names an earlier sibling. -/
def siblingNote (j : Nat) (overlap : List Char) : List Char :=
  "Possible duplicate of sibling #".toList ++ Nat.toDigits 10 j ++ " in this batch — ".toList ++ overlap

/-- `find_inflight_overlap`. -/
def findInflightOverlap (service : Service) (ticketId title body : List Char) (settings : Settings) (now : Int)
    (dedupLabels : List (List Char)) : Option (List Char) := do
  let paths := extractPaths u body
  let concernTokens := extractConcernTokens u (title ++ '\n' :: body)
  let prior ← findPriorMatchingTicket u service now {
    targetFiles := paths
    fingerprintText := title
    lookbackDays := settings.epicDedupLookbackDays
    excludeIds := [ticketId]
    requireScopeForSinglePath := true
    targetConcernTokens := some concernTokens
    concernMinOverlap := 3
    dedupLabels
    suppressTitleOnlyMatch := true }
  some (ticketNote u prior.id prior.title (describeRecentSignal u prior paths concernTokens))

/-- The earlier sibling that overlaps, from the `j`-th on. -/
def overlappingSibling (normTitle : List Char) (paths : List (List Char)) :
    Nat → List (List Char × List (List Char)) → Option (List Char)
  | _, [] => none
  | j, (sibTitle, sibPaths) :: rest =>
    match sortedTexts (paths.filter (· ∈ sibPaths)) with
    | first :: _ => some (siblingNote j ("shared file path `".toList ++ first ++ ['`']))
    | [] =>
      -- no file in common, so the titles are compared
      if normTitle ≠ [] ∧ sibTitle ≠ [] ∧ (containsChars normTitle sibTitle ∨ containsChars sibTitle normTitle) then
        some (siblingNote j "overlapping title".toList)
      else overlappingSibling normTitle paths (j + 1) rest

/-- The loop over the children, with the siblings accepted so far. -/
def childNotes (service : Service) (excludeIds : List (List Char)) (settings : Settings) (now : Int) :
    List (List Char × List (List Char)) → List (List Char × List Char) → List (Option (List Char))
  | _, [] => []
  | accepted, (title, body) :: rest =>
    let paths := extractPaths u body
    let concernTokens := extractConcernTokens u (title ++ '\n' :: body)
    let prior := findPriorMatchingTicket u service now {
      targetFiles := paths
      fingerprintText := title
      lookbackDays := settings.epicDedupLookbackDays
      excludeIds
      requireScopeForSinglePath := true
      targetConcernTokens := some concernTokens }
    let note := match prior with
      | some prior => some (ticketNote u prior.id prior.title (describeRecentSignal u prior paths concernTokens))
      | none => overlappingSibling (normalize u title) paths 0 accepted
    note :: childNotes service excludeIds settings now (accepted ++ [(normalize u title, paths)]) rest

/-- `find_child_overlaps`; lists of different lengths raise. -/
def findChildOverlaps (service : Service) (parentEpicId : List Char) (childTitles childBodies : List (List Char))
    (settings : Settings) (now : Int) : List (Option (List Char)) :=
  if childTitles.length = childBodies.length then
    let children := (service.listChildren parentEpicId).getD []
    childNotes u service (parentEpicId :: children) settings now [] (childTitles.zip childBodies)
  else childTitles.map fun _ => none

/-- The callers that put a note in front of a body. -/
inductive Producer
  | epicDecomposition
  | draftIntake
  | moduleCurator

/-- `source_desc`. -/
def Producer.sourceDesc : Producer → String
  | .epicDecomposition => "epic-decomposition pre-filing dedup"
  | .draftIntake => "draft-intake pre-refine dedup"
  | .moduleCurator => "module_curator pre-filing dedup"

/-- `annotate_child_body`. -/
def annotateChildBody (body note : List Char) (producer : Producer) : List Char :=
  "> [!warning] ".toList ++ note ++ "\n>\n> _Advisory flag from ".toList ++ producer.sourceDesc.toList ++
    "; verify and close as duplicate during refine if confirmed._\n\n".toList ++ body

/-! ## What is produced -/

/-- A note of one of the two producers, whatever they are asked. -/
inductive Produced : List Char → Prop
  | inflight {service ticketId title body settings now dedupLabels note}
      (h : findInflightOverlap u service ticketId title body settings now dedupLabels = some note) : Produced note
  | child {service parentEpicId childTitles childBodies settings now note}
      (h : some note ∈ findChildOverlaps u service parentEpicId childTitles childBodies settings now) : Produced note

variable {u}

theorem mem_sortedTexts {text : List Char} {texts : List (List Char)} : text ∈ sortedTexts texts ↔ text ∈ texts :=
  List.mem_mergeSort

/-- A note on a sibling tells of a shared path, or of the title. -/
theorem overlappingSibling_eq {normTitle : List Char} {paths : List (List Char)} {j : Nat}
    {accepted : List (List Char × List (List Char))} {note : List Char}
    (h : overlappingSibling normTitle paths j accepted = some note) : ∃ k overlap, note = siblingNote k overlap ∧
      (overlap = "overlapping title".toList ∨
        ∃ path ∈ paths, overlap = "shared file path `".toList ++ path ++ ['`']) := by
  induction accepted generalizing j with
  | nil => cases h
  | cons sibling rest ih =>
    unfold overlappingSibling at h
    split at h
    · rename_i first others hshared
      have hmem := mem_sortedTexts.1 (hshared ▸ List.mem_cons_self : first ∈ sortedTexts _)
      exact ⟨j, _, (Option.some.inj h).symm, .inr ⟨first, (List.mem_filter.1 hmem).1, rfl⟩⟩
    · split at h
      · exact ⟨j, _, (Option.some.inj h).symm, .inl rfl⟩
      · exact ih h

/-- A note for a child names a recent ticket, or one of the siblings accepted before. -/
theorem mem_findChildOverlaps {service : Service} {parentEpicId note : List Char}
    {childTitles childBodies : List (List Char)} {settings : Settings} {now : Int}
    (h : some note ∈ findChildOverlaps u service parentEpicId childTitles childBodies settings now) :
    ∃ child ∈ childTitles.zip childBodies,
      (∃ prior : Ticket, note = ticketNote u prior.id prior.title (describeRecentSignal u prior (extractPaths u child.2)
        (extractConcernTokens u (child.1 ++ '\n' :: child.2)))) ∨
      ∃ accepted, overlappingSibling (normalize u child.1) (extractPaths u child.2) 0 accepted = some note := by
  unfold findChildOverlaps at h
  split at h
  · dsimp only at h
    generalize childTitles.zip childBodies = children at h ⊢
    generalize ([] : List (List Char × List (List Char))) = accepted at h
    -- along the loop, whatever has been accepted
    induction children generalizing accepted with
    | nil => cases h
    | cons child children ih =>
      rcases List.mem_cons.1 h with hnote | h
      · refine ⟨child, List.mem_cons_self, ?_⟩
        split at hnote
        · rename_i prior _
          exact .inl ⟨prior, Option.some.inj hnote⟩
        · exact .inr ⟨accepted, hnote.symm⟩
      · obtain ⟨child', hchild', hnote⟩ := ih _ h
        exact ⟨child', List.mem_cons_of_mem _ hchild', hnote⟩
  · obtain ⟨title, -, hnone⟩ := List.mem_map.1 h
    cases hnone

/-! ## Lines -/

/-- No line break, as `str.splitlines` sees them. -/
def SingleLine (s : List Char) : Prop := ∀ c ∈ s, isLineBreak c = false

instance (s : List Char) : Decidable (SingleLine s) := List.decidableBAll (isLineBreak · = false) s

theorem SingleLine.append {s t : List Char} (hs : SingleLine s) (ht : SingleLine t) : SingleLine (s ++ t) :=
  List.forall_mem_append.2 ⟨hs, ht⟩

theorem not_break_of_isAlphanum {c : Char} (h : c.isAlphanum = true) : isLineBreak c = false := by
  have hrange : 48 ≤ c.toNat ∧ c.toNat ≤ 122 := by
    have hbounds : ∀ lo hi : UInt32, lo ≤ c.val → c.val ≤ hi → lo.toNat ≤ c.toNat ∧ c.toNat ≤ hi.toNat :=
      fun lo hi hlo hhi => ⟨UInt32.le_iff_toNat_le.1 hlo, UInt32.le_iff_toNat_le.1 hhi⟩
    change ((decide (c.val ≥ 65 ∧ c.val ≤ 90) || decide (c.val ≥ 97) && decide (c.val ≤ 122)) ||
      decide (c.val ≥ 48) && decide (c.val ≤ 57)) = true at h
    simp only [Bool.or_eq_true, Bool.and_eq_true, decide_eq_true_eq, ge_iff_le] at h
    rcases h with (⟨hlo, hhi⟩ | ⟨hlo, hhi⟩) | ⟨hlo, hhi⟩
    · have h : 65 ≤ c.toNat ∧ c.toNat ≤ 90 := hbounds 65 90 hlo hhi
      omega
    · have h : 97 ≤ c.toNat ∧ c.toNat ≤ 122 := hbounds 97 122 hlo hhi
      omega
    · have h : 48 ≤ c.toNat ∧ c.toNat ≤ 57 := hbounds 48 57 hlo hhi
      omega
  unfold isLineBreak
  simp only [Bool.or_eq_false_iff, Bool.and_eq_false_iff, decide_eq_false_iff_not, beq_eq_false_iff_ne]
  omega

/-- **A note is of one of two shapes.** -/
theorem produced_shape {note : List Char} (h : Produced u note) :
    (∃ id title signal, note = ticketNote u id title signal) ∨ ∃ j overlap, note = siblingNote j overlap := by
  cases h with
  | inflight h =>
    obtain ⟨prior, -, h⟩ := Option.bind_eq_some_iff.1 h
    exact .inl ⟨_, _, _, (Option.some.inj h).symm⟩
  | child h =>
    obtain ⟨child, -, ⟨prior, hnote⟩ | ⟨accepted, hsibling⟩⟩ := mem_findChildOverlaps h
    · exact .inl ⟨_, _, _, hnote⟩
    · obtain ⟨k, overlap, hnote, -⟩ := overlappingSibling_eq hsibling
      exact .inr ⟨k, overlap, hnote⟩

end Prior

end Dedup
end Core
end RobotsixMill
