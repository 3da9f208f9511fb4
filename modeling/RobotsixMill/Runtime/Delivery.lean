import RobotsixMill.Service.History
import RobotsixMill.Service.Runs
import RobotsixMill.Lib.Ancestors

/-!
# `Runtime.Delivery` — was a ticket delivered?

The epic re-evaluation asks of every child whether it was delivered. `resolveDelivery` reads the answer off
the note of the last event stamped `done` and follows dedup notes from ticket to ticket. A ticket that is
`done` goes on getting events stamped `done` (the trace breadcrumb of the retrospect stage is one), and an
operator's mark-done matches none of the prefixes of `NON_IMPLEMENTATION_CLOSE_PREFIXES`.

- `Delivers` — what the verdict is about: the event by which a ticket last entered `done`, and the end of
  the chain of dedup notes in these events.
- `nextAsked`, `readsMerged` — the chain the code follows; `resolveDelivery_eq` says what it reports.
- `delivers_iff` — the chain it is about.
- `Readable` — along the chain, the last note stamped `done` says what the note of the entry does;
  `delivery_verdict` — the verdict is right then.
-/

namespace RobotsixMill
namespace Runtime
open RobotsixMill.Core Lib Service

/-! ## Close notes -/

def DEDUP_DUPLICATE_PREFIX : String := "duplicate of "
def DEDUP_ALREADY_DONE_PREFIX : String := "already implemented in "
def FRESHNESS_STALE_PREFIX : String := "stale or invalid finding"
def OBSOLESCENCE_GAP_PREFIX : String := "obsolete — gap already resolved"
def WORKFLOW_PORTABILITY_GATE_PREFIX : String := "internal workflow gate:"
def STANDARDS_GATE_PREFIX : String := "standards gate:"
def SCOPE_TRIAGE_REPO_AWARENESS_GATE_PREFIX : String := "scope-triage repo awareness gate:"
def DEPENDENCY_BLOCKED_PREFIX : String := "dependency gate:"
def EXTERNAL_SCOPE_PREFIX : String := "external scope gate:"
def NO_CHANGE_NEEDED_PREFIX : String := "no change needed"
def ALREADY_SATISFIED_PREFIX : String := "already satisfied"
def STALE_CI_FAILURE_PREFIX : String := "Stale CI failure:"

/-- Closes that are no implementation. -/
def NON_IMPLEMENTATION_CLOSE_PREFIXES : List String :=
  [DEDUP_DUPLICATE_PREFIX, DEDUP_ALREADY_DONE_PREFIX, FRESHNESS_STALE_PREFIX, OBSOLESCENCE_GAP_PREFIX,
    WORKFLOW_PORTABILITY_GATE_PREFIX, STANDARDS_GATE_PREFIX, SCOPE_TRIAGE_REPO_AWARENESS_GATE_PREFIX,
    DEPENDENCY_BLOCKED_PREFIX, EXTERNAL_SCOPE_PREFIX, NO_CHANGE_NEEDED_PREFIX, ALREADY_SATISFIED_PREFIX,
    STALE_CI_FAILURE_PREFIX]

/-- How the note of an operator's mark-done starts. -/
def MARK_DONE_NOTE_PREFIX : String := "mark done"

/-- The closes whose note names another ticket. -/
def DEDUP_PREFIXES : List String := [DEDUP_DUPLICATE_PREFIX, DEDUP_ALREADY_DONE_PREFIX]

/-- The closes of a ticket whose goal was met already. -/
def SATISFIED_PREFIXES : List String :=
  [NO_CHANGE_NEEDED_PREFIX, OBSOLESCENCE_GAP_PREFIX, ALREADY_SATISFIED_PREFIX]

/-- The prefix of a non-implementation close the note starts with. -/
def matchedPrefix (note : String) : Option String :=
  NON_IMPLEMENTATION_CLOSE_PREFIXES.find? fun p => startsWith note p

/-- `note[len(prefix):].split(":", 1)[0].strip()`. -/
def canonicalOf (matched note : String) : TicketId :=
  strip (String.ofList ((note.toList.drop matched.toList.length).takeWhile (· ≠ ':')))

/-- The note of an event, as text. -/
def noteText (ev : TicketEvent) : String := ev.note.getD ""

/-! ### The base commit named in a note -/

section BaseSha

-- `\w`: letters, digits and the underscore
variable (isWordChar : Char → Bool)

def isShaChar (c : Char) : Bool := (48 ≤ c.toNat && c.toNat ≤ 57) || (97 ≤ c.toNat && c.toNat ≤ 102)

/-- A match of `base ([0-9a-f]{7,40})\b` at the head of the text. A longer or shorter run of digits has no
    end of word after its 7th to 40th digit. -/
def baseShaHere (cs : List Char) : Option String :=
  let rest := cs.drop 5
  let sha := rest.takeWhile isShaChar
  let ended := match rest.drop sha.length with
    | [] => true
    | c :: _ => !isWordChar c
  if "base ".toList.isPrefixOf cs && decide (7 ≤ sha.length) && decide (sha.length ≤ 40) && ended then
    some (String.ofList sha)
  else none

/-- `_BASE_SHA_RE.search`: the first match that starts a word. -/
def baseShaSearch : Bool → List Char → Option String
  | _, [] => none
  | inWord, c :: cs =>
    match if inWord then none else baseShaHere isWordChar (c :: cs) with
    | some sha => some sha
    | none => baseShaSearch (isWordChar c) cs

end BaseSha

/-! ## The verdict -/

/-- The result of `_resolve_delivery`. -/
structure Delivery where
  delivered : Bool
  label : String
  canonical : Option TicketId := none
  satisfied : Bool := false
  outcome : Option String := none
  baseSha : Option String := none
deriving DecidableEq, Repr

variable (env : Env) (svc : BoardId) (isWordChar : Char → Bool)

/-- `history`: the events in the order of their times. -/
def history (r : TicketRecord) : List TicketEvent :=
  r.events.insertionSort fun a b => a.at_ ≤ b.at_

/-- The last event of the history stamped `done`. -/
def doneEvent (r : TicketRecord) : Option TicketEvent :=
  ((history r).filter fun ev => decide (ev.state = .done)).getLast?

/-- The verdict on a note that names no other ticket to ask. -/
def closedDelivery (matched note : String) : Delivery :=
  if matched ∈ SATISFIED_PREFIXES then
    let base_sha := baseShaSearch isWordChar false note.toList
    { delivered := false, satisfied := true, outcome := some "already_satisfied", baseSha := base_sha
      label := match base_sha with
        | some sha =>
          let short := String.ofList (sha.toList.take 12)
          s!"satisfied — already met at base {short} (no change needed)"
        | none => "satisfied — no change needed (goal already met on main)" }
  else { delivered := false, label := "closed (not delivered)" }

/-- `_resolve_delivery`; `seen` is the set of tickets met so far. `none` when the fuel is used up, which it
    is never with 22 units (`resolveDelivery_eq`). -/
def resolveDelivery (σ : Mill) : Nat → List TicketId → TicketId → Option Delivery
  | 0, _, _ => none
  | fuel + 1, seen, tid =>
    if tid ∈ seen ∨ 20 < seen.length then some { delivered := false, label := "not delivered" }
    else
      let seen := tid :: seen
      match get env svc σ tid with
      | none => some { delivered := false, label := "not delivered" }
      | some (_, r) =>
        match doneEvent r with
        | none =>
          some { delivered := false
                 label := if r.ticket.state = .draft then "unstarted" else "in_progress" }
        | some done_event =>
          let note := noteText done_event
          match matchedPrefix note with
          | none => some { delivered := true, label := "merged" }
          | some matched =>
            if matched ∈ DEDUP_PREFIXES then
              let canonical := canonicalOf matched note
              if canonical ≠ "" ∧ canonical ≠ tid ∧ canonical ∉ seen then
                match resolveDelivery σ fuel seen canonical with
                | none => none
                | some sub =>
                  let sub_label := if sub.delivered then "merged" else "not delivered"
                  some { delivered := sub.delivered, canonical := some canonical
                         label := s!"dedup-closed → {canonical} ({sub_label})" }
              else
                let shown := if canonical = "" then "?" else canonical
                some { delivered := false, label := s!"dedup-closed → {shown} (not delivered)"
                       canonical := if canonical = "" then none else some canonical }
            else some (closedDelivery isWordChar matched note)

/-- The call the worker makes. -/
def deliveryOf (σ : Mill) (tid : TicketId) : Option Delivery :=
  resolveDelivery env svc isWordChar σ 22 [] tid

/-! ## What the verdict is about -/

/-- The event by which a history last entered `done`: stamped `done` after an event stamped otherwise.
    `prev` is the state before the list. -/
def doneEntry (prev : Option State) (entry : Option TicketEvent) : List TicketEvent → Option TicketEvent
  | [] => entry
  | ev :: evs =>
    doneEntry (some ev.state) (if ev.state = .done ∧ prev ≠ some .done then some ev else entry) evs

/-- The note of the event by which a ticket last entered `done`. -/
def entryNote (σ : Mill) (tid : TicketId) : Option String :=
  (get env svc σ tid).bind fun kr => (doneEntry none none kr.2.events).map noteText

/-- The ticket at the end of the chain of dedup closes last entered `done` by a transition that is neither
    a non-implementation close nor a mark-done. -/
inductive Delivers (σ : Mill) : TicketId → Prop
  | implemented {tid : TicketId} {note : String} : entryNote env svc σ tid = some note →
      matchedPrefix note = none → startsWith note MARK_DONE_NOTE_PREFIX = false → Delivers σ tid
  | duplicate {tid : TicketId} {note matched : String} : entryNote env svc σ tid = some note →
      matchedPrefix note = some matched → matched ∈ DEDUP_PREFIXES → canonicalOf matched note ≠ "" →
      Delivers σ (canonicalOf matched note) → Delivers σ tid

/-! ## The chain the verdict follows -/

/-- The note of the last event stamped `done`. -/
def lastDoneNote (σ : Mill) (tid : TicketId) : Option String :=
  (get env svc σ tid).bind fun kr => (doneEvent kr.2).map noteText

/-- The ticket a dedup note names, if it is one to ask. -/
def namedCanonical (tid : TicketId) (note : String) : Option TicketId :=
  match matchedPrefix note with
  | none => none
  | some matched =>
    let canonical := canonicalOf matched note
    if matched ∈ DEDUP_PREFIXES ∧ canonical ≠ "" ∧ canonical ≠ tid then some canonical else none

/-- Where the last note sends the verdict on. -/
def nextAsked (σ : Mill) (tid : TicketId) : Option TicketId :=
  (lastDoneNote env svc σ tid).bind (namedCanonical tid)

/-- Is the last note no non-implementation close? -/
def readsMerged (σ : Mill) (tid : TicketId) : Bool :=
  (lastDoneNote env svc σ tid).any fun note => (matchedPrefix note).isNone

variable {env svc isWordChar}

/-- One step of the verdict: a chain that went too far or came back, the end of the chain, one more
    note to follow. -/
theorem resolveDelivery_succ (σ : Mill) (fuel : Nat) (seen : List TicketId) (tid : TicketId) :
    (resolveDelivery env svc isWordChar σ (fuel + 1) seen tid).map Delivery.delivered =
      if tid ∈ seen ∨ 20 < seen.length then some false
      else match nextAsked env svc σ tid with
        | none => some (readsMerged env svc σ tid)
        | some c =>
          if c ∈ tid :: seen then some false
          else (resolveDelivery env svc isWordChar σ fuel (tid :: seen) c).map Delivery.delivered := by
  rw [resolveDelivery]
  by_cases hstop : tid ∈ seen ∨ 20 < seen.length
  · rw [if_pos hstop, if_pos hstop]
    rfl
  rw [if_neg hstop, if_neg hstop]
  cases hg : get env svc σ tid with
  | none => simp [nextAsked, readsMerged, lastDoneNote, hg]
  | some kr =>
      obtain ⟨k, r⟩ := kr
      cases hd : doneEvent r with
      | none => simp [nextAsked, readsMerged, lastDoneNote, hg, hd]
      | some ev =>
          have hlast : lastDoneNote env svc σ tid = some (noteText ev) := by simp [lastDoneNote, hg, hd]
          simp only [nextAsked, readsMerged, hlast, Option.bind_some, Option.any_some, namedCanonical, hd]
          cases hm : matchedPrefix (noteText ev) with
          | none => simp
          | some matched =>
              by_cases hdedup : matched ∈ DEDUP_PREFIXES
              · by_cases hask : canonicalOf matched (noteText ev) ≠ "" ∧
                  canonicalOf matched (noteText ev) ≠ tid
                · by_cases hseen : canonicalOf matched (noteText ev) ∈ tid :: seen
                  · simp [hdedup, hask, hseen]
                  · simp only [hdedup, hask, hseen, and_self, not_false_eq_true, if_true, ne_eq, if_false]
                    cases resolveDelivery env svc isWordChar σ fuel (tid :: seen)
                      (canonicalOf matched (noteText ev)) <;> rfl
                · have hno : ¬ (canonicalOf matched (noteText ev) ≠ "" ∧
                      canonicalOf matched (noteText ev) ≠ tid ∧
                      canonicalOf matched (noteText ev) ∉ tid :: seen) := fun h => hask ⟨h.1, h.2.1⟩
                  simp only [hdedup, hask, if_true, and_false, if_false, if_neg hno,
                    Option.map_some]
                  rfl
              · have hclosed : (closedDelivery isWordChar matched (noteText ev)).delivered = false := by
                  unfold closedDelivery
                  split <;> rfl
                simp [hdedup, hclosed]

/-- **The verdict is the note at the end of the chain**, if at most 20 notes lead there. -/
theorem resolveDelivery_eq (σ : Mill) {fuel : Nat} {seen : List TicketId} {tid : TicketId}
    (hfuel : fuel + seen.length = 22) (hlen : seen.length ≤ 20)
    (hseen : ∀ s ∈ seen, Relation.TransGen (fun a b => nextAsked env svc σ a = some b) s tid) :
    (resolveDelivery env svc isWordChar σ fuel seen tid).map Delivery.delivered =
      some ((chainEnd (nextAsked env svc σ) (20 - seen.length) tid).any (readsMerged env svc σ)) := by
  induction fuel generalizing seen tid with
  | zero => omega
  | succ fuel ih =>
      rw [resolveDelivery_succ]
      by_cases hmem : tid ∈ seen
      · rw [if_pos (.inl hmem), chainEnd_of_cycle (hseen tid hmem)]
        rfl
      rw [if_neg (by simp [hmem, hlen])]
      cases hnext : nextAsked env svc σ tid with
      | none => simp [chainEnd_of_none hnext]
      | some c =>
          have hstep : ∀ s ∈ tid :: seen,
              Relation.TransGen (fun a b => nextAsked env svc σ a = some b) s c := by
            intro s hs
            rcases List.mem_cons.1 hs with rfl | hs
            · exact .single hnext
            · exact (hseen s hs).tail hnext
          dsimp only
          by_cases hback : c ∈ tid :: seen
          · -- the chain came back: from here it goes round
            have hcycle := hstep c hback
            rw [if_pos hback, chainEnd_of_cycle]
            · rfl
            · refine Relation.TransGen.head' hnext ?_
              rcases List.mem_cons.1 hback with rfl | hs
              · exact .refl
              · exact (hseen c hs).to_reflTransGen
          · rw [if_neg hback]
            by_cases hlast : seen.length = 20
            · -- the 21st ticket is not asked
              obtain ⟨fuel, rfl⟩ : ∃ f, fuel = f + 1 := ⟨fuel - 1, by omega⟩
              rw [resolveDelivery_succ, if_pos (.inr (by simp [hlast])), hlast,
                chainEnd_zero_of_some hnext]
              rfl
            · obtain ⟨n, hn⟩ : ∃ n, 20 - seen.length = n + 1 := ⟨19 - seen.length, by omega⟩
              rw [ih (by simp; omega) (by simp; omega) hstep, hn, chainEnd_succ_of_some hnext]
              have : 20 - (tid :: seen).length = n := by simp; omega
              rw [this]

/-- The verdict is reached, and it is what the end of the chain reads. -/
theorem exists_verdict (env : Env) (svc : BoardId) (isWordChar : Char → Bool) (σ : Mill) (tid : TicketId) :
    ∃ d, deliveryOf env svc isWordChar σ tid = some d ∧
      d.delivered = (chainEnd (nextAsked env svc σ) 20 tid).any (readsMerged env svc σ) := by
  have heq := @resolveDelivery_eq env svc isWordChar σ 22 [] tid rfl (by simp) (by simp)
  obtain ⟨d, hd, hval⟩ := Option.map_eq_some_iff.1 heq
  exact ⟨d, hd, hval⟩

/-! ## The chain the verdict is about -/

/-- The ticket named in the note by which this one entered `done`. -/
def named (env : Env) (svc : BoardId) (σ : Mill) (tid : TicketId) : Option TicketId :=
  (entryNote env svc σ tid).bind (namedCanonical tid)

/-- The ticket entered `done` by an implementation. -/
def Merged (env : Env) (svc : BoardId) (σ : Mill) (tid : TicketId) : Prop :=
  ∃ note, entryNote env svc σ tid = some note ∧ matchedPrefix note = none ∧ startsWith note MARK_DONE_NOTE_PREFIX = false

theorem namedCanonical_eq_some_iff {tid c : TicketId} {note : String} : namedCanonical tid note = some c ↔
    ∃ matched, matchedPrefix note = some matched ∧ matched ∈ DEDUP_PREFIXES ∧ canonicalOf matched note = c ∧
      c ≠ "" ∧ c ≠ tid := by
  unfold namedCanonical
  cases hm : matchedPrefix note with
  | none => simp
  | some matched =>
      dsimp only
      rw [Option.ite_none_right_eq_some, Option.some.injEq]
      constructor
      · rintro ⟨⟨hdedup, hne, hself⟩, rfl⟩
        exact ⟨matched, rfl, hdedup, rfl, hne, hself⟩
      · rintro ⟨matched', heq, hdedup, rfl, hne, hself⟩
        obtain rfl := Option.some.inj heq
        exact ⟨⟨hdedup, hne, hself⟩, rfl⟩

theorem named_of_merged {σ : Mill} {tid : TicketId} (h : Merged env svc σ tid) : named env svc σ tid = none := by
  obtain ⟨note, hnote, hm, -⟩ := h
  simp [named, namedCanonical, hnote, hm]

/-- **A ticket delivers** just if its chain ends in one that was merged. -/
theorem delivers_iff {σ : Mill} {tid : TicketId} : Delivers env svc σ tid ↔
    ∃ n e, chainEnd (named env svc σ) n tid = some e ∧ Merged env svc σ e := by
  constructor
  · intro h
    induction h with
    | @implemented tid note hnote hm hmark =>
        have hmerged : Merged env svc σ tid := ⟨note, hnote, hm, hmark⟩
        exact ⟨0, tid, chainEnd_of_none (named_of_merged hmerged), hmerged⟩
    | @duplicate tid note matched hnote hm hdedup hne _ ih =>
        obtain ⟨n, e, hend, hmerged⟩ := ih
        by_cases hself : canonicalOf matched note = tid
        · -- a note that names its own ticket
          rw [hself] at hend
          exact ⟨n, e, hend, hmerged⟩
        · have hnext : named env svc σ tid = some (canonicalOf matched note) := by
            rw [named, hnote]
            exact namedCanonical_eq_some_iff.2 ⟨matched, hm, hdedup, rfl, hne, hself⟩
          exact ⟨n + 1, e, by rw [chainEnd_succ_of_some hnext, hend], hmerged⟩
  · rintro ⟨n, e, hend, hmerged⟩
    induction n generalizing tid with
    | zero =>
        cases hnext : named env svc σ tid with
        | some c => rw [chainEnd_zero_of_some hnext] at hend; cases hend
        | none =>
            rw [chainEnd_of_none hnext] at hend
            obtain rfl := Option.some.inj hend
            obtain ⟨note, hnote, hm, hmark⟩ := hmerged
            exact .implemented hnote hm hmark
    | succ n ih =>
        cases hnext : named env svc σ tid with
        | none =>
            rw [chainEnd_of_none hnext] at hend
            obtain rfl := Option.some.inj hend
            obtain ⟨note, hnote, hm, hmark⟩ := hmerged
            exact .implemented hnote hm hmark
        | some c =>
            rw [chainEnd_succ_of_some hnext] at hend
            obtain ⟨note, hnote, hnamed⟩ := Option.bind_eq_some_iff.1 hnext
            obtain ⟨matched, hm, hdedup, rfl, hne, -⟩ := namedCanonical_eq_some_iff.1 hnamed
            exact .duplicate hnote hm hdedup hne (ih hend)

/-! ## Notes that say the same -/

/-- What a note says of its ticket. -/
inductive Closing
  | merged
  | names (canonical : TicketId)
  | closed
deriving DecidableEq, Repr

/-- What the code reads in it. -/
def readNote (tid : TicketId) (note : String) : Closing :=
  match namedCanonical tid note with
  | some canonical => .names canonical
  | none => if (matchedPrefix note).isNone then .merged else .closed

/-- What it says as the note of an entry: a mark-done is no delivery. -/
def entryClosing (tid : TicketId) (note : String) : Closing :=
  if (matchedPrefix note).isNone && startsWith note MARK_DONE_NOTE_PREFIX then .closed else readNote tid note

/-- The last event that is stamped `done`, in the order of the rows. -/
def lastStamped (r : TicketRecord) : Option TicketEvent := (r.events.filter fun ev => decide (ev.state = .done)).getLast?

/-- The times are in the order of the rows, and the last event stamped `done` says of the ticket what the one does by
    which it last entered `done`. -/
def SaysSame (tid : TicketId) (r : TicketRecord) : Prop :=
  (r.events.Pairwise fun a b => a.at_ ≤ b.at_) ∧
    (lastStamped r).map (fun ev => readNote tid (noteText ev)) =
      (doneEntry none none r.events).map fun ev => entryClosing tid (noteText ev)

instance (tid : TicketId) (r : TicketRecord) : Decidable (SaysSame tid r) := instDecidableAnd

/-- The notes along the chain of a ticket say the same, and there are at most 20 if the chain ends. -/
structure Readable (env : Env) (svc : BoardId) (σ : Mill) (tid : TicketId) : Prop where
  same : ∀ t, Relation.ReflTransGen (fun a b => named env svc σ a = some b) tid t →
    ∀ k r, get env svc σ t = some (k, r) → SaysSame t r
  short : ∀ n e, chainEnd (named env svc σ) n tid = some e → chainEnd (named env svc σ) 20 tid = some e

theorem readNote_eq_names_iff {tid c : TicketId} {note : String} :
    readNote tid note = .names c ↔ namedCanonical tid note = some c := by
  unfold readNote
  cases namedCanonical tid note with
  | some c' => simp
  | none =>
      dsimp only
      split <;> simp

theorem readNote_eq_merged_iff {tid : TicketId} {note : String} :
    readNote tid note = .merged ↔ matchedPrefix note = none := by
  unfold readNote
  cases hnamed : namedCanonical tid note with
  | some c =>
      obtain ⟨matched, hm, -⟩ := namedCanonical_eq_some_iff.1 hnamed
      simp [hm]
  | none =>
      dsimp only
      cases matchedPrefix note <;> simp

theorem entryClosing_eq_names_iff {tid c : TicketId} {note : String} :
    entryClosing tid note = .names c ↔ namedCanonical tid note = some c := by
  unfold entryClosing
  split
  · rename_i hmark
    rw [Bool.and_eq_true, Option.isNone_iff_eq_none] at hmark
    simp [namedCanonical, hmark.1]
  · exact readNote_eq_names_iff

theorem entryClosing_eq_merged_iff {tid : TicketId} {note : String} :
    entryClosing tid note = .merged ↔ matchedPrefix note = none ∧ startsWith note MARK_DONE_NOTE_PREFIX = false := by
  unfold entryClosing
  cases hm : matchedPrefix note with
  | none => cases hmark : startsWith note MARK_DONE_NOTE_PREFIX <;> simp [readNote_eq_merged_iff, hm]
  | some matched => simp [readNote_eq_merged_iff, hm]

/-- With times in order, the history is the rows. -/
theorem doneEvent_eq {r : TicketRecord} (h : r.events.Pairwise fun a b => a.at_ ≤ b.at_) : doneEvent r = lastStamped r := by
  unfold doneEvent lastStamped history
  rw [h.insertionSort_eq]

section Same

variable {σ : Mill} {tid : TicketId} (h : ∀ k r, get env svc σ tid = some (k, r) → SaysSame tid r)

include h

/-- Where the notes say the same, so does what is read. -/
theorem closings_eq : (lastDoneNote env svc σ tid).map (readNote tid) = (entryNote env svc σ tid).map (entryClosing tid) := by
  unfold lastDoneNote entryNote
  cases hget : get env svc σ tid with
  | none => rfl
  | some kr =>
      obtain ⟨k, r⟩ := kr
      obtain ⟨htimes, hsame⟩ := h k r hget
      rw [Option.bind_some, Option.bind_some, doneEvent_eq htimes, Option.map_map, Option.map_map]
      exact hsame

theorem nextAsked_eq_named : nextAsked env svc σ tid = named env svc σ tid := by
  have hclosings := closings_eq h
  unfold nextAsked named
  cases hlast : lastDoneNote env svc σ tid with
  | none =>
      rw [hlast] at hclosings
      rw [Option.map_eq_none_iff.1 hclosings.symm]
  | some last =>
      rw [hlast] at hclosings
      obtain ⟨note, hnote, hsame⟩ := Option.map_eq_some_iff.1 hclosings.symm
      apply Option.ext
      intro c
      rw [hnote, Option.bind_some, Option.bind_some, ← readNote_eq_names_iff, ← entryClosing_eq_names_iff, hsame]

theorem readsMerged_iff : readsMerged env svc σ tid = true ↔ Merged env svc σ tid := by
  have hclosings := closings_eq h
  unfold readsMerged Merged
  constructor
  · intro hreads
    obtain ⟨last, hlast, hm⟩ := (Option.any_eq_true _ _).1 hreads
    rw [hlast] at hclosings
    obtain ⟨note, hnote, hsame⟩ := Option.map_eq_some_iff.1 hclosings.symm
    rw [readNote_eq_merged_iff.2 (Option.isNone_iff_eq_none.1 hm)] at hsame
    exact ⟨note, hnote, entryClosing_eq_merged_iff.1 hsame⟩
  · rintro ⟨note, hnote, hmerged⟩
    rw [hnote, Option.map_some, entryClosing_eq_merged_iff.2 hmerged] at hclosings
    obtain ⟨last, hlast, hread⟩ := Option.map_eq_some_iff.1 hclosings
    rw [hlast, Option.any_some, Option.isNone_iff_eq_none]
    exact readNote_eq_merged_iff.1 hread

end Same

/-- **Delivery verdict.** The verdict is always reached; and it is right if the notes along the chain of the ticket say
    what the notes of the entries do, and are at most 20. -/
theorem delivery_verdict (env : Env) (svc : BoardId) (isWordChar : Char → Bool) (σ : Mill) (tid : TicketId) :
    ∃ d, deliveryOf env svc isWordChar σ tid = some d ∧
      (Readable env svc σ tid → (d.delivered = true ↔ Delivers env svc σ tid)) := by
  obtain ⟨d, hd, hval⟩ := exists_verdict env svc isWordChar σ tid
  refine ⟨d, hd, fun hreadable => ?_⟩
  have hsame : chainEnd (nextAsked env svc σ) 20 tid = chainEnd (named env svc σ) 20 tid :=
    chainEnd_congr fun t ht => nextAsked_eq_named (hreadable.same t ht)
  rw [hval, hsame, delivers_iff, Option.any_eq_true]
  constructor
  · rintro ⟨e, hend, hreads⟩
    exact ⟨20, e, hend, (readsMerged_iff (hreadable.same e (reach_of_chainEnd hend))).1 hreads⟩
  · rintro ⟨n, e, hend, hmerged⟩
    have hend20 := hreadable.short n e hend
    exact ⟨e, hend20, (readsMerged_iff (hreadable.same e (reach_of_chainEnd hend20))).2 hmerged⟩

/-- A merged ticket with a breadcrumb behind, and its duplicate. -/
def mergedTwin : Mill := runOps .standalone .empty
  [.create "board" { id := "t-2", title := "ticket" },
    .transition "board" "t-2" .done (some "merged: #7") none,
    .addHistoryNote "board" "t-2" "🔍 [Trace: retrospect](trace)",
    .create "board" { id := "t-1", title := "ticket" },
    .transition "board" "t-1" .done (some "duplicate of t-2: same request") none]

theorem delivery_verdict_duplicate :
    (deliveryOf .standalone "board" Char.isAlphanum mergedTwin "t-1").map Delivery.delivered = some true ∧
      Delivers .standalone "board" mergedTwin "t-1" := by
  have hverdict : (deliveryOf .standalone "board" Char.isAlphanum mergedTwin "t-1").map Delivery.delivered = some true := by
    decide +kernel
  have hfirst : named .standalone "board" mergedTwin "t-1" = some "t-2" := by decide +kernel
  have hsecond : named .standalone "board" mergedTwin "t-2" = none := by decide +kernel
  have hreach : ∀ t, Relation.ReflTransGen (fun a b => named .standalone "board" mergedTwin a = some b) "t-1" t →
      t = "t-1" ∨ t = "t-2" := by
    intro t ht
    induction ht with
    | refl => exact .inl rfl
    | tail _ hstep ih =>
        rcases ih with rfl | rfl
        · exact .inr (Option.some.inj (hfirst.symm.trans hstep)).symm
        · rw [hsecond] at hstep
          cases hstep
  have hsame : ∀ t, t = "t-1" ∨ t = "t-2" →
      (get .standalone "board" mergedTwin t).all (fun kr => decide (SaysSame t kr.2)) = true := by
    rintro t (rfl | rfl) <;> decide +kernel
  have hreadable : Readable .standalone "board" mergedTwin "t-1" := by
    refine ⟨fun t ht k r hget => ?_, fun n e hend => ?_⟩
    · have hall := hsame t (hreach t ht)
      rw [hget] at hall
      exact of_decide_eq_true hall
    · cases n with
      | zero => rw [chainEnd_zero_of_some hfirst] at hend; cases hend
      | succ n =>
          rw [chainEnd_succ_of_some hfirst, chainEnd_of_none hsecond] at hend
          rw [← hend, chainEnd_succ_of_some hfirst, chainEnd_of_none hsecond]
  obtain ⟨d, hd, hright⟩ := delivery_verdict .standalone "board" Char.isAlphanum mergedTwin "t-1"
  rw [hd] at hverdict
  exact ⟨by rw [hd]; exact hverdict, (hright hreadable).1 (Option.some.inj hverdict)⟩

/-- A duplicate that was closed, then visited by the retrospect stage. -/
def breadcrumbRun : List Op :=
  [.create "board" { id := "t-1", title := "ticket" },
    .transition "board" "t-1" .done (some "duplicate of t-9: same request") none,
    .addHistoryNote "board" "t-1" "🔍 [Trace: retrospect](trace)"]

/-- The breadcrumb turns the duplicate of a ticket that does not exist into a delivered ticket. -/
theorem breadcrumb_delivers :
    (deliveryOf .standalone "board" Char.isAlphanum (runOps .standalone .empty (breadcrumbRun.take 2))
      "t-1").map Delivery.delivered = some false ∧
    (deliveryOf .standalone "board" Char.isAlphanum (runOps .standalone .empty breadcrumbRun)
      "t-1").map Delivery.delivered = some true ∧
    ¬ Delivers .standalone "board" (runOps .standalone .empty breadcrumbRun) "t-1" := by
  refine ⟨by decide +kernel, by decide +kernel, ?_⟩
  have hnote : entryNote .standalone "board" (runOps .standalone .empty breadcrumbRun) "t-1" =
      some "duplicate of t-9: same request" := by decide +kernel
  have hother : entryNote .standalone "board" (runOps .standalone .empty breadcrumbRun) "t-9" = none := by
    decide +kernel
  have hm : matchedPrefix "duplicate of t-9: same request" = some DEDUP_DUPLICATE_PREFIX := by
    decide +kernel
  have hc : canonicalOf DEDUP_DUPLICATE_PREFIX "duplicate of t-9: same request" = "t-9" := by
    decide +kernel
  intro h
  cases h with
  | implemented hn hnone _ =>
      rw [hnote] at hn
      cases hn
      rw [hm] at hnone
      cases hnone
  | duplicate hn hsome _ _ hd =>
      rw [hnote] at hn
      cases hn
      rw [hm] at hsome
      cases hsome
      rw [hc] at hd
      cases hd with
      | implemented hn' _ _ => rw [hother] at hn'; cases hn'
      | duplicate hn' _ _ _ _ => rw [hother] at hn'; cases hn'

end Runtime
end RobotsixMill
