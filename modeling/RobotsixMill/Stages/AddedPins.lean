import RobotsixMill.Stages.DiffText

/-!
# `Stages.AddedPins` — the pins that a diff adds

- `MakesReference` — a line of YAML whose key is `uses`, with a plain or quoted value;
- `SeesPins` — the scans find what the added lines under `.github/` pin, and nothing of other lines;
- `ReadsPins` — no value is quoted, the scan knows in which file it is, and no line breaks off where git does not end
  it;
- `pins_seen_iff` — the one if and only if the other.
-/

namespace RobotsixMill
namespace Stages
open Lib

/-! ## References -/

/-- Indentation, and the dashes of list items. -/
inductive IsLead : List Char → Prop
  | nil : IsLead []
  | blank {lead : List Char} : IsLead lead → IsLead (' ' :: lead)
  | item {lead : List Char} : IsLead lead → IsLead ('-' :: ' ' :: lead)

def isBlankChar (c : Char) : Bool := c == ' ' || c == '\t'

/-- Nothing but blanks and a comment. -/
def IsTail (tail : List Char) : Prop :=
  ∃ blanks rest, firstPart tail = blanks ++ rest ∧ (∀ c ∈ blanks, isBlankChar c = true) ∧
    (rest = [] ∨ blanks ≠ [] ∧ rest.head? = some '#')

/-- The quotes of a scalar. -/
inductive IsQuote : Option Char → Prop
  | plain : IsQuote none
  | double : IsQuote (some '"')
  | single : IsQuote (some '\'')

/-- The line is an entry `uses: slug@ref` of a mapping; the value may be quoted, and a comment may follow. -/
structure MakesReference (content : List Char) (quote : Option Char) (slug ref : List Char) : Prop where
  isQuote : IsQuote quote
  isSlug : ∃ owner repo path, IsSlug slug owner repo path
  ref_ne : ref ≠ []
  ref_char : ∀ c ∈ ref, isPySpace c = false
  unquoted : ∀ c ∈ slug ++ ref, some c ≠ quote ∧ (quote = some '"' → c ≠ '\\')
  eq : ∃ lead gap tail, content =
    lead ++ ("uses:".toList ++ (gap ++ (quote.toList ++ (slug ++ '@' :: (ref ++ (quote.toList ++ tail)))))) ∧
    IsLead lead ∧ gap ≠ [] ∧ (∀ c ∈ gap, isBlankChar c = true) ∧ IsTail tail

/-- A reference that is checked: to an action of another repository, or to a commit of a reusable workflow. -/
def IsPin (slug ref : String) : Bool := if isReusable slug then isSha ref else !startsWith slug "./"

/-! ## What the scans should find -/

/-- The pins of a text, behind the text before it. -/
def newPins (before text : String) : List ActionRef :=
  newRefs actionRefsFromDiff before text ++ newRefs reusableWorkflowShaRefsFromDiff before text

/-- Every line yields what it should: the reference that it adds to a file under `.github/`, when the scan comes to its
    end, and otherwise nothing, unless it is an added one (for actions, of such a file). -/
structure SeesPins (d : List FileDiff) : Prop where
  complete : ∀ pre l, pre ++ [l] <+: sourceLines d → ∀ path, l.addedTo = some path →
    startsWith path ".github/" = true → ∀ quote slug ref, MakesReference (l.text.toList.drop 1) quote slug ref →
    IsPin (String.ofList slug) (String.ofList ref) = true →
    ∃ comment, ⟨path, String.ofList slug, String.ofList ref, comment⟩ ∈
      newPins (diffText pre) (String.ofList (firstPart l.text.toList))
  actions : ∀ pre l, pre ++ [l] <+: sourceLines d →
    ∀ r ∈ newRefs actionRefsFromDiff (diffText pre) (l.text ++ "\n"),
      ∃ path, l.addedTo = some path ∧ startsWith path ".github/" = true
  reusable : ∀ pre l, pre ++ [l] <+: sourceLines d →
    ∀ r ∈ newRefs reusableWorkflowShaRefsFromDiff (diffText pre) (l.text ++ "\n"), l.addedTo ≠ none

/-- What stands behind the first quote. -/
def behindQuote (quote : Char) (cs : List Char) : List Char := (cs.dropWhile fun c => c != quote).drop 1

/-- Where the scans are right. -/
structure ReadsPins (d : List FileDiff) : Prop where
  /-- Of a reference that an added line makes under `.github/`, the value is not quoted (or the text behind the quote
      has the same once more), and the last line before it that is read as a header names its file. -/
  seen : ∀ pre l, pre ++ [l] <+: sourceLines d → ∀ path, l.addedTo = some path →
    startsWith path ".github/" = true → ∀ quote slug ref, MakesReference (l.text.toList.drop 1) quote slug ref →
    IsPin (String.ofList slug) (String.ofList ref) = true →
    lastTarget (splitlines (diffText pre)) = some path ∧
      ∀ q, quote = some q →
        ∃ comment, usesSearch (behindQuote q (firstPart (l.text.toList.drop 1))) = some (slug, ref, comment)
  /-- No other line has a pin behind a line break within it. -/
  unbroken : ∀ pre l, pre ++ [l] <+: sourceLines d → l.addedTo = none →
    ∀ qs q qs', linesOf l.text = qs ++ q :: qs' → qs ≠ [] →
      pinOfLine keepsAction (lastTarget (splitlines (diffText pre) ++ qs)) q = none ∧
        pinOfLine keepsReusableSha (lastTarget (splitlines (diffText pre) ++ qs)) q = none
  /-- No line added elsewhere has an action where the scan takes it for one of a file under `.github/`. -/
  outside : ∀ pre l, pre ++ [l] <+: sourceLines d → ∀ path, l.addedTo = some path →
    startsWith path ".github/" = false → ∀ qs q qs', linesOf l.text = qs ++ q :: qs' →
      pinOfLine keepsAction (lastTarget (splitlines (diffText pre) ++ qs)) q = none

/-! ## The lines that make references -/

section References

variable {content slug ref : List Char} {quote : Option Char}

theorem IsLead.mem {lead : List Char} (h : IsLead lead) : ∀ c ∈ lead, c = ' ' ∨ c = '-' := by
  induction h with
  | nil => exact fun c hc => absurd hc List.not_mem_nil
  | blank _ ih =>
    intro c hc
    rcases List.mem_cons.1 hc with rfl | hc
    · exact .inl rfl
    · exact ih c hc
  | item _ ih =>
    intro c hc
    rcases List.mem_cons.1 hc with rfl | hc
    · exact .inr rfl
    · rcases List.mem_cons.1 hc with rfl | hc
      · exact .inl rfl
      · exact ih c hc

theorem isBlankChar_iff {c : Char} : isBlankChar c = true ↔ c = ' ' ∨ c = '\t' := by
  unfold isBlankChar
  rw [Bool.or_eq_true, beq_iff_eq, beq_iff_eq]

/-- There is no blank in a slug. -/
theorem IsSlug.not_space {owner repo path : List Char} (h : IsSlug slug owner repo path) :
    ∀ c ∈ slug, isPySpace c = false := by
  intro c hc
  rw [h.eq] at hc
  rcases List.mem_append.1 hc with howner | hrest
  · exact isPySpace_of_isNameChar (h.owner_name c howner)
  · rcases List.mem_cons.1 hrest with rfl | hrest
    · rfl
    · rcases List.mem_append.1 hrest with hrepo | hpath
      · exact isPySpace_of_isNameChar (h.repo_name c hrepo)
      · have hchar := h.path_char c hpath
        unfold isPathChar at hchar
        rw [Bool.and_eq_true, Bool.not_eq_true'] at hchar
        exact hchar.2

theorem IsQuote.eq_some {q : Char} (h : IsQuote (some q)) : q = '"' ∨ q = '\'' := by
  cases h with
  | double => exact .inl rfl
  | single => exact .inr rfl

/-- What the scan has of the line when it comes to the first line break: all but what is behind it in the comment. -/
theorem MakesReference.firstPart_eq (h : MakesReference content quote slug ref) :
    ∃ lead gap blanks rest, firstPart content = lead ++ ("uses:".toList ++ (gap ++ (quote.toList ++
        (slug ++ '@' :: (ref ++ (quote.toList ++ (blanks ++ rest))))))) ∧
      (∀ c ∈ lead, c = ' ' ∨ c = '-') ∧ (∀ c ∈ gap, isBlankChar c = true) ∧ (∀ c ∈ blanks, isBlankChar c = true) ∧
      (rest = [] ∨ blanks ≠ []) := by
  obtain ⟨lead, gap, tail, rfl, hlead, -, hgap, blanks, rest, htail, hblanks, hrest⟩ := h.eq
  obtain ⟨owner, repo, path, hslug⟩ := h.isSlug
  refine ⟨lead, gap, blanks, rest, ?_, hlead.mem, hgap, hblanks, hrest.imp id And.left⟩
  have hblank : ∀ c, isBlankChar c = true → isLineBreak c = false := by
    intro c hc
    rcases isBlankChar_iff.1 hc with rfl | rfl <;> rfl
  have hquote : ∀ c ∈ quote.toList, isLineBreak c = false := by
    intro c hc
    obtain rfl := Option.mem_toList.1 hc
    rcases h.isQuote.eq_some with rfl | rfl <;> rfl
  rw [firstPart_append fun c hc => by rcases hlead.mem c hc with rfl | rfl <;> rfl,
    firstPart_append (forall_mem_of_all (by decide)),
    firstPart_append fun c hc => hblank c (hgap c hc), firstPart_append hquote,
    firstPart_append fun c hc => isLineBreak_of_not_space (hslug.not_space c hc), ← List.singleton_append,
    firstPart_append (forall_mem_of_all (by decide)),
    firstPart_append fun c hc => isLineBreak_of_not_space (h.ref_char c hc),
    firstPart_append hquote, htail]
  rfl

theorem not_startsWith_of_longer {line short long : String} (h : startsWith line short = false)
    (hlong : short.toList <+: long.toList) : startsWith line long = false := by
  rw [Bool.eq_false_iff] at h ⊢
  intro hstarts
  apply h
  unfold startsWith at hstarts ⊢
  exact List.isPrefixOf_iff_prefix.2 (hlong.trans (List.isPrefixOf_iff_prefix.1 hstarts))

/-- An added line that makes a reference is searched. -/
theorem MakesReference.usesInLine_eq (h : MakesReference content quote slug ref) :
    isTargetLine (String.ofList (firstPart ('+' :: content))) = false ∧
      usesInLine (String.ofList (firstPart ('+' :: content))) = usesSearch ('+' :: firstPart content) := by
  have hpart : firstPart ('+' :: content) = '+' :: firstPart content :=
    @firstPart_append ['+'] (forall_mem_of_all (by decide)) content
  have hlist : (String.ofList ('+' :: firstPart content)).toList = '+' :: firstPart content := String.toList_ofList
  obtain ⟨lead, gap, blanks, rest, hcontent, hlead, -⟩ := h.firstPart_eq
  have hplus : startsWith (String.ofList ('+' :: firstPart content)) "+++" = false := by
    unfold startsWith
    rw [hlist, hcontent]
    cases hl : lead with
    | nil => rfl
    | cons c cs =>
      rcases hlead c (by rw [hl]; exact List.mem_cons_self) with rfl | rfl <;> rfl
  have hone : startsWith (String.ofList ('+' :: firstPart content)) "+" = true := by
    unfold startsWith
    rw [hlist]
    rfl
  rw [hpart]
  constructor
  · unfold isTargetLine
    rw [not_startsWith_of_longer hplus ⟨" b/".toList, rfl⟩, Bool.false_and]
  · unfold usesInLine
    rw [hplus, hone, hlist]
    rfl

/-- **A plain value is found.** -/
theorem MakesReference.found_plain (h : MakesReference content none slug ref) :
    ∃ comment, usesSearch ('+' :: firstPart content) = some (slug, ref, comment) := by
  obtain ⟨lead, gap, blanks, rest, hcontent, hlead, hgap, hblanks, hrest⟩ := h.firstPart_eq
  obtain ⟨owner, repo, path, hslug⟩ := h.isSlug
  have hspace : ∀ c, isBlankChar c = true → isPySpace c = true := by
    intro c hc
    rcases isBlankChar_iff.1 hc with rfl | rfl <;> rfl
  refine ⟨usesComment (blanks ++ rest), ?_⟩
  have hskip : ∀ c ∈ '+' :: lead, c ≠ 'u' := by
    intro c hc
    rcases List.mem_cons.1 hc with rfl | hc
    · decide
    · rcases hlead c hc with rfl | rfl <;> decide
  rw [hcontent, ← List.cons_append]
  refine usesSearch_plain hskip hslug (fun c hc => hspace c (hgap c hc)) h.ref_ne h.ref_char ?_
  · intro c hc
    cases hb : blanks with
    | nil =>
      rcases hrest with rfl | hne
      · rw [hb] at hc
        cases hc
      · exact absurd hb hne
    | cons b bs =>
      rw [hb] at hc
      obtain rfl := Option.some.inj hc
      exact hspace b (hblanks b (by rw [hb]; exact List.mem_cons_self))

/-- **A quoted value is not**: the search goes on behind the quote. -/
theorem MakesReference.found_quoted {q : Char} (h : MakesReference content (some q) slug ref) :
    usesSearch ('+' :: firstPart content) = usesSearch (behindQuote q (firstPart content)) := by
  obtain ⟨lead, gap, blanks, rest, hcontent, hlead, hgap, -⟩ := h.firstPart_eq
  have hspace : ∀ c ∈ gap, isPySpace c = true := by
    intro c hc
    rcases isBlankChar_iff.1 (hgap c hc) with rfl | rfl <;> rfl
  have hbefore : ∀ c ∈ lead ++ ("uses:".toList ++ gap), (c != q) = true := by
    intro c hc
    rw [bne_iff_ne]
    rintro rfl
    have hquote := h.isQuote.eq_some
    rcases List.mem_append.1 hc with hc | hc
    · rcases hlead c hc with rfl | rfl <;> exact absurd hquote (by decide)
    · rcases List.mem_append.1 hc with hc | hc
      · rcases hquote with rfl | rfl <;> exact absurd hc (by decide)
      · rcases isBlankChar_iff.1 (hgap c hc) with rfl | rfl <;> exact absurd hquote (by decide)
  have hsplit : firstPart content = (lead ++ ("uses:".toList ++ gap)) ++
      q :: (slug ++ '@' :: (ref ++ (q :: (blanks ++ rest)))) := by
    rw [hcontent]
    simp only [Option.toList_some, List.append_assoc, List.singleton_append]
  have hbehind : behindQuote q (firstPart content) = slug ++ '@' :: (ref ++ (q :: (blanks ++ rest))) := by
    unfold behindQuote
    rw [hsplit, List.dropWhile_append_of_pos hbefore, List.dropWhile_cons_of_neg (by simp)]
    rfl
  have hskip : ∀ c ∈ '+' :: lead, c ≠ 'u' := by
    intro c hc
    rcases List.mem_cons.1 hc with rfl | hc
    · decide
    · rcases hlead c hc with rfl | rfl <;> decide
  rw [hbehind, hcontent, ← List.cons_append]
  exact usesSearch_quoted hskip h.isQuote.eq_some hspace

/-- A slug is no image name. -/
theorem IsSlug.not_docker {owner repo path : List Char} (h : IsSlug slug owner repo path) :
    startsWith (String.ofList slug) "docker://" = false := by
  rw [Bool.eq_false_iff]
  intro hstarts
  have hlist : (String.ofList slug).toList = slug := String.toList_ofList
  unfold startsWith at hstarts
  rw [hlist] at hstarts
  obtain ⟨more, hmore⟩ := List.isPrefixOf_iff_prefix.1 hstarts
  have hname : ∀ c ∈ "docker".toList, isNameChar c = true := forall_mem_of_all (by decide)
  have hdocker : slug.dropWhile isNameChar = "://".toList ++ more := by
    rw [← hmore]
    exact (takeWhile_append_of_stop ("://".toList ++ more) hname fun c hc => by
      obtain rfl := Option.some.inj hc
      rfl).2
  have hslug : slug.dropWhile isNameChar = '/' :: (repo ++ path) := by
    rw [h.eq]
    exact (takeWhile_append_of_stop ('/' :: (repo ++ path)) h.owner_name fun c hc => by
      obtain rfl := Option.some.inj hc
      rfl).2
  rw [hdocker] at hslug
  exact absurd (List.cons.inj hslug).1 (by decide)

/-- What is to be checked is what the two scans keep. -/
theorem isPin_iff {owner repo path : List Char} (h : IsSlug slug owner repo path) {file comment : String}
    (hfile : startsWith file ".github/" = true) (ref : String) : IsPin (String.ofList slug) ref = true ↔
      keepsAction ⟨file, String.ofList slug, ref, comment⟩ = true ∨
        keepsReusableSha ⟨file, String.ofList slug, ref, comment⟩ = true := by
  unfold IsPin keepsAction keepsReusableSha
  dsimp only
  rw [hfile, h.not_docker]
  cases isReusable (String.ofList slug) with
  | true => simp
  | false => simp

end References

/-! ## The diffs that are read rightly -/

section Diff

variable {d : List FileDiff}

/-- What the scan has when it comes to the first line break of an added line. -/
theorem mem_newPins_iff {pre : List SourceLine} {content : List Char} {r : ActionRef} :
    r ∈ newPins (diffText pre) (String.ofList (firstPart ('+' :: content))) ↔
      pinOfLine keepsAction (lastTarget (splitlines (diffText pre)))
          (String.ofList (firstPart ('+' :: content))) = some r ∨
        pinOfLine keepsReusableSha (lastTarget (splitlines (diffText pre)))
          (String.ofList (firstPart ('+' :: content))) = some r := by
  have hpart : firstPart ('+' :: content) = '+' :: firstPart content :=
    @firstPart_append ['+'] (forall_mem_of_all (by decide)) content
  have hlist : (String.ofList ('+' :: content)).toList = '+' :: content := String.toList_ofList
  have hone : splitlines (String.ofList (firstPart ('+' :: content))) =
      [String.ofList (firstPart ('+' :: content))] := by
    have h := @splitlines_firstPart (String.ofList ('+' :: content))
    rw [hlist] at h
    exact h (by rw [hpart]; exact List.cons_ne_nil _ _)
  have hscan : ∀ keep : ActionRef → Bool,
      r ∈ newRefs (fun diff => scanLines keep none (splitlines diff)) (diffText pre)
        (String.ofList (firstPart ('+' :: content))) ↔
      pinOfLine keep (lastTarget (splitlines (diffText pre)))
        (String.ofList (firstPart ('+' :: content))) = some r := by
    intro keep
    rw [newRefs_scan, hone, scanLines, scanLines, List.append_nil, Option.mem_toList]
  unfold newPins
  rw [List.mem_append]
  exact or_congr (hscan keepsAction) (hscan keepsReusableSha)

/-- **A reference is seen** if the scan knows the file, and the pattern finds it. -/
theorem seen_iff {pre : List SourceLine} {content slug ref : List Char} {quote : Option Char} {path : String}
    (h : MakesReference content quote slug ref) (hpath : startsWith path ".github/" = true)
    (hpin : IsPin (String.ofList slug) (String.ofList ref) = true) :
    (∃ comment, ⟨path, String.ofList slug, String.ofList ref, comment⟩ ∈
      newPins (diffText pre) (String.ofList (firstPart ('+' :: content)))) ↔
      lastTarget (splitlines (diffText pre)) = some path ∧
        ∀ q, quote = some q →
          ∃ comment, usesSearch (behindQuote q (firstPart content)) = some (slug, ref, comment) := by
  obtain ⟨htarget, huses⟩ := h.usesInLine_eq
  obtain ⟨owner, repo, subpath, hslug⟩ := h.isSlug
  have hlist : ∀ cs : List Char, (String.ofList cs).toList = cs := fun cs => String.toList_ofList
  constructor
  · rintro ⟨comment, hmem⟩
    have hfound : lastTarget (splitlines (diffText pre)) = some path ∧
        usesSearch ('+' :: firstPart content) = some (slug, ref, comment.toList) := by
      rw [mem_newPins_iff, pinOfLine_eq_some, pinOfLine_eq_some, huses, hlist, hlist] at hmem
      rcases hmem with ⟨-, hfile, hsearch, -⟩ | ⟨-, hfile, hsearch, -⟩
      · exact ⟨hfile, hsearch⟩
      · exact ⟨hfile, hsearch⟩
    refine ⟨hfound.1, fun q hq => ?_⟩
    subst hq
    rw [h.found_quoted] at hfound
    exact ⟨_, hfound.2⟩
  · rintro ⟨hfile, hquoted⟩
    have hfound : ∃ comment, usesSearch ('+' :: firstPart content) = some (slug, ref, comment) := by
      cases quote with
      | none => exact h.found_plain
      | some q =>
        rw [h.found_quoted]
        exact hquoted q rfl
    obtain ⟨comment, hsearch⟩ := hfound
    refine ⟨String.ofList comment, ?_⟩
    rw [mem_newPins_iff, pinOfLine_eq_some, pinOfLine_eq_some, huses, hlist, hlist, hlist, hsearch]
    rcases (isPin_iff hslug hpath (String.ofList ref)).1 hpin with hkeep | hkeep
    · exact .inl ⟨htarget, hfile, rfl, hkeep⟩
    · exact .inr ⟨htarget, hfile, rfl, hkeep⟩

/-- An added line, with what is added. -/
theorem text_of_addedTo {l : SourceLine} {path : String} (hl : l ∈ sourceLines d) (hadded : l.addedTo = some path) :
    ∃ content : String, l.text.toList = '+' :: content.toList := by
  rcases addedTo_sourceLines hl with ⟨path', content, rfl⟩ | ⟨hnone, -⟩
  · refine ⟨content, ?_⟩
    rw [String.toList_append]
    rfl
  · rw [hnone] at hadded
    cases hadded

theorem mem_of_split {pre : List SourceLine} {l : SourceLine} (h : pre ++ [l] <+: sourceLines d) : l ∈ sourceLines d :=
  h.subset (List.mem_append_right pre (List.mem_singleton_self l))

/-- The pins of a whole line. -/
theorem mem_newRefs_line {keep : ActionRef → Bool} {pre : List SourceLine} {l : SourceLine} {r : ActionRef} :
    r ∈ newRefs (fun diff => scanLines keep none (splitlines diff)) (diffText pre) (l.text ++ "\n") ↔
      ∃ qs q qs', linesOf l.text = qs ++ q :: qs' ∧
        pinOfLine keep (lastTarget (splitlines (diffText pre) ++ qs)) q = some r := mem_newRefs_iff

/-- A line that no file gets a line by has pins only behind a line break within it. -/
theorem behind_break {keep : ActionRef → Bool} {l : SourceLine} (hl : l ∈ sourceLines d) (hnone : l.addedTo = none)
    {file : Option String} {qs qs' : List String} {q : String} {r : ActionRef}
    (hsplit : linesOf l.text = qs ++ q :: qs') (hpin : pinOfLine keep file q = some r) : qs ≠ [] := by
  rintro rfl
  obtain ⟨more, hmore⟩ := linesOf_eq_firstPart l.text
  rw [hmore, List.nil_append] at hsplit
  obtain rfl := (List.cons.inj hsplit).1
  rcases addedTo_sourceLines hl with ⟨path, content, rfl⟩ | ⟨-, htext⟩
  · cases hnone
  · rw [pinOfLine_firstPart htext] at hpin
    cases hpin

theorem seesPins_iff : SeesPins d ↔ ReadsPins d := by
  constructor
  · intro h
    constructor
    · intro pre l hpre path hadded hpath quote slug ref hmakes hpin
      obtain ⟨content, htext⟩ := text_of_addedTo (mem_of_split hpre) hadded
      have hcomplete := h.complete pre l hpre path hadded hpath quote slug ref hmakes hpin
      rw [htext] at hmakes hcomplete ⊢
      exact (seen_iff hmakes hpath hpin).1 hcomplete
    · intro pre l hpre hnone qs q qs' hsplit _
      rw [Option.eq_none_iff_forall_ne_some, Option.eq_none_iff_forall_ne_some]
      constructor
      · intro r hr
        obtain ⟨path, hadded, -⟩ := h.actions pre l hpre r (mem_newRefs_line.2 ⟨qs, q, qs', hsplit, hr⟩)
        rw [hnone] at hadded
        cases hadded
      · intro r hr
        exact h.reusable pre l hpre r (mem_newRefs_line.2 ⟨qs, q, qs', hsplit, hr⟩) hnone
    · intro pre l hpre path hadded hpath qs q qs' hsplit
      rw [Option.eq_none_iff_forall_ne_some]
      intro r hr
      obtain ⟨path', hadded', hpath'⟩ := h.actions pre l hpre r (mem_newRefs_line.2 ⟨qs, q, qs', hsplit, hr⟩)
      obtain rfl := Option.some.inj (hadded'.symm.trans hadded)
      rw [hpath] at hpath'
      cases hpath'
  · intro h
    constructor
    · intro pre l hpre path hadded hpath quote slug ref hmakes hpin
      obtain ⟨content, htext⟩ := text_of_addedTo (mem_of_split hpre) hadded
      have hseen := h.seen pre l hpre path hadded hpath quote slug ref hmakes hpin
      rw [htext] at hmakes hseen ⊢
      exact (seen_iff hmakes hpath hpin).2 hseen
    · intro pre l hpre r hr
      obtain ⟨qs, q, qs', hsplit, hpin⟩ := mem_newRefs_line.1 hr
      cases hadded : l.addedTo with
      | none =>
        have hne := behind_break (mem_of_split hpre) hadded hsplit hpin
        rw [(h.unbroken pre l hpre hadded qs q qs' hsplit hne).1] at hpin
        cases hpin
      | some path =>
        cases hpath : startsWith path ".github/" with
        | true => exact ⟨path, rfl, hpath⟩
        | false =>
          rw [h.outside pre l hpre path hadded hpath qs q qs' hsplit] at hpin
          cases hpin
    · intro pre l hpre r hr hnone
      obtain ⟨qs, q, qs', hsplit, hpin⟩ := mem_newRefs_line.1 hr
      have hne := behind_break (mem_of_split hpre) hnone hsplit hpin
      rw [(h.unbroken pre l hpre hnone qs q qs' hsplit hne).2] at hpin
      cases hpin

/-! ### The two results as a whole -/

/-- The line has the pin in its text. -/
def HasPin (l : SourceLine) (r : ActionRef) : Prop :=
  ∃ q ∈ linesOf l.text, usesInLine q = some (r.slug.toList, r.ref.toList, r.comment.toList)

/-- The two results together have every reference that a line added under `.github/` makes, with its file, and
    nothing that is not in an added line; actions are of files under `.github/`. -/
structure ContainsPins (d : List FileDiff) : Prop where
  complete : ∀ l ∈ sourceLines d, ∀ path, l.addedTo = some path → startsWith path ".github/" = true →
    ∀ quote slug ref, MakesReference (l.text.toList.drop 1) quote slug ref →
    IsPin (String.ofList slug) (String.ofList ref) = true →
    ∃ comment, ⟨path, String.ofList slug, String.ofList ref, comment⟩ ∈
      actionRefsFromDiff (diffText (sourceLines d)) ++ reusableWorkflowShaRefsFromDiff (diffText (sourceLines d))
  actions : ∀ r ∈ actionRefsFromDiff (diffText (sourceLines d)), ∃ l ∈ sourceLines d, HasPin l r ∧
    ∃ path, l.addedTo = some path ∧ startsWith path ".github/" = true
  reusable : ∀ r ∈ reusableWorkflowShaRefsFromDiff (diffText (sourceLines d)), ∃ l ∈ sourceLines d, HasPin l r ∧
    l.addedTo ≠ none

theorem hasPin_of_mem {keep : ActionRef → Bool} {pre : List SourceLine} {l : SourceLine} {r : ActionRef}
    (h : r ∈ newRefs (fun diff => scanLines keep none (splitlines diff)) (diffText pre) (l.text ++ "\n")) :
    HasPin l r := by
  obtain ⟨qs, q, qs', hsplit, hpin⟩ := mem_newRefs_line.1 h
  exact ⟨q, by rw [hsplit]; exact List.mem_append_right _ List.mem_cons_self, (pinOfLine_eq_some.1 hpin).2.2.1⟩

/-- What is found at the first line break is found in the line. -/
theorem mem_line_of_firstPart {keep : ActionRef → Bool} {pre : List SourceLine} {l : SourceLine} {r : ActionRef}
    (h : pinOfLine keep (lastTarget (splitlines (diffText pre))) (String.ofList (firstPart l.text.toList)) = some r) :
    r ∈ newRefs (fun diff => scanLines keep none (splitlines diff)) (diffText pre) (l.text ++ "\n") := by
  obtain ⟨more, hmore⟩ := linesOf_eq_firstPart l.text
  exact mem_newRefs_line.2 ⟨[], _, more, hmore, by rw [List.append_nil]; exact h⟩

theorem SeesPins.containsPins (h : SeesPins d) : ContainsPins d := by
  constructor
  · intro l hl path hadded hpath quote slug ref hmakes hpin
    obtain ⟨pre, post, hsplit⟩ := List.append_of_mem hl
    have hpre : pre ++ [l] <+: sourceLines d := ⟨post, by rw [hsplit, List.append_assoc]; rfl⟩
    obtain ⟨comment, hmem⟩ := h.complete pre l hpre path hadded hpath quote slug ref hmakes hpin
    obtain ⟨content, htext⟩ := text_of_addedTo hl hadded
    refine ⟨comment, List.mem_append.2 ?_⟩
    rw [htext] at hmem
    rcases mem_newPins_iff.1 hmem with hpinned | hpinned
    · rw [← htext] at hpinned
      exact .inl (mem_scan_iff.2 ⟨pre, l, hpre, mem_line_of_firstPart hpinned⟩)
    · rw [← htext] at hpinned
      exact .inr (mem_scan_iff.2 ⟨pre, l, hpre, mem_line_of_firstPart hpinned⟩)
  · intro r hr
    obtain ⟨pre, l, hpre, hmem⟩ := mem_scan_iff.1 hr
    exact ⟨l, mem_of_split hpre, hasPin_of_mem hmem, h.actions pre l hpre r hmem⟩
  · intro r hr
    obtain ⟨pre, l, hpre, hmem⟩ := mem_scan_iff.1 hr
    exact ⟨l, mem_of_split hpre, hasPin_of_mem hmem, h.reusable pre l hpre r hmem⟩

end Diff

/-- **Action pins.** In a diff every line yields the pin that it adds, and no other line yields one, if and only if the
    references of added lines are plain, the scan knows their file, and no line yields a pin behind a line break within
    it or for a file that it is not added to; and then the two results are what they should be. -/
theorem pins_seen_iff (d : List FileDiff) : (SeesPins d ↔ ReadsPins d) ∧ (SeesPins d → ContainsPins d) :=
  ⟨seesPins_iff, fun h => h.containsPins⟩

/-! ### A quoted value -/

/-- A workflow gets a step with an action in quotes. -/
def quotedStep : FileDiff where
  before := ["--- a/.github/ci.yml"]
  path := some ".github/ci.yml"
  body := [.other "@@ -7,0 +8 @@", .added "- uses: \"evilcorp/backdoor@v1\""]
  before_wf := by
    unfold IsOther
    decide
  body_wf := by
    intro line hline
    rcases List.mem_pair.1 hline with rfl | rfl
    · unfold DiffLine.WellFormed IsOther
      decide
    · unfold DiffLine.WellFormed
      decide
  deleted := fun h => by cases h

/-- The action is not among the pins. -/
theorem quoted_pin_missed : ¬ ∀ d, ContainsPins d := by
  intro hclaim
  have hslug : IsSlug "evilcorp/backdoor".toList "evilcorp".toList "backdoor".toList [] :=
    ⟨rfl, by decide, by decide, forall_mem_of_all (by decide), forall_mem_of_all (by decide),
      List.forall_mem_nil _, rfl⟩
  have hlead : IsLead "- ".toList := .item .nil
  have hmakes : MakesReference "- uses: \"evilcorp/backdoor@v1\"".toList (some '"')
      "evilcorp/backdoor".toList "v1".toList := by
    refine ⟨.double, ⟨_, _, _, hslug⟩, by decide, forall_mem_of_all (by decide), forall_mem_of_all (by decide),
      "- ".toList, [' '], [], rfl, hlead, by decide, forall_mem_of_all (by decide), [], [], rfl,
      List.forall_mem_nil _, .inl rfl⟩
  have hline : (⟨"+- uses: \"evilcorp/backdoor@v1\"", some ".github/ci.yml"⟩ : SourceLine) ∈
      sourceLines [quotedStep] := by decide
  obtain ⟨comment, hmem⟩ := (hclaim [quotedStep]).complete _ hline _ rfl (by decide) _ _ _ hmakes (by decide)
  have hnone : actionRefsFromDiff (diffText (sourceLines [quotedStep])) ++
      reusableWorkflowShaRefsFromDiff (diffText (sourceLines [quotedStep])) = [] := by decide +kernel
  rw [hnone] at hmem
  cases hmem

end Stages
end RobotsixMill
