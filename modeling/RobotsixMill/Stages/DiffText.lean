import RobotsixMill.Stages.ActionRefs

/-!
# `Stages.DiffText` — the text of a diff, scanned for pins

What `git diff` prints of a change is a text that the scans of `Stages.ActionRefs` take apart again: the sections of
the files, and in each the lines, of which the added ones start with `+`.

- `FileDiff`, `sourceLines`, `diffText` — a diff, its lines and its text;
- `newRefs` — what a scan finds in one line; `mem_scan_iff` — all that it finds is found so;
- `linesOf_eq_firstPart` — a line is scanned as several if there is a line break within it that is not git's.
-/

namespace RobotsixMill
namespace Stages
open Lib

/-! ## Diffs -/

/-- A character of a file name as git quotes it. -/
def quotedChar (c : Char) : List Char :=
  if c = '"' then ['\\', '"']
  else if c = '\\' then ['\\', '\\']
  else if c = '\t' then ['\\', 't']
  else if c = '\n' then ['\\', 'n']
  else if c = '\r' then ['\\', 'r']
  else if c.toNat = 7 then ['\\', 'a']
  else if c.toNat = 8 then ['\\', 'b']
  else if c.toNat = 11 then ['\\', 'v']
  else if c.toNat = 12 then ['\\', 'f']
  else if 32 ≤ c.toNat ∧ c.toNat < 127 then [c]
  else (String.utf8EncodeChar c).flatMap fun b =>
    ['\\', Nat.digitChar (b.toNat / 64), Nat.digitChar (b.toNat / 8 % 8), Nat.digitChar (b.toNat % 8)]

/-- What stands behind `+++ `: a name with characters of other alphabets is quoted, one with a blank has a tab behind
    it, and a deleted file has none. -/
def shownTarget : Option String → String
  | none => "/dev/null"
  | some path =>
    if path.toList.any fun c => quotedChar c != [c] then
      "\"b/" ++ String.ofList (path.toList.flatMap quotedChar) ++ "\""
    else "b/" ++ path ++ if ' ' ∈ path.toList then "\t" else ""

/-- A line of a section: of the file before or after, or none of the file, such as a heading. -/
inductive DiffLine
  | context (content : String)
  | removed (content : String)
  | added (content : String)
  | other (text : String)
deriving DecidableEq, Repr

/-- A line that git adds to those of the files. -/
def IsOther (text : String) : Prop := startsWith text "+" = false ∧ '\n' ∉ text.toList

def DiffLine.WellFormed : DiffLine → Prop
  | .context content | .removed content | .added content => '\n' ∉ content.toList
  | .other text => IsOther text

/-- The section of a file. -/
structure FileDiff where
  /-- `diff --git`, the extended header and the `---` line. -/
  before : List String
  /-- The name of the file, if it is not deleted. -/
  path : Option String
  body : List DiffLine
  before_wf : ∀ text ∈ before, IsOther text
  body_wf : ∀ line ∈ body, line.WellFormed
  deleted : path = none → ∀ content, DiffLine.added content ∉ body

/-- A line of the text, and the file that it is added to. -/
structure SourceLine where
  text : String
  addedTo : Option String := none
deriving DecidableEq, Repr

def DiffLine.source (path : Option String) : DiffLine → SourceLine
  | .context content => { text := " " ++ content }
  | .removed content => { text := "-" ++ content }
  | .added content => { text := "+" ++ content, addedTo := path }
  | .other text => { text }

def FileDiff.sourceLines (f : FileDiff) : List SourceLine :=
  f.before.map (fun text => ⟨text, none⟩) ++
    { text := "+++ " ++ shownTarget f.path } :: f.body.map (DiffLine.source f.path)

/-- The lines of a diff. -/
def sourceLines (d : List FileDiff) : List SourceLine := d.flatMap FileDiff.sourceLines

/-- The text of lines. -/
def diffText : List SourceLine → String
  | [] => ""
  | l :: ls => l.text ++ "\n" ++ diffText ls

/-- Which of the lines start with a single `+`: those that are added. -/
theorem addedTo_sourceLines {d : List FileDiff} {l : SourceLine} (h : l ∈ sourceLines d) :
    (∃ path content, l = ⟨"+" ++ content, some path⟩) ∨
      l.addedTo = none ∧ (startsWith l.text "+" = false ∨ ∃ rest, l.text = "+++ " ++ rest) := by
  obtain ⟨f, -, hf⟩ := List.mem_flatMap.1 h
  unfold FileDiff.sourceLines at hf
  rcases List.mem_append.1 hf with hbefore | hrest
  · obtain ⟨text, ht, rfl⟩ := List.mem_map.1 hbefore
    exact .inr ⟨rfl, .inl (f.before_wf text ht).1⟩
  · rcases List.mem_cons.1 hrest with rfl | hbody
    · exact .inr ⟨rfl, .inr ⟨_, rfl⟩⟩
    · obtain ⟨line, hline, rfl⟩ := List.mem_map.1 hbody
      cases line with
      | context content =>
        exact .inr ⟨rfl, .inl (startsWith_of_key (startsWith_key " " content) (by decide) (by decide))⟩
      | removed content =>
        exact .inr ⟨rfl, .inl (startsWith_of_key (startsWith_key "-" content) (by decide) (by decide))⟩
      | added content =>
        cases hpath : f.path with
        | none => exact absurd hline (f.deleted hpath content)
        | some path => exact .inl ⟨path, content, rfl⟩
      | other text => exact .inr ⟨rfl, .inl (f.body_wf _ hline).1⟩

/-! ## The scans, line by line -/

/-- What a scan finds in a text that it has not found before the text comes to `text`. -/
def newRefs (refs : String → List ActionRef) (before text : String) : List ActionRef :=
  (refs (before ++ text)).drop (refs before).length

/-- The text up to the first line break, of whatever kind. -/
def firstPart (cs : List Char) : List Char := cs.takeWhile fun c => !isLineBreak c

section Lines

variable {keep : ActionRef → Bool}

theorem splitlines_diffText (ls : List SourceLine) (text : String) :
    splitlines (diffText ls ++ text) = splitlines (diffText ls) ++ splitlines text := by
  induction ls with
  | nil =>
    rw [diffText, String.empty_append]
    rfl
  | cons l ls ih =>
    rw [diffText, splitlines_newline, List.append_assoc, ← ih, String.append_assoc, splitlines_newline]

theorem newRefs_scan (ls : List SourceLine) (text : String) :
    newRefs (fun diff => scanLines keep none (splitlines diff)) (diffText ls) text =
      scanLines keep (lastTarget (splitlines (diffText ls))) (splitlines text) := by
  unfold newRefs
  dsimp only
  rw [splitlines_diffText, scanLines_append, foldl_nextFile, List.drop_left]

theorem mem_newRefs_iff {ls : List SourceLine} {text : String} {r : ActionRef} :
    r ∈ newRefs (fun diff => scanLines keep none (splitlines diff)) (diffText ls) text ↔
      ∃ qs q qs', splitlines text = qs ++ q :: qs' ∧
        pinOfLine keep (lastTarget (splitlines (diffText ls) ++ qs)) q = some r := by
  rw [newRefs_scan]
  exact mem_scanLines_iff

theorem diffText_snoc (ls : List SourceLine) (l : SourceLine) :
    diffText (ls ++ [l]) = diffText ls ++ (l.text ++ "\n") := by
  induction ls with
  | nil => rw [List.nil_append, diffText, diffText, diffText, String.empty_append, String.append_empty]
  | cons l' ls ih => rw [List.cons_append, diffText, ih, diffText, ← String.append_assoc]

/-- What is found in a text is found in one of its lines. -/
theorem mem_scan_iff {ls : List SourceLine} {r : ActionRef} :
    r ∈ scanLines keep none (splitlines (diffText ls)) ↔ ∃ pre l, pre ++ [l] <+: ls ∧
      r ∈ newRefs (fun diff => scanLines keep none (splitlines diff)) (diffText pre) (l.text ++ "\n") := by
  induction ls using List.reverseRecOn with
  | nil =>
    refine iff_of_false (fun h => by cases h) ?_
    rintro ⟨pre, l, hpre, -⟩
    exact absurd (List.prefix_nil.1 hpre) (by simp)
  | append_singleton ls l ih =>
    rw [diffText_snoc, splitlines_diffText, scanLines_append, foldl_nextFile, List.mem_append, ih, ← newRefs_scan]
    constructor
    · rintro (⟨pre, l', hpre, hr⟩ | hr)
      · exact ⟨pre, l', hpre.trans (List.prefix_append ls [l]), hr⟩
      · exact ⟨ls, l, List.prefix_rfl, hr⟩
    · rintro ⟨pre, l', hpre, hr⟩
      rcases List.prefix_concat_iff.1 hpre with heq | hpre
      · obtain ⟨rfl, hl⟩ := List.append_inj' heq rfl
        obtain rfl := (List.cons.inj hl).1
        exact .inr hr
      · exact .inl ⟨pre, l', hpre, hr⟩

theorem splitlinesGo_of_break {c : Char} (hc : isLineBreak c = true) (cur cs : List Char) :
    ∃ more, splitlinesGo cur (c :: cs) = cur.reverse :: more := by
  by_cases hcr : ∃ ds, c = '\r' ∧ cs = '\n' :: ds
  · obtain ⟨ds, rfl, rfl⟩ := hcr
    exact ⟨_, rfl⟩
  · rw [splitlinesGo.eq_3 _ _ _ fun ds hcr' hds => hcr ⟨ds, hcr', hds⟩, if_pos hc]
    exact ⟨_, rfl⟩

/-- A line of the text begins with its first part. -/
theorem linesOf_eq_firstPart (text : String) :
    ∃ more, linesOf text = String.ofList (firstPart text.toList) :: more := by
  have hgo : ∀ cs cur : List Char,
      ∃ more, splitlinesGo cur (cs ++ ['\n']) = (cur.reverse ++ firstPart cs) :: more := by
    intro cs
    induction cs with
    | nil =>
      intro cur
      obtain ⟨more, hmore⟩ := splitlinesGo_of_break (show isLineBreak '\n' = true by decide) cur []
      exact ⟨more, by rw [List.nil_append, hmore, firstPart, List.takeWhile_nil, List.append_nil]⟩
    | cons c cs ih =>
      intro cur
      cases hc : isLineBreak c with
      | true =>
        obtain ⟨more, hmore⟩ := splitlinesGo_of_break hc cur (cs ++ ['\n'])
        refine ⟨more, ?_⟩
        rw [List.cons_append, hmore, firstPart, List.takeWhile_cons_of_neg (by rw [hc]; decide), List.append_nil]
      | false =>
        obtain ⟨more, hmore⟩ := ih (c :: cur)
        refine ⟨more, ?_⟩
        rw [List.cons_append, splitlinesGo.eq_3 _ _ _ fun ds hcr => by rw [hcr] at hc; exact absurd hc (by decide),
          hc, if_neg Bool.false_ne_true, hmore, firstPart, firstPart,
          List.takeWhile_cons_of_pos (by rw [hc]; decide), List.reverse_cons, List.append_assoc]
        rfl
  obtain ⟨more, hmore⟩ := hgo text.toList []
  refine ⟨more.map String.ofList, ?_⟩
  unfold linesOf splitlines
  rw [String.toList_append]
  show (splitlinesGo [] (text.toList ++ ['\n'])).map String.ofList = _
  rw [hmore]
  rfl

theorem firstPart_append {as : List Char} (h : ∀ c ∈ as, isLineBreak c = false) (bs : List Char) :
    firstPart (as ++ bs) = as ++ firstPart bs := by
  unfold firstPart
  exact List.takeWhile_append_of_pos fun c hc => by rw [h c hc]; rfl

/-- The part itself is one line. -/
theorem splitlines_firstPart {text : String} (h : firstPart text.toList ≠ []) :
    splitlines (String.ofList (firstPart text.toList)) = [String.ofList (firstPart text.toList)] := by
  unfold splitlines
  have hgo : splitlinesGo [] (firstPart text.toList) = [[].reverse ++ firstPart text.toList] := by
    refine splitlinesGo_of_no_break (fun c hc => ?_) [] h
    have hbreak := List.mem_takeWhile_imp hc
    rwa [Bool.not_eq_true'] at hbreak
  rw [String.toList_ofList, hgo]
  rfl

/-- What a pin says of the line that it comes from. -/
theorem pinOfLine_eq_some {file : Option String} {line : String} {r : ActionRef} :
    pinOfLine keep file line = some r ↔ isTargetLine line = false ∧ file = some r.file ∧
      usesInLine line = some (r.slug.toList, r.ref.toList, r.comment.toList) ∧ keep r = true := by
  unfold pinOfLine
  cases isTargetLine line with
  | true => simp
  | false =>
    rw [if_neg Bool.false_ne_true]
    cases file with
    | none => simp
    | some path =>
      cases usesInLine line with
      | none => simp
      | some found =>
        obtain ⟨slug, ref, comment⟩ := found
        dsimp only
        constructor
        · intro h
          split at h
          · rename_i hkeep
            obtain rfl := Option.some.inj h
            simpa using hkeep
          · cases h
        · rintro ⟨-, hfile, hfound, hkeep⟩
          obtain rfl := Option.some.inj hfile
          have hfound := Option.some.inj hfound
          obtain ⟨rfl, hrest⟩ := Prod.mk.inj hfound
          obtain ⟨rfl, rfl⟩ := Prod.mk.inj hrest
          simp only [String.ofList_toList]
          exact if_pos hkeep

/-- A line that no file gets a line by yields nothing at its beginning. -/
theorem pinOfLine_firstPart {file : Option String} {l : SourceLine}
    (h : startsWith l.text "+" = false ∨ ∃ rest, l.text = "+++ " ++ rest) :
    pinOfLine keep file (String.ofList (firstPart l.text.toList)) = none := by
  have hnone : usesInLine (String.ofList (firstPart l.text.toList)) = none := by
    have hlist : (String.ofList (firstPart l.text.toList)).toList = firstPart l.text.toList := String.toList_ofList
    unfold usesInLine
    apply if_pos
    rcases h with hplus | ⟨rest, hrest⟩
    · have hfirst : startsWith (String.ofList (firstPart l.text.toList)) "+" = false := by
        rw [Bool.eq_false_iff] at hplus ⊢
        intro hstarts
        apply hplus
        unfold startsWith at hstarts ⊢
        rw [hlist] at hstarts
        exact List.isPrefixOf_iff_prefix.2
          ((List.isPrefixOf_iff_prefix.1 hstarts).trans (List.takeWhile_prefix _))
      rw [hfirst]
      rfl
    · have hfirst : startsWith (String.ofList (firstPart l.text.toList)) "+++" = true := by
        have hpart : firstPart l.text.toList = "+++ ".toList ++ firstPart rest.toList := by
          rw [hrest, String.toList_append]
          exact firstPart_append (forall_mem_of_all (by decide)) _
        unfold startsWith
        rw [hlist, hpart]
        rfl
      rw [hfirst, Bool.or_true]
  rw [Option.eq_none_iff_forall_ne_some]
  intro r hr
  rw [(pinOfLine_eq_some.1 hr).2.2.1] at hnone
  cases hnone

end Lines

end Stages
end RobotsixMill
