import Mathlib.Data.List.Induction
import RobotsixMill.Lib.TextLines
import RobotsixMill.Stages.ReviewPins

/-!
# `Stages.ActionRefs` — the `uses:` lines of a diff

The review stage reads the actions that a diff pins off its text, line by line: a `+++ b/` line names the file, and in
the other lines that start with `+` it searches for `uses:` and a reference.

- `usesAt`, `usesSearch` — `_ACTION_USES_RE`, at one place and in a line;
- `actionRefsFromDiff`, `reusableWorkflowShaRefsFromDiff` — the two scans, which differ in what they keep;
- `usesSearch_plain`, `usesSearch_quoted` — what is found in a line whose key is `uses`;
- `mem_scanLines_iff` — where in the text a pin comes from.
-/

namespace RobotsixMill
namespace Stages
open Lib

/-! ## The pattern -/

/-- `[a-zA-Z0-9_.-]`. -/
def isNameChar (c : Char) : Bool := isAsciiAlnum c || c == '_' || c == '.' || c == '-'

/-- `[^@#\s]`, a character of the path in the repository. -/
def isPathChar (c : Char) : Bool := c != '@' && c != '#' && !isPySpace c

/-- `(?:/[^@#\s/]+)*`, of all that stands before the `@`. -/
def isSubpath (path : List Char) : Bool :=
  match splitChar '/' path with
  | [] => true
  | first :: segments => first.isEmpty && segments.all fun segment => !segment.isEmpty

/-- `(?:\s*#\s*(.*))?`, stripped. -/
def usesComment (cs : List Char) : List Char :=
  match cs.dropWhile isPySpace with
  | '#' :: comment => stripChars comment
  | _ => []

/-- `_ACTION_USES_RE` behind its `uses:`. No part of it can end where the next one could not begin, so each takes all
    that it can. -/
def usesAt (cs : List Char) : Option (List Char × List Char × List Char) :=
  let value := cs.dropWhile isPySpace
  let owner := value.takeWhile isNameChar
  match value.dropWhile isNameChar with
  | '/' :: afterOwner =>
    let repo := afterOwner.takeWhile isNameChar
    let afterRepo := afterOwner.dropWhile isNameChar
    let path := afterRepo.takeWhile isPathChar
    match afterRepo.dropWhile isPathChar with
    | '@' :: afterAt =>
      let ref := afterAt.takeWhile fun c => !isPySpace c
      if owner ≠ [] ∧ repo ≠ [] ∧ isSubpath path = true ∧ ref ≠ [] then
        some (owner ++ '/' :: (repo ++ path), ref, usesComment (afterAt.dropWhile fun c => !isPySpace c))
      else none
    | _ => none
  | _ => none

/-- `_ACTION_USES_RE.search`. -/
def usesSearch : List Char → Option (List Char × List Char × List Char)
  | [] => none
  | c :: cs =>
    if "uses:".toList.isPrefixOf (c :: cs) then
      match usesAt ((c :: cs).drop 5) with
      | some found => some found
      | none => usesSearch cs
    else usesSearch cs

/-! ## The scan -/

/-- The line is read as the header of a file. -/
def isTargetLine (line : String) : Bool := startsWith line "+++ b/" && !startsWith line "+++ b/dev/null"

/-- `current_file`, of such a line. -/
def targetName (line : String) : String := strip (String.ofList (line.toList.drop 6))

/-- The reference in a line that starts with `+`, if it is no header. -/
def usesInLine (line : String) : Option (List Char × List Char × List Char) :=
  if !startsWith line "+" || startsWith line "+++" then none else usesSearch line.toList

/-- `current_file` after a line. -/
def nextFile (file : Option String) (line : String) : Option String :=
  if isTargetLine line then some (targetName line) else file

/-- The pin that a line yields. -/
def pinOfLine (keep : ActionRef → Bool) (file : Option String) (line : String) : Option ActionRef :=
  if isTargetLine line then none
  else
    match file, usesInLine line with
    | some path, some (slug, ref, comment) =>
      let r : ActionRef := ⟨path, String.ofList slug, String.ofList ref, String.ofList comment⟩
      if keep r then some r else none
    | _, _ => none

/-- The loop over the lines. -/
def scanLines (keep : ActionRef → Bool) : Option String → List String → List ActionRef
  | _, [] => []
  | file, line :: lines => (pinOfLine keep file line).toList ++ scanLines keep (nextFile file line) lines

/-- The reference is to a reusable workflow, or to an action beside one. -/
def isReusable (slug : String) : Bool := contains slug "/.github/workflows/" || contains slug "/.github/actions/"

/-- What `_action_refs_from_diff` keeps. -/
def keepsAction (r : ActionRef) : Bool :=
  startsWith r.file ".github/" && !startsWith r.slug "./" && !startsWith r.slug "docker://" && !isReusable r.slug

/-- What `_reusable_workflow_sha_refs_from_diff` keeps. -/
def keepsReusableSha (r : ActionRef) : Bool := isReusable r.slug && isSha r.ref

/-- `_action_refs_from_diff`. -/
def actionRefsFromDiff (diff : String) : List ActionRef := scanLines keepsAction none (splitlines diff)

/-- `_reusable_workflow_sha_refs_from_diff`. -/
def reusableWorkflowShaRefsFromDiff (diff : String) : List ActionRef :=
  scanLines keepsReusableSha none (splitlines diff)

example : (actionRefsFromDiff
    "+++ b/.github/workflows/ci.yml\n-    uses: evilcorp/backdoor@v1\n+    uses: actions/checkout@v4 # latest\n") =
    [⟨".github/workflows/ci.yml", "actions/checkout", "v4", "latest"⟩] := by decide +kernel

/-! ## What the pattern finds -/

section Pattern

theorem usesSearch_skip {c : Char} (hc : c ≠ 'u') (cs : List Char) : usesSearch (c :: cs) = usesSearch cs := by
  have hnot : "uses:".toList.isPrefixOf (c :: cs) = false := by
    show ('u' == c && _) = false
    rw [beq_eq_false_iff_ne.2 hc.symm, Bool.false_and]
  rw [usesSearch, hnot, if_neg Bool.false_ne_true]

theorem usesSearch_append {as : List Char} (h : ∀ c ∈ as, c ≠ 'u') (cs : List Char) :
    usesSearch (as ++ cs) = usesSearch cs := by
  induction as with
  | nil => rfl
  | cons a as ih =>
    rw [List.cons_append, usesSearch_skip (h a List.mem_cons_self)]
    exact ih fun c hc => h c (List.mem_cons_of_mem a hc)

/-- A stretch ends where its next character does not belong to it. -/
theorem takeWhile_append_of_stop {p : Char → Bool} {as : List Char} (bs : List Char) (h : ∀ c ∈ as, p c = true)
    (hstop : ∀ c ∈ bs.head?, p c = false) : (as ++ bs).takeWhile p = as ∧ (as ++ bs).dropWhile p = bs := by
  rw [List.takeWhile_append_of_pos h, List.dropWhile_append_of_pos h]
  cases bs with
  | nil => exact ⟨List.append_nil as, rfl⟩
  | cons b bs =>
    have hb := hstop b rfl
    rw [List.takeWhile_cons_of_neg (by rw [hb]; exact Bool.false_ne_true),
      List.dropWhile_cons_of_neg (by rw [hb]; exact Bool.false_ne_true)]
    exact ⟨List.append_nil as, rfl⟩

theorem isPySpace_of_isNameChar {c : Char} (h : isNameChar c = true) : isPySpace c = false := by
  have hrange : 45 ≤ c.toNat ∧ c.toNat ≤ 122 := by
    have hle : ∀ a b : Char, a ≤ b ↔ a.toNat ≤ b.toNat := fun a b => UInt32.le_iff_toNat_le
    simp only [isNameChar, isAsciiAlnum, Bool.or_eq_true, Bool.and_eq_true, decide_eq_true_eq, beq_iff_eq, hle] at h
    rcases h with ((halnum | rfl) | rfl) | rfl
    · rcases halnum with (⟨hlow, hhigh⟩ | ⟨hlow, hhigh⟩) | ⟨hlow, hhigh⟩
      all_goals exact ⟨Nat.le_trans (by decide) hlow, Nat.le_trans hhigh (by decide)⟩
    all_goals decide
  simp only [isPySpace, Bool.or_eq_false_iff, Bool.and_eq_false_iff, decide_eq_false_iff_not, beq_eq_false_iff_ne]
  omega

/-- `owner/repo`, and a path in the repository if there is one. -/
structure IsSlug (slug owner repo path : List Char) : Prop where
  eq : slug = owner ++ '/' :: (repo ++ path)
  owner_ne : owner ≠ []
  repo_ne : repo ≠ []
  owner_name : ∀ c ∈ owner, isNameChar c = true
  repo_name : ∀ c ∈ repo, isNameChar c = true
  path_char : ∀ c ∈ path, isPathChar c = true
  subpath : isSubpath path = true

theorem head_of_isSubpath {path : List Char} (h : isSubpath path = true) : ∀ c ∈ path.head?, c = '/' := by
  cases path with
  | nil => exact fun c hc => by cases hc
  | cons c path =>
    intro d hd
    obtain rfl := Option.some.inj hd
    by_contra hne
    unfold isSubpath at h
    rw [splitChar, if_neg hne] at h
    cases hrest : splitChar '/' path with
    | nil => rw [hrest] at h; cases h
    | cons field fields => rw [hrest] at h; cases h

/-- **Behind `uses:`**, a reference is found as it stands. -/
theorem usesAt_reference {slug owner repo path gap ref tail : List Char} (h : IsSlug slug owner repo path)
    (hgap : ∀ c ∈ gap, isPySpace c = true) (hne : ref ≠ []) (href : ∀ c ∈ ref, isPySpace c = false)
    (htail : ∀ c ∈ tail.head?, isPySpace c = true) :
    usesAt (gap ++ (slug ++ '@' :: (ref ++ tail))) = some (slug, ref, usesComment tail) := by
  have hvalue : (gap ++ (slug ++ '@' :: (ref ++ tail))).dropWhile isPySpace = slug ++ '@' :: (ref ++ tail) := by
    refine (takeWhile_append_of_stop _ hgap fun c hc => ?_).2
    rw [h.eq] at hc
    cases howner : owner with
    | nil => exact absurd howner h.owner_ne
    | cons o os =>
      rw [howner] at hc
      obtain rfl := Option.some.inj hc
      exact isPySpace_of_isNameChar (h.owner_name o (by rw [howner]; exact List.mem_cons_self))
  have hsplit : slug ++ '@' :: (ref ++ tail) = owner ++ ('/' :: (repo ++ (path ++ '@' :: (ref ++ tail)))) := by
    rw [h.eq]
    simp only [List.append_assoc, List.cons_append]
  have howner := takeWhile_append_of_stop ('/' :: (repo ++ (path ++ '@' :: (ref ++ tail)))) h.owner_name
    fun c hc => by obtain rfl := Option.some.inj hc; rfl
  have hrepo := takeWhile_append_of_stop (path ++ '@' :: (ref ++ tail)) h.repo_name fun c hc => by
    cases hpath : path with
    | nil =>
      rw [hpath] at hc
      obtain rfl := Option.some.inj hc
      rfl
    | cons d ds =>
      have hslash := head_of_isSubpath h.subpath d (by rw [hpath]; rfl)
      rw [hpath] at hc
      obtain rfl := Option.some.inj hc
      rw [hslash]
      rfl
  have hpath := takeWhile_append_of_stop ('@' :: (ref ++ tail)) h.path_char fun c hc => by
    obtain rfl := Option.some.inj hc
    rfl
  have href' := takeWhile_append_of_stop (p := fun c => !isPySpace c) tail
    (fun c hc => by rw [href c hc]; rfl) fun c hc => by rw [htail c hc]; rfl
  unfold usesAt
  rw [hvalue, hsplit]
  simp only [howner.1, howner.2, hrepo.1, hrepo.2, hpath.1, hpath.2, href'.1, href'.2]
  rw [if_pos ⟨h.owner_ne, h.repo_ne, h.subpath, hne⟩, h.eq]

/-- Behind a quote, nothing. -/
theorem usesAt_quote {gap rest : List Char} {quote : Char} (hquote : quote = '"' ∨ quote = '\'')
    (hgap : ∀ c ∈ gap, isPySpace c = true) : usesAt (gap ++ quote :: rest) = none := by
  have hvalue : (gap ++ quote :: rest).dropWhile isPySpace = quote :: rest := by
    refine (takeWhile_append_of_stop _ hgap fun c hc => ?_).2
    obtain rfl := Option.some.inj hc
    rcases hquote with rfl | rfl <;> rfl
  have hname : (quote :: rest).dropWhile isNameChar = quote :: rest := by
    rcases hquote with rfl | rfl <;> exact List.dropWhile_cons_of_neg (by decide)
  unfold usesAt
  rw [hvalue]
  dsimp only
  rw [hname]
  rcases hquote with rfl | rfl <;> rfl

theorem usesSearch_key (cs : List Char) : usesSearch ("uses:".toList ++ cs) = (usesAt cs).or (usesSearch cs) := by
  have hkey : "uses:".toList.isPrefixOf ('u' :: ("ses:".toList ++ cs)) = true :=
    List.isPrefixOf_iff_prefix.2 (List.prefix_append "uses:".toList cs)
  have hdrop : ('u' :: ("ses:".toList ++ cs)).drop 5 = cs := rfl
  show usesSearch ('u' :: ("ses:".toList ++ cs)) = _
  rw [usesSearch, if_pos hkey, hdrop, usesSearch_append (forall_mem_of_all (by decide))]
  cases usesAt cs <;> rfl

/-- **The pattern sees plain values.** -/
theorem usesSearch_plain {lead gap slug owner repo path ref tail : List Char} (hlead : ∀ c ∈ lead, c ≠ 'u')
    (h : IsSlug slug owner repo path) (hgap : ∀ c ∈ gap, isPySpace c = true) (hne : ref ≠ [])
    (href : ∀ c ∈ ref, isPySpace c = false) (htail : ∀ c ∈ tail.head?, isPySpace c = true) :
    usesSearch (lead ++ ("uses:".toList ++ (gap ++ (slug ++ '@' :: (ref ++ tail))))) =
      some (slug, ref, usesComment tail) := by
  rw [usesSearch_append hlead, usesSearch_key, usesAt_reference h hgap hne href htail]
  rfl

/-- **The pattern does not see quoted values**: it goes on behind the quote. -/
theorem usesSearch_quoted {lead gap rest : List Char} {quote : Char} (hlead : ∀ c ∈ lead, c ≠ 'u')
    (hquote : quote = '"' ∨ quote = '\'') (hgap : ∀ c ∈ gap, isPySpace c = true) :
    usesSearch (lead ++ ("uses:".toList ++ (gap ++ quote :: rest))) = usesSearch rest := by
  have hskip : ∀ c ∈ gap, c ≠ 'u' := by
    rintro c hc rfl
    exact absurd (hgap 'u' hc) (by decide)
  rw [usesSearch_append hlead, usesSearch_key, usesAt_quote hquote hgap, Option.none_or, usesSearch_append hskip]
  apply usesSearch_skip
  rcases hquote with rfl | rfl <;> decide

end Pattern

/-! ## Where a pin comes from -/

section Scan

variable {keep : ActionRef → Bool}

theorem scanLines_append (file : Option String) (lines lines' : List String) :
    scanLines keep file (lines ++ lines') =
      scanLines keep file lines ++ scanLines keep (lines.foldl nextFile file) lines' := by
  induction lines generalizing file with
  | nil => rfl
  | cons line lines ih => rw [List.cons_append, scanLines, scanLines, ih, List.append_assoc, List.foldl_cons]

/-- The name in the last of the lines that is read as a header. -/
def lastTarget (lines : List String) : Option String := ((lines.filter isTargetLine).getLast?).map targetName

theorem foldl_nextFile (lines : List String) : lines.foldl nextFile none = lastTarget lines := by
  induction lines using List.reverseRecOn with
  | nil => rfl
  | append_singleton lines line ih =>
    unfold lastTarget at ih ⊢
    rw [List.foldl_append, List.foldl_cons, List.foldl_nil, ih, nextFile, List.filter_append]
    cases htarget : isTargetLine line with
    | true =>
      rw [if_pos rfl, List.filter_cons_of_pos htarget, List.filter_nil, List.getLast?_concat]
      rfl
    | false =>
      rw [if_neg Bool.false_ne_true, List.filter_cons_of_neg (by rw [htarget]; exact Bool.false_ne_true),
        List.filter_nil, List.append_nil]

theorem nextFile_lastTarget (lines : List String) (line : String) :
    nextFile (lastTarget lines) line = lastTarget (lines ++ [line]) := by
  rw [← foldl_nextFile, ← foldl_nextFile, List.foldl_append]
  rfl

/-- **A pin comes from one line**, with the file that the headers before it name last. -/
theorem mem_scanLines_iff {before lines : List String} {r : ActionRef} :
    r ∈ scanLines keep (lastTarget before) lines ↔
      ∃ qs q qs', lines = qs ++ q :: qs' ∧ pinOfLine keep (lastTarget (before ++ qs)) q = some r := by
  induction lines generalizing before with
  | nil =>
    constructor
    · intro h
      cases h
    · rintro ⟨qs, q, qs', h, -⟩
      exact absurd h.symm (by simp)
  | cons line lines ih =>
    rw [scanLines, List.mem_append, Option.mem_toList, nextFile_lastTarget, ih]
    constructor
    · rintro (hline | ⟨qs, q, qs', rfl, hpin⟩)
      · exact ⟨[], line, lines, rfl, by rw [List.append_nil]; exact hline⟩
      · exact ⟨line :: qs, q, qs', rfl, by rw [List.append_cons]; exact hpin⟩
    · rintro ⟨qs, q, qs', hlines, hpin⟩
      cases qs with
      | nil =>
        obtain ⟨rfl, rfl⟩ := List.cons.inj hlines
        rw [List.append_nil] at hpin
        exact .inl hpin
      | cons line' qs =>
        obtain ⟨rfl, rfl⟩ := List.cons.inj hlines
        rw [List.append_cons] at hpin
        exact .inr ⟨qs, q, qs', rfl, hpin⟩

end Scan

end Stages
end RobotsixMill
