import Mathlib.Data.List.Basic

/-!
# `Lib.Glob` — shell patterns

Patterns in the manner of `fnmatch`: `*` is any text, `?` any character, `[seq]` a character of a set and
`[!seq]` one that is not in it. In a set `a-z` is a range, one that runs backwards has nothing in it, and a
`[` that is never closed stands for itself.

- `parseGlob` — a pattern, as a list of pieces;
- `Matches` — what a list of pieces matches, said without an algorithm;
- `fnmatch`, `fnmatch_iff` — the match, and that it is that.
-/

namespace RobotsixMill
namespace Lib

/-- A set of characters, or what is not in it. -/
structure CharSet where
  negated : Bool := false
  chars : List Char := []
  ranges : List (Char × Char) := []
deriving DecidableEq, Repr

def CharSet.contains (s : CharSet) (c : Char) : Bool :=
  (decide (c ∈ s.chars) || s.ranges.any fun r => decide (r.1 ≤ c) && decide (c ≤ r.2)) != s.negated

/-- A piece of a pattern. -/
inductive GlobPiece
  | star
  | any
  | char (c : Char)
  | set (s : CharSet)
deriving DecidableEq, Repr

/-- A piece that stands for one character, and whether it is this one. -/
def GlobPiece.accepts (c : Char) : GlobPiece → Bool
  | .star => false
  | .any => true
  | .char d => decide (c = d)
  | .set s => s.contains c

/-! ## Reading a pattern -/

/-- What stands in brackets, cut at the hyphens that make ranges: before the first there are at least `n`
    characters, between two at least two. -/
def rangeChunks (n : Nat) (chunk : List Char) : List Char → List (List Char)
  | [] => [chunk]
  | c :: cs =>
    if c = '-' ∧ n ≤ chunk.length then chunk :: rangeChunks 2 [] cs
    else rangeChunks n (chunk ++ [c]) cs

/-- A hyphen that comes last stands for itself. -/
def closeChunks : List (List Char) → List (List Char)
  | [chunk, []] => [chunk ++ ['-']]
  | chunk :: chunks => chunk :: closeChunks chunks
  | [] => []

/-- Ranges that run backwards, left out. -/
def mergeChunks : List (List Char) → List (List Char)
  | [] => []
  | chunk :: chunks =>
    match mergeChunks chunks with
    | [] => [chunk]
    | next :: rest =>
      match chunk.getLast?, next.head? with
      | some lo, some hi =>
        if hi < lo then (chunk.dropLast ++ next.tail) :: rest else chunk :: next :: rest
      | _, _ => chunk :: next :: rest

/-- From the last character of a chunk to the first of the next. -/
def chunkRanges : List (List Char) → List (Char × Char)
  | chunk :: next :: chunks =>
    ((chunk.getLast?.bind fun lo => next.head?.map fun hi => (lo, hi)).toList) ++ chunkRanges (next :: chunks)
  | _ => []

/-- The set that stands in brackets. -/
def parseSet (stuff : List Char) : CharSet :=
  let negated := decide (stuff.head? = some '!')
  let chunks := mergeChunks (closeChunks (rangeChunks (if negated then 2 else 1) [] stuff))
  { negated
    chars := if negated then chunks.flatten.tail else chunks.flatten
    ranges := chunkRanges chunks }

/-- What stands before the closing bracket, and what comes after it. A bracket that comes first, or right
    after `!`, does not close. -/
def closeBracket (cs : List Char) : Option (List Char × List Char) :=
  let bang := if cs.head? = some '!' then ['!'] else []
  let cs := cs.drop bang.length
  let first := if cs.head? = some ']' then [']'] else []
  let body := (cs.drop first.length).span (· ≠ ']')
  match body.2 with
  | [] => none
  | _ :: rest => some (bang ++ first ++ body.1, rest)

/-- A pattern of at most `n` characters. -/
def parseGlob : Nat → List Char → List GlobPiece
  | 0, _ => []
  | _ + 1, [] => []
  | n + 1, c :: cs =>
    if c = '*' then .star :: parseGlob n cs
    else if c = '?' then .any :: parseGlob n cs
    else if c = '[' then
      match closeBracket cs with
      | none => .char '[' :: parseGlob n cs
      | some (stuff, rest) => .set (parseSet stuff) :: parseGlob n rest
    else .char c :: parseGlob n cs

/-! ## Matching -/

/-- What a list of pieces matches. -/
inductive Matches : List GlobPiece → List Char → Prop
  | nil : Matches [] []
  | star {ps : List GlobPiece} {cs : List Char} (skipped : List Char) (h : Matches ps cs) :
      Matches (.star :: ps) (skipped ++ cs)
  | one {p : GlobPiece} {ps : List GlobPiece} {c : Char} {cs : List Char} (hp : p.accepts c = true)
      (h : Matches ps cs) : Matches (p :: ps) (c :: cs)

/-- Whether some rest of the text, itself included, passes. -/
def anyRest (test : List Char → Bool) : List Char → Bool
  | [] => test []
  | c :: cs => test (c :: cs) || anyRest test cs

def matchGlob : List GlobPiece → List Char → Bool
  | [], cs => cs.isEmpty
  | .star :: ps, cs => anyRest (matchGlob ps) cs
  | _ :: _, [] => false
  | p :: ps, c :: cs => p.accepts c && matchGlob ps cs

/-- `fnmatch.fnmatch`. -/
def fnmatch (name pat : String) : Bool := matchGlob (parseGlob pat.length pat.toList) name.toList

theorem anyRest_iff {test : List Char → Bool} {cs : List Char} :
    anyRest test cs = true ↔ ∃ skipped rest, cs = skipped ++ rest ∧ test rest = true := by
  induction cs with
  | nil =>
      constructor
      · intro h
        exact ⟨[], [], rfl, h⟩
      · rintro ⟨skipped, rest, hcs, h⟩
        rw [(List.append_eq_nil_iff.1 hcs.symm).2] at h
        exact h
  | cons c cs ih =>
      rw [anyRest, Bool.or_eq_true, ih]
      constructor
      · rintro (h | ⟨skipped, rest, rfl, h⟩)
        · exact ⟨[], c :: cs, rfl, h⟩
        · exact ⟨c :: skipped, rest, rfl, h⟩
      · rintro ⟨skipped, rest, hcs, h⟩
        cases skipped with
        | nil =>
            rw [List.nil_append] at hcs
            exact .inl (hcs ▸ h)
        | cons d skipped =>
            rw [List.cons_append, List.cons.injEq] at hcs
            exact .inr ⟨skipped, rest, hcs.2, h⟩

theorem matchGlob_iff {ps : List GlobPiece} {cs : List Char} : matchGlob ps cs = true ↔ Matches ps cs := by
  induction ps generalizing cs with
  | nil =>
      rw [matchGlob, List.isEmpty_iff]
      constructor
      · rintro rfl
        exact .nil
      · intro h
        cases h
        rfl
  | cons p ps ih =>
      -- a star takes any text, any other piece one character
      by_cases hp : p = .star
      · subst hp
        rw [matchGlob, anyRest_iff]
        constructor
        · rintro ⟨skipped, rest, rfl, h⟩
          exact .star skipped (ih.1 h)
        · intro h
          cases h with
          | star skipped h => exact ⟨skipped, _, rfl, ih.2 h⟩
          | one hp h => cases hp
      · cases cs with
        | nil =>
            rw [matchGlob.eq_3 _ _ hp]
            constructor
            · intro h
              cases h
            · intro h
              generalize hcs : ([] : List Char) = cs at h
              cases h with
              | star skipped h => exact absurd rfl hp
              | one hp h => cases hcs
        | cons c cs =>
            rw [matchGlob.eq_4 _ _ _ _ hp, Bool.and_eq_true, ih]
            constructor
            · rintro ⟨hc, h⟩
              exact .one hc h
            · intro h
              generalize hcs : c :: cs = all at h
              cases h with
              | star skipped h => exact absurd rfl hp
              | one hc h =>
                  obtain ⟨rfl, rfl⟩ := List.cons.inj hcs
                  exact ⟨hc, h⟩

/-- **`fnmatch` is the match.** -/
theorem fnmatch_iff {name pat : String} :
    fnmatch name pat = true ↔ Matches (parseGlob pat.length pat.toList) name.toList := matchGlob_iff

example : fnmatch ".github/workflows/ci.yml" ".github/workflows/**" = true ∧ fnmatch "b.txt" "[!a-c]*" = false ∧
    fnmatch "x-y" "x[+-]y" = true ∧ fnmatch "a[b" "a[b" = true := by decide +kernel

end Lib
end RobotsixMill
