import Mathlib.Data.List.Infix
import Mathlib.Data.List.TakeDrop

/-!
# `Lib.Occurrences` — occurrences of one list in another, and their replacement

Occurrences are found from the left and do not overlap. `pieces` is what stands between them, and `glue` puts the
pieces together again, with another list in the place of the first few occurrences. An empty list occurs before
every element and at the end.

Where an occurrence may begin can be restricted (`starts`). With a code that writes each letter as a word, whose
first symbol is marked, occurrences in the encoded list that begin at a mark are those of the list of letters.

- `pieces`, `glue`, `occurrences`, `replaced`;
- `MarkedCode` — every word begins with a mark, has no other, and is no prefix of another word;
- `MarkedCode.pieces_flatMap`, `MarkedCode.replaced_flatMap` — replacing commutes with encoding.
-/

namespace RobotsixMill
namespace Lib

section Glue

variable {α : Type*}

/-- The pieces, with `new` between the first `count` of them and `old` between the others; a negative `count` is
    every one. -/
def glue (old new : List α) : Int → List (List α) → List α
  | _, [] => []
  | _, [p] => p
  | count, p :: q :: ps =>
    if count = 0 then p ++ old ++ glue old new 0 (q :: ps) else p ++ new ++ glue old new (count - 1) (q :: ps)

/-- The pieces with the first few occurrences replaced: the first piece, and the rest. -/
theorem glue_cons (old new p : List α) (count : Int) {ps : List (List α)} (h : ps ≠ []) :
    glue old new count (p :: ps) =
      p ++ (if count = 0 then old else new) ++ glue old new (if count = 0 then 0 else count - 1) ps := by
  obtain ⟨q, ps, rfl⟩ := List.exists_cons_of_ne_nil h
  by_cases hcount : count = 0
  · rw [glue, if_pos hcount, if_pos hcount, if_pos hcount]
  · rw [glue, if_neg hcount, if_neg hcount, if_neg hcount]

theorem flatMap_glue {β : Type*} (code : α → List β) (old new : List α) (count : Int) (ps : List (List α)) :
    (glue old new count ps).flatMap code =
      glue (old.flatMap code) (new.flatMap code) count (ps.map (List.flatMap code)) := by
  induction ps generalizing count with
  | nil => rfl
  | cons p ps ih =>
    by_cases hps : ps = []
    · rw [hps]
      rfl
    · rw [glue_cons _ _ _ _ hps, List.map_cons, glue_cons _ _ _ _ (List.map_eq_nil_iff.not.2 hps),
        List.flatMap_append, List.flatMap_append, ih]
      split <;> rfl

end Glue

section Pieces

variable {α : Type*} [DecidableEq α] (starts : α → Bool) (pat : List α)

/-- `pieces` after an occurrence of which `skip` elements are still to come. -/
def piecesFrom : Nat → List α → List (List α)
  | _, [] => if pat = [] then [[], []] else [[]]
  | skip + 1, _ :: xs => piecesFrom skip xs
  | 0, x :: xs =>
    if starts x && pat.isPrefixOf (x :: xs) then
      [] :: (if pat = [] then (piecesFrom 0 xs).modifyHead (x :: ·) else piecesFrom (pat.length - 1) xs)
    else (piecesFrom 0 xs).modifyHead (x :: ·)

/-- What stands between the occurrences of `pat`. -/
def pieces (xs : List α) : List (List α) := piecesFrom starts pat 0 xs

/-- `xs.count(pat)`. -/
def occurrences (xs : List α) : Nat := (pieces starts pat xs).length - 1

/-- `xs.replace(pat, new, count)`. -/
def replaced (new : List α) (count : Int) (xs : List α) : List α := glue pat new count (pieces starts pat xs)

variable {starts pat}

/-- What is left of an occurrence is passed over. -/
theorem piecesFrom_append (ys xs : List α) : piecesFrom starts pat ys.length (ys ++ xs) = pieces starts pat xs := by
  induction ys with
  | nil => rfl
  | cons y ys ih => exact ih

/-- An occurrence that is not empty. -/
theorem pieces_match {p : α} {ps : List α} (hstarts : starts p = true) (xs : List α) :
    pieces starts (p :: ps) ((p :: ps) ++ xs) = [] :: pieces starts (p :: ps) xs := by
  have hbegins : (p :: ps).isPrefixOf (p :: (ps ++ xs)) = true :=
    List.isPrefixOf_iff_prefix.2 (List.prefix_append (p :: ps) xs)
  unfold pieces
  rw [List.cons_append, piecesFrom, hstarts, hbegins, Bool.and_true, if_pos rfl, if_neg (List.cons_ne_nil p ps),
    List.length_cons, Nat.add_sub_cancel]
  exact congrArg _ (piecesFrom_append ps xs)

/-- The empty list occurs before an element. -/
theorem pieces_empty {x : α} (hstarts : starts x = true) (xs : List α) :
    pieces starts [] (x :: xs) = [] :: (pieces starts [] xs).modifyHead (x :: ·) := by
  unfold pieces
  rw [piecesFrom, hstarts, List.isPrefixOf_nil_left, Bool.and_true, if_pos rfl, if_pos rfl]

/-- No occurrence begins here. -/
theorem pieces_cons {x : α} {xs : List α} (h : starts x = false ∨ ¬ pat <+: x :: xs) :
    pieces starts pat (x :: xs) = (pieces starts pat xs).modifyHead (x :: ·) := by
  unfold pieces
  rw [piecesFrom, if_neg]
  rw [Bool.and_eq_true, List.isPrefixOf_iff_prefix]
  rintro ⟨hstarts, hbegins⟩
  rcases h with h | h
  · rw [hstarts] at h
    cases h
  · exact h hbegins

/-- No occurrence begins in a stretch without marks. -/
theorem pieces_append {ys : List α} (h : ∀ y ∈ ys, starts y = false) (xs : List α) :
    pieces starts pat (ys ++ xs) = (pieces starts pat xs).modifyHead (ys ++ ·) := by
  induction ys with
  | nil => exact (congrFun List.modifyHead_id _).symm
  | cons y ys ih =>
    rw [List.cons_append, pieces_cons (.inl (h y List.mem_cons_self)), ih fun z hz => h z (.tail _ hz),
      List.modifyHead_modifyHead]
    rfl

end Pieces

/-! ## Codes -/

/-- Each letter is written as a word that begins with a mark and has no other, and no word is a prefix of another. -/
structure MarkedCode {α β : Type*} (code : α → List β) (starts : β → Bool) : Prop where
  shape : ∀ a, ∃ b rest, code a = b :: rest ∧ starts b = true ∧ ∀ x ∈ rest, starts x = false
  prefixFree : ∀ a a' xs ys, code a ++ xs = code a' ++ ys → a = a'

namespace MarkedCode

variable {α β : Type*} {code : α → List β} {starts : β → Bool}

theorem flatMap_eq_nil (h : MarkedCode code starts) {xs : List α} : xs.flatMap code = [] ↔ xs = [] := by
  cases xs with
  | nil => exact iff_of_true rfl rfl
  | cons a xs =>
    obtain ⟨b, rest, hcode, -, -⟩ := h.shape a
    rw [List.flatMap_cons, hcode]
    exact iff_of_false (List.cons_ne_nil _ _) (List.cons_ne_nil _ _)

/-- A prefix that is encoded text is the encoding of a prefix. -/
theorem prefix_iff (h : MarkedCode code starts) {pat xs : List α} :
    pat.flatMap code <+: xs.flatMap code ↔ pat <+: xs := by
  constructor
  · intro hbegins
    induction pat generalizing xs with
    | nil => exact List.nil_prefix
    | cons p pat ih =>
      obtain ⟨ys, hys⟩ := hbegins
      cases xs with
      | nil => exact absurd (h.flatMap_eq_nil.1 (List.append_eq_nil_iff.1 hys).1) (List.cons_ne_nil _ _)
      | cons x xs =>
        rw [List.flatMap_cons, List.flatMap_cons, List.append_assoc] at hys
        obtain rfl := h.prefixFree _ _ _ _ hys
        exact List.cons_prefix_cons.2 ⟨rfl, ih ⟨ys, List.append_cancel_left hys⟩⟩
  · rintro ⟨ys, rfl⟩
    rw [List.flatMap_append]
    exact List.prefix_append _ _

variable [DecidableEq α] [DecidableEq β]

/-- **The pieces of the encoding** are the encodings of the pieces. -/
theorem pieces_flatMap (h : MarkedCode code starts) (pat xs : List α) :
    pieces starts (pat.flatMap code) (xs.flatMap code) =
      (pieces (fun _ => true) pat xs).map (List.flatMap code) := by
  cases xs with
  | nil =>
    unfold pieces
    rw [List.flatMap_nil, piecesFrom, piecesFrom]
    by_cases hpat : pat = []
    · rw [if_pos hpat, if_pos (h.flatMap_eq_nil.2 hpat)]
      rfl
    · rw [if_neg hpat, if_neg (h.flatMap_eq_nil.not.2 hpat)]
      rfl
  | cons x xs =>
    obtain ⟨b, rest, hcode, hstarts, hrest⟩ := h.shape x
    have hmap : ∀ ps : List (List α), (ps.modifyHead (x :: ·)).map (List.flatMap code) =
        ((ps.map (List.flatMap code)).modifyHead (rest ++ ·)).modifyHead (b :: ·) := by
      intro ps
      cases ps with
      | nil => rfl
      | cons p ps =>
        rw [List.modifyHead_cons, List.map_cons, List.map_cons, List.modifyHead_cons, List.modifyHead_cons,
          List.flatMap_cons, hcode, List.cons_append]
    by_cases hoccurs : pat <+: x :: xs
    · obtain ⟨ys, hys⟩ := hoccurs
      cases pat with
      | nil =>
        rw [List.flatMap_nil, List.flatMap_cons, hcode, List.cons_append, pieces_empty hstarts, pieces_append hrest,
          pieces_empty rfl, List.map_cons, hmap]
        have ih := pieces_flatMap h [] xs
        rw [List.flatMap_nil] at ih
        rw [ih]
        rfl
      | cons p ps =>
        obtain ⟨rfl, rfl⟩ := List.cons.inj hys
        have hleft : ((p :: ps) ++ ys).flatMap code = (p :: ps).flatMap code ++ ys.flatMap code :=
          List.flatMap_append
        rw [← hys, hleft, pieces_match rfl, List.map_cons, ← pieces_flatMap h (p :: ps) ys]
        rw [List.flatMap_cons, hcode, List.cons_append, pieces_match hstarts]
        rfl
    · have hnone : ¬ pat.flatMap code <+: b :: (rest ++ xs.flatMap code) := by
        have hcons := @MarkedCode.prefix_iff _ _ _ _ h pat (x :: xs)
        rw [List.flatMap_cons, hcode, List.cons_append] at hcons
        exact hcons.not.2 hoccurs
      rw [List.flatMap_cons, hcode, List.cons_append, pieces_cons (.inr hnone), pieces_append hrest,
        pieces_flatMap h pat xs, pieces_cons (.inr hoccurs), hmap]
termination_by xs.length

theorem occurrences_flatMap (h : MarkedCode code starts) (pat xs : List α) :
    occurrences starts (pat.flatMap code) (xs.flatMap code) = occurrences (fun _ => true) pat xs := by
  unfold occurrences
  rw [h.pieces_flatMap, List.length_map]

/-- **Replacing commutes with encoding.** -/
theorem replaced_flatMap (h : MarkedCode code starts) (pat new xs : List α) (count : Int) :
    (replaced (fun _ => true) pat new count xs).flatMap code =
      replaced starts (pat.flatMap code) (new.flatMap code) count (xs.flatMap code) := by
  unfold replaced
  rw [flatMap_glue, h.pieces_flatMap]

end MarkedCode

end Lib
end RobotsixMill
