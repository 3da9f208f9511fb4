import RobotsixMill.Lib.DelimitedText
import RobotsixMill.Lib.Occurrences

/-!
# `Lib.Utf8` — what Python reads from the bytes of a file, and writes to it

Reading a text file with `errors="replace"` never fails: bytes that are no character, a longest stretch that begins
one at a time, are read as U+FFFD. Line ends are read as `\n` then, whatever they are. What was lost so is not
written back: only bytes that encode a text without carriage returns are read and written unchanged.

- `encode` — `text.encode("utf-8")`;
- `decodeReplace` — `bytes.decode("utf-8", errors="replace")`;
- `readReplace` — `path.read_text`, which reads line ends as `universalNewlines` does;
- `utf8Code` — UTF-8 is a code with marked first bytes, so replacing in a text is replacing in its bytes.
-/

namespace RobotsixMill
namespace Lib

/-- `text.encode("utf-8")`. -/
def encode (text : List Char) : List UInt8 := text.flatMap String.utf8EncodeChar

/-- The byte is not the first of a character. -/
def isContinuation (b : UInt8) : Bool := 0x80 ≤ b && b ≤ 0xBF

/-- How many bytes follow this first byte, and the bounds of the second. -/
def sequenceOf (b : UInt8) : Option (Nat × UInt8 × UInt8) :=
  if 0xC2 ≤ b ∧ b ≤ 0xDF then some (1, 0x80, 0xBF)
  else if b = 0xE0 then some (2, 0xA0, 0xBF)
  else if b = 0xED then some (2, 0x80, 0x9F)
  else if 0xE1 ≤ b ∧ b ≤ 0xEF then some (2, 0x80, 0xBF)
  else if b = 0xF0 then some (3, 0x90, 0xBF)
  else if 0xF1 ≤ b ∧ b ≤ 0xF3 then some (3, 0x80, 0xBF)
  else if b = 0xF4 then some (3, 0x80, 0x8F)
  else none

/-- How many bytes after the first are read with it as one U+FFFD, where they are no character: those that continue
    it as a character would. -/
def illFormedTail (b : UInt8) (bs : List UInt8) : Nat :=
  match sequenceOf b, bs with
  | some (more, low, high), second :: rest =>
    if low ≤ second ∧ second ≤ high then 1 + ((rest.take (more - 2)).takeWhile isContinuation).length else 0
  | _, _ => 0

/-- `decodeReplace`, with `skip` bytes of what was read last still to come. -/
def decodeFrom : Nat → List UInt8 → List Char
  | _, [] => []
  | skip + 1, _ :: bs => decodeFrom skip bs
  | 0, b :: bs =>
    match (b :: bs).toByteArray.utf8DecodeChar? 0 with
    | some c => c :: decodeFrom (c.utf8Size - 1) bs
    | none => '\uFFFD' :: decodeFrom (illFormedTail b bs) bs

/-- `bytes.decode("utf-8", errors="replace")`. -/
def decodeReplace (bytes : List UInt8) : List Char := decodeFrom 0 bytes

/-- `path.read_text(encoding="utf-8", errors="replace")`, of these bytes. -/
def readReplace (bytes : List UInt8) : List Char := universalNewlines (decodeReplace bytes)

theorem decodeFrom_append (ys bs : List UInt8) : decodeFrom ys.length (ys ++ bs) = decodeReplace bs := by
  induction ys with
  | nil => rfl
  | cons y ys ih => exact ih

/-- **What was encoded is decoded.** -/
theorem decodeReplace_encode (text : List Char) : decodeReplace (encode text) = text := by
  induction text with
  | nil => rfl
  | cons c text ih =>
    obtain ⟨b, rest, hcode⟩ := List.exists_cons_of_ne_nil (String.utf8EncodeChar_ne_nil (c := c))
    have hlength : rest.length = c.utf8Size - 1 := by
      have h := String.length_utf8EncodeChar c
      rw [hcode, List.length_cons] at h
      omega
    have hdecode : (b :: (rest ++ encode text)).toByteArray.utf8DecodeChar? 0 = some c := by
      have h := ByteArray.utf8DecodeChar?_utf8EncodeChar_append (b := (encode text).toByteArray) (c := c)
      rw [← List.toByteArray_append, hcode] at h
      exact h
    have hencode : encode (c :: text) = b :: (rest ++ encode text) := by
      unfold encode
      rw [List.flatMap_cons, hcode, List.cons_append]
    rw [hencode, decodeReplace, decodeFrom, hdecode]
    dsimp only
    rw [← hlength, decodeFrom_append, ih]

/-- So is what was written, if it has no carriage return. -/
theorem readReplace_encode {text : List Char} (h : '\r' ∉ text) : readReplace (encode text) = text := by
  rw [readReplace, decodeReplace_encode, universalNewlines_of_not_mem h]

/-- A character may begin at the byte. -/
def beginsChar (b : UInt8) : Bool := decide b.IsUTF8FirstByte

/-- UTF-8 marks the first byte of a character, and no character's bytes begin another's. -/
theorem utf8Code : MarkedCode String.utf8EncodeChar beginsChar where
  shape c := by
    obtain ⟨b, rest, hcode⟩ := List.exists_cons_of_ne_nil (String.utf8EncodeChar_ne_nil (c := c))
    have hmark : ∀ i (hi : i < (String.utf8EncodeChar c).length),
        (String.utf8EncodeChar c)[i].IsUTF8FirstByte ↔ i = 0 :=
      fun i hi => UInt8.isUTF8FirstByte_getElem_utf8EncodeChar
    simp only [hcode] at hmark
    refine ⟨b, rest, hcode, decide_eq_true ((hmark 0 (Nat.succ_pos _)).2 rfl), ?_⟩
    intro x hx
    obtain ⟨i, hi, rfl⟩ := List.getElem_of_mem hx
    have hnot := (hmark (i + 1) (Nat.succ_lt_succ hi)).not.2 (Nat.succ_ne_zero i)
    exact decide_eq_false hnot
  prefixFree c c' xs ys heq := by
    have h := ByteArray.utf8DecodeChar?_utf8EncodeChar_append (b := xs.toByteArray) (c := c)
    have h' := ByteArray.utf8DecodeChar?_utf8EncodeChar_append (b := ys.toByteArray) (c := c')
    rw [← List.toByteArray_append, heq] at h
    rw [← List.toByteArray_append] at h'
    exact Option.some.inj (h.symm.trans h')

end Lib
end RobotsixMill
