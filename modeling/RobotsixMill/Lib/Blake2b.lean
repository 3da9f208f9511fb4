import Mathlib.Algebra.Group.Nat.Defs
import Mathlib.Data.List.Basic

/-!
# `Lib.Blake2b` — the BLAKE2b hash function

Unkeyed BLAKE2b on byte lists: 64-bit words are naturals reduced by `word`, the state `v` is a list of
16 words, and a digest of `size` bytes is read off the final chaining value. Every operation is
structurally recursive, so concrete digests compute in the kernel.
-/

namespace RobotsixMill
namespace Lib
namespace Blake2b

/-! ## 64-bit words -/

/-- Reduction to 64 bits. -/
def word (n : Nat) : Nat := n % 2 ^ 64

/-- Rotation to the right by `n` bits. -/
def rotr (x n : Nat) : Nat := (x >>> n) ||| word (x <<< (64 - n))

/-- A little-endian byte string as a number. -/
def fromLE (bs : List Nat) : Nat := bs.foldr (fun b acc => b + 256 * acc) 0

/-- The eight bytes of a word, little end first. -/
def toLE (w : Nat) : List Nat := (List.range 8).map fun i => (w >>> (8 * i)) % 256

/-! ## The compression function -/

/-- The initialisation vector. -/
def iv : List Nat :=
  [0x6a09e667f3bcc908, 0xbb67ae8584caa73b, 0x3c6ef372fe94f82b, 0xa54ff53a5f1d36f1,
   0x510e527fade682d1, 0x9b05688c2b3e6c1f, 0x1f83d9abfb41bd6b, 0x5be0cd19137e2179]

/-- The message schedule of the twelve rounds. -/
def sigma : List (List Nat) :=
  [[0, 1, 2, 3, 4, 5, 6, 7, 8, 9, 10, 11, 12, 13, 14, 15],
   [14, 10, 4, 8, 9, 15, 13, 6, 1, 12, 0, 2, 11, 7, 5, 3],
   [11, 8, 12, 0, 5, 2, 15, 13, 10, 14, 3, 6, 7, 1, 9, 4],
   [7, 9, 3, 1, 13, 12, 11, 14, 2, 6, 5, 10, 4, 0, 15, 8],
   [9, 0, 5, 7, 2, 4, 10, 15, 14, 1, 11, 12, 6, 8, 3, 13],
   [2, 12, 6, 10, 0, 11, 8, 3, 4, 13, 7, 5, 15, 14, 1, 9],
   [12, 5, 1, 15, 14, 13, 4, 10, 0, 7, 6, 3, 9, 2, 8, 11],
   [13, 11, 7, 14, 12, 1, 3, 9, 5, 0, 15, 4, 8, 6, 2, 10],
   [6, 15, 14, 9, 11, 3, 0, 8, 12, 2, 13, 7, 1, 4, 10, 5],
   [10, 2, 8, 4, 7, 6, 1, 5, 15, 11, 9, 14, 3, 12, 13, 0],
   [0, 1, 2, 3, 4, 5, 6, 7, 8, 9, 10, 11, 12, 13, 14, 15],
   [14, 10, 4, 8, 9, 15, 13, 6, 1, 12, 0, 2, 11, 7, 5, 3]]

/-- The mixing function on the words `a`, `b`, `c`, `d` of `v`. -/
def mix (v : List Nat) (a b c d x y : Nat) : List Nat :=
  let va := word (v.getD a 0 + v.getD b 0 + x)
  let vd := rotr (v.getD d 0 ^^^ va) 32
  let vc := word (v.getD c 0 + vd)
  let vb := rotr (v.getD b 0 ^^^ vc) 24
  let va := word (va + vb + y)
  let vd := rotr (vd ^^^ va) 16
  let vc := word (vc + vd)
  let vb := rotr (vb ^^^ vc) 63
  (((v.set a va).set b vb).set c vc).set d vd

/-- One round: four column mixes, four diagonal mixes. -/
def round (m : List Nat) (v : List Nat) (s : List Nat) : List Nat :=
  let w (i : Nat) := m.getD (s.getD i 0) 0
  let v := mix v 0 4 8 12 (w 0) (w 1)
  let v := mix v 1 5 9 13 (w 2) (w 3)
  let v := mix v 2 6 10 14 (w 4) (w 5)
  let v := mix v 3 7 11 15 (w 6) (w 7)
  let v := mix v 0 5 10 15 (w 8) (w 9)
  let v := mix v 1 6 11 12 (w 10) (w 11)
  let v := mix v 2 7 8 13 (w 12) (w 13)
  mix v 3 4 9 14 (w 14) (w 15)

/-- Compress the block `m` into the chaining value `h`; `t` counts the bytes so far. -/
def compress (h : List Nat) (m : List Nat) (t : Nat) (last : Bool) : List Nat :=
  let v := h ++ iv
  let v := v.set 12 (v.getD 12 0 ^^^ word t)
  let v := v.set 13 (v.getD 13 0 ^^^ (t >>> 64))
  let v := if last then v.set 14 (v.getD 14 0 ^^^ (2 ^ 64 - 1)) else v
  let v := sigma.foldl (round m) v
  (List.range 8).map fun i => h.getD i 0 ^^^ v.getD i 0 ^^^ v.getD (i + 8) 0

/-! ## Messages -/

/-- A block of 128 bytes (zero-padded) as 16 words. -/
def words (bs : List Nat) : List Nat :=
  (List.range 16).map fun i => fromLE ((bs.drop (8 * i)).take 8)

/-- Absorb the message block by block; the fuel bounds the number of blocks. -/
def absorb : Nat → List Nat → Nat → List Nat → List Nat
  | 0, h, _, _ => h
  | n + 1, h, t, bs =>
    if bs.length ≤ 128 then compress h (words bs) (t + bs.length) true
    else absorb n (compress h (words (bs.take 128)) (t + 128) false) (t + 128) (bs.drop 128)

/-- The digest of `bs`, `size` bytes long. -/
def digest (size : Nat) (bs : List Nat) : List Nat :=
  let h0 := iv.set 0 (iv.getD 0 0 ^^^ 0x01010000 ^^^ size)
  ((absorb (bs.length + 1) h0 0 bs).flatMap toLE).take size

/-- A lower-case hexadecimal digit. -/
def hexDigit (n : Nat) : Char := Char.ofNat (if n < 10 then 48 + n else 87 + n)

/-- Two hexadecimal digits a byte. -/
def hex (bs : List Nat) : List Char := bs.flatMap fun b => [hexDigit (b / 16), hexDigit (b % 16)]

/-- `hashlib.blake2b(data, digest_size=size).hexdigest()`. -/
def hexdigest (size : Nat) (bs : List Nat) : String := String.ofList (hex (digest size bs))

/-! ## The length of a digest -/

theorem length_compress (h m : List Nat) (t : Nat) (last : Bool) :
    (compress h m t last).length = 8 := by
  simp [compress]

theorem length_absorb (n : Nat) (h : List Nat) (t : Nat) (bs : List Nat) (hh : h.length = 8) :
    (absorb n h t bs).length = 8 := by
  induction n generalizing h t bs with
  | zero => exact hh
  | succ n ih =>
      unfold absorb
      split
      · exact length_compress _ _ _ _
      · exact ih _ _ _ (length_compress _ _ _ _)

theorem length_flatMap_toLE (ws : List Nat) : (ws.flatMap toLE).length = 8 * ws.length := by
  induction ws with
  | nil => rfl
  | cons w ws ih => simp only [List.flatMap_cons, List.length_append, ih, toLE, List.length_map,
      List.length_range, List.length_cons]; omega

theorem length_digest (size : Nat) (bs : List Nat) (hs : size ≤ 64) :
    (digest size bs).length = size := by
  have h8 := length_absorb (bs.length + 1) (iv.set 0 (iv.getD 0 0 ^^^ 0x01010000 ^^^ size)) 0 bs rfl
  simp only [digest, List.length_take, length_flatMap_toLE, h8]
  omega

/-- A digest of at least one byte prints as a non-empty string. -/
theorem hexdigest_ne_empty (size : Nat) (bs : List Nat) (h0 : 0 < size) (hs : size ≤ 64) :
    hexdigest size bs ≠ "" := by
  intro h
  have hlen := length_digest size bs hs
  have hnil : hex (digest size bs) = [] := by
    have := congrArg String.toList h
    simpa [hexdigest] using this
  cases hd : digest size bs with
  | nil => rw [hd] at hlen; simp at hlen; omega
  | cons b bs' => rw [hd] at hnil; simp [hex] at hnil

example : hexdigest 32 [0x61, 0x62, 0x63] =
    "bddd813c634239723171ef3fee98579b94964e3bb1cb3e427262c8c068d52319" := by decide +kernel

end Blake2b
end Lib
end RobotsixMill
