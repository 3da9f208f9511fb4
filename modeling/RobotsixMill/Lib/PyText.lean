import Mathlib.Data.List.TakeWhile

/-!
# `Lib.PyText` — the Python text operations a model of Python code leans on

Strings are Lean strings, worked on as their list of characters, so that every operation here computes
in the kernel.

- `strip`, `isBlank` — `str.strip()` and its emptiness test, with Python's whitespace set;
- `startsWith`, `splitlines`, `contains` — `str.startswith`, `str.splitlines` and `in`;
- `cutAt`, `rstrip` — the text around the first occurrence of another, and `str.rstrip()`;
- `parseInt` — `int(text)` on ASCII text (sign, digits, single underscores between digits), which reads
  back what `str(n)` wrote (`parseInt_toString`);
- `lower` — `str.lower()`, exact on the ASCII letters of its result;
- `pyRepr` — `repr(text)`, without control characters;
- `sqlLike` — SQLite's `LIKE pattern || '%'`, where `_` matches any character and ASCII letters match
  in either case.
-/

namespace RobotsixMill
namespace Lib

/-- The characters `str.isspace` accepts. -/
def isPySpace (c : Char) : Bool :=
  let n := c.toNat
  (9 ≤ n && n ≤ 13) || (28 ≤ n && n ≤ 32) || n == 0x85 || n == 0xa0 || n == 0x1680 ||
  (0x2000 ≤ n && n ≤ 0x200a) || n == 0x2028 || n == 0x2029 || n == 0x202f || n == 0x205f ||
  n == 0x3000

/-- `s.strip()` on character lists. -/
def stripChars (cs : List Char) : List Char :=
  ((cs.dropWhile isPySpace).reverse.dropWhile isPySpace).reverse

/-- `s.strip()`. -/
def strip (s : String) : String := String.ofList (stripChars s.toList)

/-- `not s.strip()`. -/
def isBlank (s : String) : Bool := s.toList.all isPySpace

/-- `s.startswith(p)`. -/
def startsWith (s p : String) : Bool := p.toList.isPrefixOf s.toList

/-- The line boundaries of `str.splitlines`. -/
def isLineBreak (c : Char) : Bool :=
  let n := c.toNat
  (10 ≤ n && n ≤ 13) || (28 ≤ n && n ≤ 30) || n == 0x85 || n == 0x2028 || n == 0x2029

/-- `s.splitlines()`, the current line held back in `cur` (reversed). -/
def splitlinesGo (cur : List Char) : List Char → List (List Char)
  | [] => if cur = [] then [] else [cur.reverse]
  | '\r' :: '\n' :: cs => cur.reverse :: splitlinesGo [] cs
  | c :: cs => if isLineBreak c then cur.reverse :: splitlinesGo [] cs else splitlinesGo (c :: cur) cs

/-- `s.splitlines()`. -/
def splitlines (s : String) : List String := (splitlinesGo [] s.toList).map String.ofList

/-- `sub in s`, on character lists. -/
def containsChars (sub : List Char) : List Char → Bool
  | [] => sub.isEmpty
  | c :: cs => sub.isPrefixOf (c :: cs) || containsChars sub cs

/-- `sub in s`. -/
def contains (s sub : String) : Bool := containsChars sub.toList s.toList

theorem containsChars_append_right {sub : List Char} (as : List Char) {bs : List Char}
    (h : containsChars sub bs = true) : containsChars sub (as ++ bs) = true := by
  induction as with
  | nil => exact h
  | cons a as ih => simp [containsChars, ih]

theorem containsChars_append_left {sub as : List Char} (bs : List Char)
    (h : containsChars sub as = true) : containsChars sub (as ++ bs) = true := by
  induction as with
  | nil =>
      cases sub with
      | nil => cases bs <;> simp [containsChars]
      | cons c sub => simp [containsChars] at h
  | cons a as ih =>
      simp only [containsChars, Bool.or_eq_true, List.isPrefixOf_iff_prefix] at h
      simp only [List.cons_append, containsChars, Bool.or_eq_true, List.isPrefixOf_iff_prefix]
      rcases h with h | h
      · exact .inl (h.trans (List.prefix_append (a :: as) bs))
      · exact .inr (ih h)

theorem contains_append_right {sub : String} (a : String) {b : String} (h : contains b sub = true) :
    contains (a ++ b) sub = true := by
  unfold contains at h ⊢
  rw [String.toList_append]
  exact containsChars_append_right _ h

theorem contains_append_left {sub a : String} (b : String) (h : contains a sub = true) :
    contains (a ++ b) sub = true := by
  unfold contains at h ⊢
  rw [String.toList_append]
  exact containsChars_append_left _ h

theorem containsChars_self (cs : List Char) : containsChars cs cs = true := by
  cases cs with
  | nil => rfl
  | cons c cs =>
      rw [containsChars, Bool.or_eq_true]
      exact .inl (List.isPrefixOf_iff_prefix.2 List.prefix_rfl)

theorem contains_intercalate {sep line sub : String} {lines : List String} (hmem : line ∈ lines)
    (h : contains line sub = true) : contains (sep.intercalate lines) sub = true := by
  induction lines with
  | nil => exact absurd hmem List.not_mem_nil
  | cons first rest ih =>
      obtain rfl | hmem := List.mem_cons.1 hmem
      · cases rest with
        | nil =>
            rw [String.intercalate_singleton]
            exact h
        | cons second rest =>
            rw [String.intercalate_cons_cons]
            exact contains_append_left _ (contains_append_left _ h)
      · rw [String.intercalate_cons_of_ne_nil (List.ne_nil_of_mem hmem)]
        exact contains_append_right _ (ih hmem)

/-- What stands before and after the first occurrence of `sub`. -/
def cutAt (sub : List Char) : List Char → Option (List Char × List Char)
  | [] => if sub = [] then some ([], []) else none
  | c :: cs =>
    if sub.isPrefixOf (c :: cs) then some ([], (c :: cs).drop sub.length)
    else (cutAt sub cs).map fun (before, after) => (c :: before, after)

/-- `s.rstrip()`, on character lists. -/
def rstripChars (cs : List Char) : List Char := (cs.reverse.dropWhile isPySpace).reverse

/-! ## `int(text)` -/

/-- One decimal digit. -/
def digitVal? (c : Char) : Option Nat :=
  if 48 ≤ c.toNat && c.toNat ≤ 57 then some (c.toNat - 48) else none

/-- Digits, single underscores allowed between two of them. -/
def parseDigits : Nat → List Char → Option Nat
  | acc, [] => some acc
  | acc, '_' :: c :: cs =>
    match digitVal? c with
    | some d => parseDigits (10 * acc + d) cs
    | none => none
  | acc, c :: cs =>
    match digitVal? c with
    | some d => parseDigits (10 * acc + d) cs
    | none => none

/-- A non-empty run of digits. -/
def parseNat : List Char → Option Nat
  | [] => none
  | c :: cs => (digitVal? c).bind fun d => parseDigits d cs

/-- `int(text)`; `none` is the `ValueError`. -/
def parseInt (s : String) : Option Int :=
  match stripChars s.toList with
  | '-' :: cs => (parseNat cs).map fun n => -(n : Int)
  | '+' :: cs => (parseNat cs).map fun n => (n : Int)
  | cs => (parseNat cs).map fun n => (n : Int)

/-! ## Case folding and SQLite's `LIKE` -/

/-- ASCII lower-casing, the only case folding `LIKE` does. -/
def asciiLower (c : Char) : Char :=
  if 65 ≤ c.toNat && c.toNat ≤ 90 then Char.ofNat (c.toNat + 32) else c

/-- `c.lower()` where the result has an ASCII letter; any other character stays as it is. -/
def lowerChar (c : Char) : List Char :=
  if c.toNat = 0x212a then ['k']
  else if c.toNat = 0x130 then ['i', Char.ofNat 0x307]
  else [asciiLower c]

/-- `s.lower()`. -/
def lower (s : String) : String := String.ofList (s.toList.flatMap lowerChar)

/-- `repr` of a text without control characters. -/
def pyRepr (s : String) : String :=
  let quote := if '\'' ∈ s.toList ∧ '"' ∉ s.toList then '"' else '\''
  let escaped := s.toList.flatMap fun c => if c = '\\' ∨ c = quote then ['\\', c] else [c]
  .ofList (quote :: escaped ++ [quote])

/-- Does `body` match `pattern || '%'`? `_` stands for any one character. -/
def sqlLike : List Char → List Char → Bool
  | [], _ => true
  | _ :: _, [] => false
  | p :: ps, c :: cs => (p == '_' || asciiLower p == asciiLower c) && sqlLike ps cs

/-! ## Small facts -/

theorem mem_dropWhile_of_not {p : Char → Bool} {c : Char} {cs : List Char} (hc : c ∈ cs)
    (hp : p c = false) : c ∈ cs.dropWhile p := by
  rw [← List.takeWhile_append_dropWhile (p := p) (l := cs)] at hc
  rcases List.mem_append.1 hc with ht | hd
  · have hpc : p c = true := List.mem_takeWhile_imp ht
    rw [hp] at hpc
    cases hpc
  · exact hd

/-- Stripping a text leaves the text it begins with, if that begins and ends with no space. -/
theorem isPrefix_stripChars {ds cs : List Char} (hfirst : ds.dropWhile isPySpace = ds)
    (hlast : ds.reverse.dropWhile isPySpace = ds.reverse) (h : ds <+: cs) : ds <+: stripChars cs := by
  obtain ⟨rest, rfl⟩ := h
  cases ds with
  | nil => exact List.nil_prefix
  | cons d ds =>
      have hd : isPySpace d = false := by
        by_contra hd
        rw [List.dropWhile_cons_of_pos (by simpa using hd)] at hfirst
        have hlen := congrArg List.length hfirst
        have hle := (List.dropWhile_suffix isPySpace (l := ds)).length_le
        rw [List.length_cons] at hlen
        omega
      unfold stripChars
      rw [List.cons_append, List.dropWhile_cons_of_neg (by simp [hd]), ← List.cons_append, List.reverse_append,
        List.dropWhile_append, hlast]
      split
      · exact ⟨[], by rw [List.append_nil, List.reverse_reverse]⟩
      · rw [List.reverse_append, List.reverse_reverse]
        exact List.prefix_append _ _

/-- A text that is not blank is not blank once stripped. -/
theorem isBlank_strip {s : String} (h : isBlank s = false) : isBlank (strip s) = false := by
  obtain ⟨c, hc, hp⟩ : ∃ c ∈ s.toList, isPySpace c = false := by
    simpa [isBlank] using h
  have hstrip : c ∈ stripChars s.toList := by
    unfold stripChars
    rw [List.mem_reverse]
    apply mem_dropWhile_of_not _ hp
    rw [List.mem_reverse]
    exact mem_dropWhile_of_not hc hp
  simp only [isBlank, strip, String.toList_ofList, List.all_eq_false]
  exact ⟨c, hstrip, by simp [hp]⟩

/-- Text that starts with a literal prefix matches that prefix as a `LIKE` pattern. -/
theorem sqlLike_of_isPrefix {p cs : List Char} (h : p.isPrefixOf cs = true) :
    sqlLike p cs = true := by
  induction p generalizing cs with
  | nil => cases cs <;> rfl
  | cons a p ih =>
      cases cs with
      | nil => simp at h
      | cons c cs =>
          simp only [List.isPrefixOf_cons_cons, Bool.and_eq_true, beq_iff_eq] at h
          obtain ⟨hac, hp⟩ := h
          simp [sqlLike, hac, ih hp]

/-! ## Counters read back -/

theorem digitVal?_digitChar : ∀ d < 10, digitVal? (Nat.digitChar d) = some d := by decide

theorem parseDigits_digitChar {d : Nat} (hd : d < 10) (acc : Nat) (cs : List Char) :
    parseDigits acc (Nat.digitChar d :: cs) = parseDigits (10 * acc + d) cs := by
  have hne : ∀ d < 10, Nat.digitChar d ≠ '_' := by decide
  rw [parseDigits]
  · simp only [digitVal?_digitChar d hd]
  · intro c cs' h
    exact absurd h (hne d hd)

/-- The digits of `n`, read after `acc`, add `n` behind some shift of `acc`. -/
theorem parseDigits_toDigits (n : Nat) : ∀ (acc : Nat) (cs : List Char),
    ∃ k, parseDigits acc (Nat.toDigits 10 n ++ cs) = parseDigits (k * acc + n) cs := by
  induction n using Nat.strongRecOn with
  | _ n ih =>
    intro acc cs
    by_cases hn : n < 10
    · refine ⟨10, ?_⟩
      rw [Nat.toDigits_of_lt_base hn, List.singleton_append, parseDigits_digitChar hn]
    · obtain ⟨k, hk⟩ := ih (n / 10) (by omega) acc (Nat.digitChar (n % 10) :: cs)
      refine ⟨10 * k, ?_⟩
      rw [Nat.toDigits_of_base_le (by omega) (by omega), List.append_assoc, List.singleton_append, hk,
        parseDigits_digitChar (Nat.mod_lt n (by omega)), Nat.mul_add, ← Nat.mul_assoc, Nat.add_assoc,
        Nat.div_add_mod]

theorem toDigits_eq_cons (n : Nat) : ∃ d < 10, ∃ ds, Nat.toDigits 10 n = Nat.digitChar d :: ds := by
  induction n using Nat.strongRecOn with
  | _ n ih =>
    by_cases hn : n < 10
    · exact ⟨n, hn, [], Nat.toDigits_of_lt_base hn⟩
    · obtain ⟨d, hd, ds, hds⟩ := ih (n / 10) (by omega)
      refine ⟨d, hd, ds ++ [Nat.digitChar (n % 10)], ?_⟩
      rw [Nat.toDigits_of_base_le (by omega) (by omega), hds, List.cons_append]

theorem parseNat_toDigits (n : Nat) : parseNat (Nat.toDigits 10 n) = some n := by
  obtain ⟨d, hd, ds, hds⟩ := toDigits_eq_cons n
  obtain ⟨k, hk⟩ := parseDigits_toDigits n 0 []
  have hread : parseDigits 0 (Nat.digitChar d :: ds) = some n := by
    rw [List.append_nil, Nat.mul_zero, Nat.zero_add, hds] at hk
    exact hk
  rw [parseDigits_digitChar hd, Nat.mul_zero, Nat.zero_add] at hread
  rw [hds]
  show (digitVal? (Nat.digitChar d)).bind (fun d => parseDigits d ds) = some n
  rw [digitVal?_digitChar d hd]
  exact hread

theorem isPySpace_of_isDigit {c : Char} (h : c.isDigit = true) : isPySpace c = false := by
  obtain ⟨hlo, hhi⟩ : 48 ≤ c.toNat ∧ c.toNat ≤ 57 := by
    simp only [Char.isDigit, Bool.and_eq_true, decide_eq_true_eq, ge_iff_le] at h
    exact ⟨UInt32.le_iff_toNat_le.1 h.1, UInt32.le_iff_toNat_le.1 h.2⟩
  simp only [isPySpace, Bool.or_eq_false_iff, Bool.and_eq_false_iff, decide_eq_false_iff_not, beq_eq_false_iff_ne]
  omega

theorem stripChars_of_no_space {cs : List Char} (h : ∀ c ∈ cs, isPySpace c = false) :
    stripChars cs = cs := by
  have hdrop : ∀ ds : List Char, (∀ c ∈ ds, isPySpace c = false) → ds.dropWhile isPySpace = ds := by
    intro ds hds
    cases ds with
    | nil => rfl
    | cons c ds =>
      apply List.dropWhile_cons_of_neg
      simp [hds c List.mem_cons_self]
  unfold stripChars
  rw [hdrop cs h, hdrop cs.reverse (fun c hc => h c (List.mem_reverse.1 hc)), List.reverse_reverse]

/-- **A number written with `str` is read back by `int`.** -/
theorem parseInt_toString (n : Nat) : parseInt (toString n) = some (n : Int) := by
  have hstrip : stripChars (toString n).toList = Nat.toDigits 10 n := by
    rw [Nat.toString_eq_ofList_toDigits, String.toList_ofList]
    exact stripChars_of_no_space fun c hc =>
      isPySpace_of_isDigit (Nat.isDigit_of_mem_toDigits (by decide) (by decide) hc)
  obtain ⟨d, hd, ds, hds⟩ := toDigits_eq_cons n
  have hsign : ∀ d < 10, Nat.digitChar d ≠ '-' ∧ Nat.digitChar d ≠ '+' := by decide
  have hnat : parseNat (Nat.digitChar d :: ds) = some n := by
    rw [← hds]
    exact parseNat_toDigits n
  rw [parseInt, hstrip, hds]
  split
  · rename_i h
    exact absurd (List.cons.inj h).1 (hsign d hd).1
  · rename_i h
    exact absurd (List.cons.inj h).1 (hsign d hd).2
  · rw [hnat]
    rfl

theorem parseInt_toString_int (i : Int) : parseInt (toString i) = some i := by
  cases i with
  | ofNat n => exact parseInt_toString n
  | negSucc n =>
      have hchars : (toString (Int.negSucc n)).toList = '-' :: Nat.toDigits 10 (n + 1) := by
        show ("-" ++ toString (n + 1)).toList = _
        simp only [String.toList_append, Nat.toString_eq_ofList_toDigits, String.toList_ofList]
        rfl
      have hspace : ∀ c ∈ '-' :: Nat.toDigits 10 (n + 1), isPySpace c = false := by
        intro c hc
        rcases List.mem_cons.1 hc with rfl | hc
        · decide
        · exact isPySpace_of_isDigit (Nat.isDigit_of_mem_toDigits (by decide) (by decide) hc)
      rw [parseInt, hchars, stripChars_of_no_space hspace]
      show (parseNat (Nat.toDigits 10 (n + 1))).map (fun n => -(n : Int)) = _
      rw [parseNat_toDigits]
      rfl

end Lib
end RobotsixMill
