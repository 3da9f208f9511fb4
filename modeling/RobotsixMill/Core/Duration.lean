import RobotsixMill.Lib.PyText

/-!
# `Core.Duration` — durations as text

A duration is a number of seconds, or a text like `1w2d3h40m10s`: quantities of the units from weeks down to seconds,
each unit at most once. `format_duration` writes the quantities of a `divmod` chain that are not zero.

A list of groups has a quantity or nothing for each unit of a table, in the order of the table.

- `matchDuration`, `parseDuration` — a text read as groups, and their sum;
- `quantities`, `formatDuration` — the groups of a number, and their text;
- `matchDuration_writeGroups` — the groups that were written are read;
- `duration_round_trip` — a number is read back from its text, and what is accepted has such a text.
-/

namespace RobotsixMill
namespace Core
open Lib

/-- `_UNIT_SECONDS`, the largest first. -/
def UNIT_SECONDS : List (Char × Nat) := [('w', 604800), ('d', 86400), ('h', 3600), ('m', 60), ('s', 1)]

/-- `_EXPECTED`. -/
def EXPECTED : String := "an integer number of seconds or a form like '1w2d3h40m10s'"

/-- What `\d` matches and `int` reads: the decimal digits of Unicode. -/
structure DigitTable where
  value : Char → Option Nat
  ascii : ∀ d < 10, value (Nat.digitChar d) = some d
  unit : ∀ u ∈ UNIT_SECONDS, value u.1 = none

/-- The argument of the two functions. -/
inductive DurationValue
  | int (n : Int)
  | bool (b : Bool)
  | str (s : String)

/-- `repr(value)`. -/
def DurationValue.repr : DurationValue → String
  | .int n => toString n
  | .bool b => if b then "True" else "False"
  | .str s => pyRepr s

section Parse

variable (D : DigitTable)

def isDigitOf (c : Char) : Bool := (D.value c).isSome

/-- `int(digits)`. -/
def readNumber (digits : List Char) : Nat := (digits.filterMap D.value).foldl (fun n d => 10 * n + d) 0

/-- `_DURATION_RE` on a text without a newline at its end. The letter behind the digits tells whose they are. -/
def matchDuration : List (Char × Nat) → List Char → Option (List (Option Nat))
  | [], cs => if cs = [] then some [] else none
  | (unit, _) :: units, cs =>
    let digits := cs.takeWhile (isDigitOf D)
    match cs.dropWhile (isDigitOf D) with
    | c :: rest =>
      -- the group of this unit takes part, or the digits belong to a smaller one
      if digits ≠ [] ∧ c = unit then (matchDuration units rest).map (some (readNumber D digits) :: ·)
      else (matchDuration units cs).map (none :: ·)
    | [] => (matchDuration units cs).map (none :: ·)

/-- The sum over the groups. -/
def totalSeconds : List (Char × Nat) → List (Option Nat) → Nat
  | (_, mult) :: units, qty :: groups => qty.getD 0 * mult + totalSeconds units groups
  | _, _ => 0

/-- `parse_duration`. -/
def parseDuration (value : DurationValue) : Except String Int :=
  let invalid := s!"invalid duration {value.repr}; expected {EXPECTED}"
  match value with
  | .bool _ => .error invalid
  | .int n => if n < 0 then .error s!"invalid duration {value.repr}; must not be negative" else .ok n
  | .str s =>
    let text := stripChars s.toList
    if text = [] then .error invalid
    else
      match (matchDuration D UNIT_SECONDS text).filter fun groups => groups.any Option.isSome with
      | some groups => .ok (totalSeconds UNIT_SECONDS groups)
      | none =>
        -- a bare integer
        if text.all (isDigitOf D) then .ok (readNumber D text) else .error invalid

end Parse

/-! ## Writing -/

/-- The `divmod` chain; a quantity of zero is left out. -/
def quantities : List (Char × Nat) → Nat → List (Option Nat)
  | [], _ => []
  | (_, mult) :: units, remaining =>
    (if remaining / mult = 0 then none else some (remaining / mult)) :: quantities units (remaining % mult)

/-- `f"{qty}{unit}"` for each group. -/
def writeGroups : List (Char × Nat) → List (Option Nat) → List Char
  | (unit, _) :: units, some qty :: groups => (toString qty).toList ++ unit :: writeGroups units groups
  | _ :: units, none :: groups => writeGroups units groups
  | _, _ => []

/-- `format_duration`. -/
def formatDuration (value : DurationValue) : Except String String :=
  match value with
  | .int seconds =>
    if seconds < 0 then .error s!"invalid duration {value.repr}; must not be negative"
    else if seconds = 0 then .ok "0s"
    else .ok (.ofList (writeGroups UNIT_SECONDS (quantities UNIT_SECONDS seconds.toNat)))
  | _ => .error s!"invalid duration {value.repr}; expected a non-negative int"

example : formatDuration (.int 9010) = .ok "2h30m10s" := by decide +kernel

/-- A text with quantities of the units, each at most once and in descending order, every one below the next larger
    unit. -/
def Canonical (text : String) : Prop :=
  ∃ groups : List (Option Nat), groups.length = UNIT_SECONDS.length ∧
    text.toList = writeGroups UNIT_SECONDS groups ∧
    ∀ i larger smaller qty, UNIT_SECONDS[i]? = some larger → UNIT_SECONDS[i + 1]? = some smaller →
      groups[i + 1]? = some (some qty) → qty * smaller.2 < larger.2

/-! ## The chain -/

theorem length_quantities (units : List (Char × Nat)) (n : Nat) : (quantities units n).length = units.length := by
  induction units generalizing n with
  | nil => rfl
  | cons u units ih => exact congrArg (· + 1) (ih (n % u.2))

/-- The quantities of a number sum up to it, if the last unit is one. -/
theorem totalSeconds_quantities {units : List (Char × Nat)} (hlast : units.getLast?.map Prod.snd = some 1) (n : Nat) :
    totalSeconds units (quantities units n) = n := by
  have hqty : ∀ q : Nat, (if q = 0 then none else some q).getD 0 = q := by
    intro q
    by_cases hq : q = 0
    · rw [if_pos hq, hq]
      rfl
    · rw [if_neg hq]
      rfl
  induction units generalizing n with
  | nil => cases hlast
  | cons u units ih =>
    rw [quantities, totalSeconds, hqty]
    cases units with
    | nil =>
      -- the last unit takes all that is left
      have hone : u.2 = 1 := Option.some.inj hlast
      rw [hone, Nat.div_one, Nat.mul_one]
      rfl
    | cons v units =>
      rw [List.getLast?_cons_cons] at hlast
      rw [ih hlast, Nat.mul_comm]
      -- what the unit leaves over is the sum of the others
      exact Nat.div_add_mod n u.2

/-- A quantity is below the next larger unit. -/
theorem quantities_lt {units : List (Char × Nat)} {n i qty : Nat} {larger smaller : Char × Nat}
    (hlarger : units[i]? = some larger) (hsmaller : units[i + 1]? = some smaller) (hpos : 0 < larger.2)
    (hqty : (quantities units n)[i + 1]? = some (some qty)) : qty * smaller.2 < larger.2 := by
  induction units generalizing n i with
  | nil => cases hlarger
  | cons u units ih =>
    cases i with
    | succ i => exact ih hlarger hsmaller hqty
    | zero =>
      obtain rfl := Option.some.inj hlarger
      cases units with
      | nil => cases hsmaller
      | cons v units =>
        obtain rfl := Option.some.inj hsmaller
        have hq : (if n % u.2 / v.2 = 0 then none else some (n % u.2 / v.2)) = some qty := Option.some.inj hqty
        rw [Option.ite_none_left_eq_some] at hq
        rw [← Option.some.inj hq.2]
        -- the quantity is taken from a remainder of the larger unit
        exact Nat.lt_of_le_of_lt (Nat.div_mul_le_self _ _) (Nat.mod_lt n hpos)

/-! ## Reading what was written -/

section RoundTrip

variable (D : DigitTable)

theorem value_of_mem_toDigits {n : Nat} {c : Char} (hc : c ∈ Nat.toDigits 10 n) : isDigitOf D c = true := by
  induction n using Nat.strongRecOn with
  | _ n ih =>
    by_cases hn : n < 10
    · rw [Nat.toDigits_of_lt_base hn, List.mem_singleton] at hc
      rw [isDigitOf, hc, D.ascii n hn]
      rfl
    · rw [Nat.toDigits_of_base_le (by omega) (by omega), List.mem_append, List.mem_singleton] at hc
      rcases hc with hc | rfl
      · exact ih (n / 10) (by omega) hc
      · rw [isDigitOf, D.ascii _ (Nat.mod_lt n (by omega))]
        rfl

/-- A number is read back from its digits. -/
theorem readNumber_toDigits (n : Nat) : readNumber D (Nat.toDigits 10 n) = n := by
  induction n using Nat.strongRecOn with
  | _ n ih =>
    by_cases hn : n < 10
    · rw [Nat.toDigits_of_lt_base hn, readNumber, List.filterMap_cons_some (D.ascii n hn)]
      exact (Nat.zero_add n)
    · have hlast := D.ascii (n % 10) (Nat.mod_lt n (by omega))
      rw [Nat.toDigits_of_base_le (by omega) (by omega), readNumber, List.filterMap_append,
        List.filterMap_cons_some hlast, List.foldl_append]
      show 10 * readNumber D (Nat.toDigits 10 (n / 10)) + n % 10 = n
      rw [ih (n / 10) (by omega)]
      exact Nat.div_add_mod n 10

/-- A quantity and its unit, cut at the unit. -/
theorem span_quantity (qty : Nat) {unit : Char} (hunit : D.value unit = none) (rest : List Char) :
    ((toString qty).toList ++ unit :: rest).takeWhile (isDigitOf D) = Nat.toDigits 10 qty ∧
      ((toString qty).toList ++ unit :: rest).dropWhile (isDigitOf D) = unit :: rest := by
  have hstop : isDigitOf D unit = false := by rw [isDigitOf, hunit]; rfl
  have hdigits : ∀ c ∈ Nat.toDigits 10 qty, isDigitOf D c = true := fun c hc => value_of_mem_toDigits D hc
  rw [Nat.toString_eq_ofList_toDigits, String.toList_ofList, List.takeWhile_append_of_pos hdigits,
    List.dropWhile_append_of_pos hdigits, List.takeWhile_cons_of_neg (by rw [hstop]; exact Bool.false_ne_true),
    List.dropWhile_cons_of_neg (by rw [hstop]; exact Bool.false_ne_true), List.append_nil]
  exact ⟨rfl, rfl⟩

/-- What is written in some units has none of another behind its first digits. -/
theorem dropWhile_writeGroups {units : List (Char × Nat)} (hunits : ∀ u ∈ units, D.value u.1 = none)
    (groups : List (Option Nat)) {c : Char} {rest : List Char}
    (h : (writeGroups units groups).dropWhile (isDigitOf D) = c :: rest) : c ∈ units.map Prod.fst := by
  induction units generalizing groups with
  | nil =>
    have hempty : writeGroups [] groups = [] := by cases groups <;> rfl
    rw [hempty] at h
    cases h
  | cons u units ih =>
    cases groups with
    | nil => cases h
    | cons qty groups =>
      -- what is written first is a quantity of `u`, or comes from the smaller units
      cases qty with
      | none => exact List.mem_cons_of_mem _ (ih (fun v hv => hunits v (List.mem_cons_of_mem _ hv)) groups h)
      | some qty =>
        rw [writeGroups, (span_quantity D qty (hunits u List.mem_cons_self) _).2] at h
        rw [← (List.cons.inj h).1]
        exact List.mem_cons_self

/-- **The groups that were written are read**, for any table of distinct units. -/
theorem matchDuration_writeGroups {units : List (Char × Nat)} (hunits : ∀ u ∈ units, D.value u.1 = none)
    (hnodup : (units.map Prod.fst).Nodup) {groups : List (Option Nat)} (hlength : groups.length = units.length) :
    matchDuration D units (writeGroups units groups) = some groups := by
  induction units generalizing groups with
  | nil =>
    obtain rfl := List.eq_nil_of_length_eq_zero hlength
    rfl
  | cons u units ih =>
    obtain ⟨unit, mult⟩ := u
    obtain ⟨qty, groups, rfl⟩ := List.exists_cons_of_length_eq_add_one hlength
    rw [List.map_cons, List.nodup_cons] at hnodup
    have hrest := ih (fun v hv => hunits v (List.mem_cons_of_mem _ hv)) hnodup.2 (Nat.succ.inj hlength)
    cases qty with
    | some qty =>
      obtain ⟨htake, hdrop⟩ := span_quantity D qty (hunits _ List.mem_cons_self) (writeGroups units groups)
      have hne : Nat.toDigits 10 qty ≠ [] := Nat.toDigits_ne_nil
      rw [writeGroups, matchDuration, hdrop, htake]
      dsimp only
      rw [if_pos ⟨hne, rfl⟩, hrest, readNumber_toDigits]
      rfl
    | none =>
      rw [writeGroups, matchDuration]
      split
      · rename_i c rest hdrop
        -- the digits are those of a smaller unit
        have hother : c ≠ unit := by
          rintro rfl
          exact hnodup.1 (dropWhile_writeGroups D (fun v hv => hunits v (List.mem_cons_of_mem _ hv)) groups hdrop)
        rw [if_neg fun h => hother h.2, hrest]
        rfl
      · rw [hrest]
        rfl

/-- No spaces are written. -/
theorem not_space_of_mem_writeGroups {units : List (Char × Nat)} (hunits : ∀ u ∈ units, isPySpace u.1 = false)
    {groups : List (Option Nat)} {c : Char} (hc : c ∈ writeGroups units groups) : isPySpace c = false := by
  induction units generalizing groups with
  | nil =>
    have hempty : writeGroups [] groups = [] := by cases groups <;> rfl
    rw [hempty] at hc
    exact absurd hc List.not_mem_nil
  | cons u units ih =>
    have hrest : ∀ v ∈ units, isPySpace v.1 = false := fun v hv => hunits v (List.mem_cons_of_mem _ hv)
    cases groups with
    | nil => exact absurd hc List.not_mem_nil
    | cons qty groups =>
      cases qty with
      | none => exact ih hrest hc
      | some qty =>
        rw [writeGroups, List.mem_append, List.mem_cons, Nat.toString_eq_ofList_toDigits, String.toList_ofList] at hc
        rcases hc with hc | rfl | hc
        · exact isPySpace_of_isDigit (Nat.isDigit_of_mem_toDigits (by decide) (by decide) hc)
        · exact hunits _ List.mem_cons_self
        · exact ih hrest hc

/-- The text of some groups is accepted, with their sum. -/
theorem parseDuration_writeGroups {groups : List (Option Nat)} (hlength : groups.length = UNIT_SECONDS.length)
    (hany : groups.any Option.isSome = true) :
    parseDuration D (.str (.ofList (writeGroups UNIT_SECONDS groups))) = .ok (totalSeconds UNIT_SECONDS groups) := by
  have hmatch := matchDuration_writeGroups D D.unit (by decide) hlength
  have hne : writeGroups UNIT_SECONDS groups ≠ [] := by
    intro hempty
    rw [hempty] at hmatch
    rw [← Option.some.inj hmatch] at hany
    cases hany
  have hstrip : stripChars (writeGroups UNIT_SECONDS groups) = writeGroups UNIT_SECONDS groups :=
    stripChars_of_no_space fun c hc => not_space_of_mem_writeGroups (by decide) hc
  unfold parseDuration
  dsimp only
  rw [String.toList_ofList, hstrip, if_neg hne, hmatch, Option.filter_some, if_pos hany]

/-- A number that is not negative has a canonical text, and is read back from it. -/
theorem formatDuration_spec (n : Nat) : ∃ text, formatDuration (.int n) = .ok text ∧ Canonical text ∧
    parseDuration D (.str text) = .ok (n : Int) := by
  have hsign : ¬ (n : Int) < 0 := by omega
  by_cases hzero : n = 0
  · -- no quantity is left of zero, and one is written all the same
    refine ⟨"0s", by rw [hzero]; rfl, ⟨[none, none, none, none, some 0], rfl, rfl, ?_⟩, ?_⟩
    · intro i larger smaller qty hlarger _ hqty
      have hpos : 0 < larger.2 := (by decide : ∀ u ∈ UNIT_SECONDS, 0 < u.2) _ (List.mem_of_getElem? hlarger)
      have hqty0 : qty = 0 := (by decide : ∀ q ∈ ([none, none, none, none, some 0] : List (Option Nat)), ∀ x ∈ q, x = 0)
        _ (List.mem_of_getElem? hqty) qty rfl
      rw [hqty0, Nat.zero_mul]
      exact hpos
    · rw [hzero]
      exact @parseDuration_writeGroups D [none, none, none, none, some 0] rfl rfl
  · have htotal : totalSeconds UNIT_SECONDS (quantities UNIT_SECONDS n) = n := totalSeconds_quantities rfl n
    have hlength := length_quantities UNIT_SECONDS n
    -- a number that is not zero has a quantity
    have hany : (quantities UNIT_SECONDS n).any Option.isSome = true := by
      by_contra hnone
      have hempty : quantities UNIT_SECONDS n = List.replicate UNIT_SECONDS.length none := by
        refine List.eq_replicate_iff.2 ⟨hlength, fun qty hqty => ?_⟩
        cases qty with
        | none => rfl
        | some q => exact absurd (List.any_eq_true.2 ⟨_, hqty, rfl⟩) hnone
      rw [hempty] at htotal
      exact hzero htotal.symm
    refine ⟨.ofList (writeGroups UNIT_SECONDS (quantities UNIT_SECONDS n)), ?_, ⟨_, hlength, ?_, ?_⟩, ?_⟩
    · unfold formatDuration
      dsimp only
      rw [if_neg hsign, if_neg (by omega), Int.toNat_natCast]
    · exact String.toList_ofList
    · intro i larger smaller qty hlarger hsmaller hqty
      have hpos : 0 < larger.2 := (by decide : ∀ u ∈ UNIT_SECONDS, 0 < u.2) _ (List.mem_of_getElem? hlarger)
      exact quantities_lt hlarger hsmaller hpos hqty
    · rw [parseDuration_writeGroups D hlength hany, htotal]

/-- What is accepted is not negative. -/
theorem parseDuration_str_nonneg {s : String} {v : Int} (h : parseDuration D (.str s) = .ok v) : 0 ≤ v := by
  unfold parseDuration at h
  dsimp only at h
  split at h
  · cases h
  · split at h
    · cases h
      exact Int.natCast_nonneg _
    · split at h <;> cases h
      exact Int.natCast_nonneg _

/-- **Durations and their texts.** Every number that is not negative is read back from its text. A text that is
    accepted denotes a number whose own text is accepted again, denotes the same number, and has each unit at most
    once, in descending order, with every quantity below the next larger unit. -/
theorem duration_round_trip (D : DigitTable) :
    (∀ n : Nat, ∃ text, formatDuration (.int n) = .ok text ∧ parseDuration D (.str text) = .ok (n : Int)) ∧
      ∀ s v, parseDuration D (.str s) = .ok v → ∃ text, formatDuration (.int v) = .ok text ∧
        parseDuration D (.str text) = .ok v ∧ Canonical text := by
  constructor
  · intro n
    obtain ⟨text, hformat, -, hparse⟩ := formatDuration_spec D n
    exact ⟨text, hformat, hparse⟩
  · intro s v hv
    -- the text itself does not matter, only what it denotes
    obtain ⟨n, rfl⟩ := Int.eq_ofNat_of_zero_le (parseDuration_str_nonneg D hv)
    obtain ⟨text, hformat, hcanonical, hparse⟩ := formatDuration_spec D n
    exact ⟨text, hformat, hparse, hcanonical⟩

/-- The ASCII digits alone. -/
def ASCII_DIGITS : DigitTable where
  value := digitVal?
  ascii := digitVal?_digitChar
  unit := by decide

/-- 26 hours are a day and two hours. -/
theorem duration_round_trip_hours :
    parseDuration ASCII_DIGITS (.str " 26h") = .ok 93600 ∧ formatDuration (.int 93600) = .ok "1d2h" ∧
      ∃ text, formatDuration (.int 93600) = .ok text ∧ parseDuration ASCII_DIGITS (.str text) = .ok 93600 ∧
        Canonical text :=
  ⟨by decide +kernel, by decide +kernel, (duration_round_trip ASCII_DIGITS).2 " 26h" 93600 (by decide +kernel)⟩

end RoundTrip

end Core
end RobotsixMill
