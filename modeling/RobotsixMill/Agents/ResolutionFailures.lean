import RobotsixMill.Lib.Streak
import RobotsixMill.Lib.Table
import Mathlib.Data.Finset.Erase
import Mathlib.Tactic.Tauto

/-!
# `Agents.ResolutionFailures` — a periodic file that does not resolve

The supervisor of a repository tells a tracker, cycle after cycle, which periodic files did not resolve. The tracker
says which of them deserve a ticket, and how loud the log is about each.

- `observe` — one cycle;
- `Tracks`, `Tracks.observe` — the tracker holds how many cycles in a row each file failed, and that one cycle keeps it;
- `observe_replies` — after any cycles, a file is reported in the cycle in which its failures in a row come to the
  threshold, and the log warns in that one and in the first.
-/

namespace RobotsixMill
namespace Agents
namespace ResolutionFailures
open Lib

structure PeriodicResolutionFailure where
  path : String
  reason : String

inductive Level
  | warning
  | debug
  deriving DecidableEq

structure LogLine where
  level : Level
  message : String
  deriving DecidableEq

/-- `PeriodicResolutionFailureTracker`, its threshold apart. -/
structure Tracker where
  counts : Table String Nat := .empty
  reported : Finset String := ∅

/-- The threshold a tracker keeps. -/
def limit (threshold : Int) : Nat := (max 1 threshold).toNat

theorem limit_pos (threshold : Int) : 0 < limit threshold := by
  unfold limit
  omega

/-- `{str(f.path): f for f in failures}`. -/
def currentOf (failures : List PeriodicResolutionFailure) : Table String PeriodicResolutionFailure :=
  Table.ofPairs (failures.map fun f => (f.path, f))

def filingLine (failure : PeriodicResolutionFailure) (count : Nat) : LogLine where
  level := .warning
  message := "periodic workflow " ++ failure.path ++ ": " ++ failure.reason ++ " — still failing after " ++
    toString count ++ " consecutive cycles; filing a board ticket"

def firstLine (failure : PeriodicResolutionFailure) : LogLine where
  level := .warning
  message := "periodic workflow " ++ failure.path ++ ": " ++ failure.reason ++ " — skipping"

def quietLine (failure : PeriodicResolutionFailure) (count : Nat) : LogLine where
  level := .debug
  message := "periodic workflow " ++ failure.path ++ ": " ++ failure.reason ++ " — skipping (consecutive failure #" ++
    toString count ++ ")"

/-- A file that resolved, or is gone, drops out of the counters and of the reported ones. -/
def moot (current : Table String PeriodicResolutionFailure) (T : Tracker) : Tracker :=
  (T.counts.keys.filter fun key => !current.has key).foldl
    (fun T key => { counts := T.counts.erase key, reported := T.reported.erase key }) T

/-- What the loop over the failures builds. -/
structure Observed where
  tracker : Tracker
  toReport : List PeriodicResolutionFailure := []
  log : List LogLine := []

def observeRow (threshold : Int) (σ : Observed) (row : String × PeriodicResolutionFailure) : Observed :=
  let count := (σ.tracker.counts.get row.1).getD 0 + 1
  let counts := σ.tracker.counts.put row.1 count
  if limit threshold ≤ count ∧ row.1 ∉ σ.tracker.reported then
    { tracker := { counts, reported := insert row.1 σ.tracker.reported }
      toReport := σ.toReport ++ [row.2]
      log := σ.log ++ [filingLine row.2 count] }
  else if count = 1 then { σ with tracker := { σ.tracker with counts }, log := σ.log ++ [firstLine row.2] }
  else { σ with tracker := { σ.tracker with counts }, log := σ.log ++ [quietLine row.2 count] }

def observe (threshold : Int) (T : Tracker) (failures : List PeriodicResolutionFailure) : Observed :=
  (currentOf failures).rows.foldl (observeRow threshold) { tracker := moot (currentOf failures) T }

def trackerAfter (threshold : Int) (cycles : List (List PeriodicResolutionFailure)) : Tracker :=
  cycles.foldl (fun T failures => (observe threshold T failures).tracker) {}

/-! ## What is counted -/

/-- Did the file fail in this cycle? -/
def failsIn (path : String) (failures : List PeriodicResolutionFailure) : Bool :=
  failures.any fun f => decide (f.path = path)

/-- In how many of the last cycles the file failed. -/
def failedInARow (path : String) (cycles : List (List PeriodicResolutionFailure)) : Nat :=
  Lib.streak (failsIn path) cycles

/-- What the log says of a file that failed `n` times in a row. -/
def lineFor (threshold : Int) (failure : PeriodicResolutionFailure) (n : Nat) : LogLine :=
  if n = limit threshold then filingLine failure n
  else if n = 1 then firstLine failure
  else quietLine failure n

theorem get_currentOf (failures : List PeriodicResolutionFailure) (path : String) :
    (currentOf failures).get path = (failures.filter fun f => decide (f.path = path)).getLast? := by
  rw [currentOf, Table.get_ofPairs, List.filter_map, List.getLast?_map, Option.map_map]
  exact congrFun Option.map_id _

theorem path_of_get_currentOf {failures : List PeriodicResolutionFailure} {path : String} {f : PeriodicResolutionFailure}
    (h : (currentOf failures).get path = some f) : f.path = path := by
  rw [get_currentOf] at h
  exact of_decide_eq_true (List.mem_filter.1 (List.mem_of_getLast? h)).2

theorem has_currentOf (failures : List PeriodicResolutionFailure) (path : String) :
    (currentOf failures).has path = failsIn path failures := by
  unfold Table.has failsIn
  rw [get_currentOf]
  cases hany : failures.any fun f => decide (f.path = path) with
  | true =>
      obtain ⟨f, hf, hp⟩ := List.any_eq_true.1 hany
      have hne : (failures.filter fun f => decide (f.path = path)) ≠ [] := List.ne_nil_of_mem (List.mem_filter.2 ⟨hf, hp⟩)
      rw [List.getLast?_eq_some_getLast hne]
      rfl
  | false =>
      have hnil : (failures.filter fun f => decide (f.path = path)) = [] :=
        List.filter_eq_nil_iff.2 fun f hf => List.any_eq_false.1 hany f hf
      rw [hnil]
      rfl

/-! ## What the tracker holds of a file -/

/-- How often in a row it failed, and whether it was reported. -/
def Tracker.entry (T : Tracker) (path : String) : Nat × Bool :=
  ((T.counts.get path).getD 0, decide (path ∈ T.reported))

/-- The entry of a file that failed `n` times in a row. -/
def entryOf (threshold : Int) (n : Nat) : Nat × Bool := (n, decide (limit threshold ≤ n))

/-- The entry after one more failure. -/
def bump (threshold : Int) (e : Nat × Bool) : Nat × Bool := (e.1 + 1, e.2 || decide (limit threshold ≤ e.1 + 1))

/-- Is the file reported, with one more failure? -/
def dueAt (threshold : Int) (e : Nat × Bool) : Bool := decide (limit threshold ≤ e.1 + 1) && !e.2

def lineAt (threshold : Int) (e : Nat × Bool) (failure : PeriodicResolutionFailure) : LogLine :=
  if dueAt threshold e then filingLine failure (e.1 + 1)
  else if e.1 + 1 = 1 then firstLine failure
  else quietLine failure (e.1 + 1)

theorem bump_entryOf (threshold : Int) (n : Nat) : bump threshold (entryOf threshold n) = entryOf threshold (n + 1) := by
  unfold bump entryOf
  congr 1
  rw [Bool.eq_iff_iff, Bool.or_eq_true, decide_eq_true_iff, decide_eq_true_iff]
  omega

theorem dueAt_entryOf (threshold : Int) (n : Nat) :
    dueAt threshold (entryOf threshold n) = decide (n + 1 = limit threshold) := by
  unfold dueAt entryOf
  rw [Bool.eq_iff_iff, Bool.and_eq_true, Bool.not_eq_true', decide_eq_true_iff, decide_eq_false_iff_not,
    decide_eq_true_iff]
  omega

theorem lineAt_entryOf (threshold : Int) (n : Nat) (failure : PeriodicResolutionFailure) :
    lineAt threshold (entryOf threshold n) failure = lineFor threshold failure (n + 1) := by
  unfold lineAt lineFor
  rw [dueAt_entryOf]
  by_cases hn : n + 1 = limit threshold
  · rw [if_pos (decide_eq_true hn), if_pos hn]
    rfl
  · rw [if_neg (by simpa using hn), if_neg hn]
    rfl

/-! ## One cycle -/

theorem entry_put (T : Tracker) (key path : String) (n : Nat) (reported : Finset String) :
    ({ counts := T.counts.put key n, reported } : Tracker).entry path =
      (if path = key then n else (T.entry path).1, decide (path ∈ reported)) := by
  unfold Tracker.entry
  by_cases hkey : path = key
  · rw [if_pos hkey, hkey, Table.get_put_self]
    rfl
  · rw [if_neg hkey, Table.get_put_ne _ _ hkey]

section Row
variable (threshold : Int) (σ : Observed) (row : String × PeriodicResolutionFailure)

theorem due_iff :
    (limit threshold ≤ (σ.tracker.counts.get row.1).getD 0 + 1 ∧ row.1 ∉ σ.tracker.reported) ↔
      dueAt threshold (σ.tracker.entry row.1) = true := by
  unfold dueAt Tracker.entry
  rw [Bool.and_eq_true, Bool.not_eq_true', decide_eq_true_iff, decide_eq_false_iff_not]

/-- What the loop does with a file depends on the file's entry alone, and changes no other. -/
theorem observeRow_entry (path : String) :
    (observeRow threshold σ row).tracker.entry path =
      if path = row.1 then bump threshold (σ.tracker.entry path) else σ.tracker.entry path := by
  have hdue := due_iff threshold σ row
  unfold observeRow
  by_cases hnow : dueAt threshold (σ.tracker.entry row.1) = true
  · rw [if_pos (hdue.2 hnow), entry_put]
    have hle := (hdue.2 hnow).1
    by_cases hpath : path = row.1
    · subst hpath
      simp [bump, Tracker.entry, hle]
    · simp [Tracker.entry, hpath]
  · have hstays : ∀ counted : Observed, counted.tracker =
        { counts := σ.tracker.counts.put row.1 ((σ.tracker.counts.get row.1).getD 0 + 1), reported := σ.tracker.reported } →
        counted.tracker.entry path =
          if path = row.1 then bump threshold (σ.tracker.entry path) else σ.tracker.entry path := by
      intro counted hcounted
      rw [hcounted, entry_put]
      by_cases hpath : path = row.1
      · subst hpath
        have hnot : limit threshold ≤ (σ.tracker.counts.get row.1).getD 0 + 1 → row.1 ∈ σ.tracker.reported := by
          intro hle
          by_contra hmem
          exact hnow (hdue.1 ⟨hle, hmem⟩)
        by_cases hle : limit threshold ≤ (σ.tracker.counts.get row.1).getD 0 + 1
        · simp [bump, Tracker.entry, hnot hle]
        · simp [bump, Tracker.entry, hle]
      · simp [Tracker.entry, hpath]
    rw [if_neg fun h => hnow (hdue.1 h)]
    split
    case isTrue => exact hstays _ rfl
    case isFalse => exact hstays _ rfl

theorem observeRow_replies :
    (observeRow threshold σ row).toReport =
        σ.toReport ++ (if dueAt threshold (σ.tracker.entry row.1) then [row.2] else []) ∧
      (observeRow threshold σ row).log = σ.log ++ [lineAt threshold (σ.tracker.entry row.1) row.2] := by
  have hdue := due_iff threshold σ row
  unfold observeRow lineAt
  by_cases hnow : dueAt threshold (σ.tracker.entry row.1) = true
  · rw [if_pos (hdue.2 hnow), if_pos hnow, if_pos hnow]
    exact ⟨rfl, rfl⟩
  · rw [if_neg fun h => hnow (hdue.1 h), if_neg hnow, if_neg hnow, List.append_nil]
    have hcount : (σ.tracker.entry row.1).1 = (σ.tracker.counts.get row.1).getD 0 := rfl
    rw [hcount]
    split <;> exact ⟨rfl, rfl⟩

end Row

/-- The loop over the failures, whose files are distinct: what it does with each depends on the entry before it. -/
theorem foldl_observeRow (threshold : Int) (rows : List (String × PeriodicResolutionFailure))
    (hnd : (rows.map Prod.fst).Nodup) (σ : Observed) :
    let σ' := rows.foldl (observeRow threshold) σ
    (∀ path, σ'.tracker.entry path =
        if path ∈ rows.map Prod.fst then bump threshold (σ.tracker.entry path) else σ.tracker.entry path) ∧
      σ'.toReport = σ.toReport ++ (rows.filter fun row => dueAt threshold (σ.tracker.entry row.1)).map Prod.snd ∧
      σ'.log = σ.log ++ rows.map fun row => lineAt threshold (σ.tracker.entry row.1) row.2 := by
  induction rows generalizing σ with
  | nil => simp
  | cons row rows ih =>
      rw [List.map_cons, List.nodup_cons] at hnd
      obtain ⟨hentry, hreport, hlog⟩ := ih hnd.2 (observeRow threshold σ row)
      obtain ⟨hreport1, hlog1⟩ := observeRow_replies threshold σ row
      -- the rows behind find their entries as they were
      have hsame : ∀ row' ∈ rows, (observeRow threshold σ row).tracker.entry row'.1 = σ.tracker.entry row'.1 := by
        intro row' hrow'
        rw [observeRow_entry, if_neg]
        intro heq
        exact hnd.1 (heq ▸ List.mem_map_of_mem hrow')
      rw [List.foldl_cons]
      refine ⟨?_, ?_, ?_⟩
      · intro path
        rw [hentry path, observeRow_entry, List.map_cons]
        by_cases hpath : path = row.1
        · subst hpath
          rw [if_neg hnd.1, if_pos rfl, if_pos List.mem_cons_self]
        · have hmem : path ∈ row.1 :: rows.map Prod.fst ↔ path ∈ rows.map Prod.fst :=
            List.mem_cons.trans (or_iff_right hpath)
          rw [if_neg hpath, if_congr hmem rfl rfl]
      · rw [hreport, hreport1, List.append_assoc,
          List.filter_congr fun row' hrow' => by rw [hsame row' hrow'], List.filter_cons]
        congr 1
        split <;> rfl
      · rw [hlog, hlog1, List.append_assoc, List.map_cons,
          List.map_congr_left fun row' hrow' => by rw [hsame row' hrow']]
        rfl

theorem foldl_moot (keys : List String) (T : Tracker) (path : String) :
    (keys.foldl (fun T key => { counts := T.counts.erase key, reported := T.reported.erase key : Tracker }) T).entry path =
      if path ∈ keys then (0, false) else T.entry path := by
  induction keys generalizing T with
  | nil => simp
  | cons key keys ih =>
      rw [List.foldl_cons, ih]
      by_cases hkey : path = key
      · subst hkey
        simp [Tracker.entry]
      · simp [Tracker.entry, hkey]

/-- A file that fails in a cycle keeps its entry until it is counted, and any other loses it. -/
theorem moot_entry {T : Tracker} {path : String} (failures : List PeriodicResolutionFailure)
    (h : T.counts.get path = none → path ∉ T.reported) :
    (moot (currentOf failures) T).entry path = if failsIn path failures then T.entry path else (0, false) := by
  have hgone : (path ∈ T.counts.keys.filter fun key => !(currentOf failures).has key) ↔
      T.counts.get path ≠ none ∧ failsIn path failures = false := by
    rw [List.mem_filter, Table.mem_keys, has_currentOf, Bool.not_eq_true']
  unfold moot
  rw [foldl_moot]
  cases hfails : failsIn path failures with
  | true =>
      rw [if_pos rfl, if_neg]
      intro hmem
      rw [(hgone.1 hmem).2] at hfails
      cases hfails
  | false =>
      rw [if_neg Bool.false_ne_true]
      split
      case isTrue => rfl
      case isFalse hmem =>
        -- it was not counted either
        have hnone : T.counts.get path = none := not_not.1 fun hget => hmem (hgone.2 ⟨hget, hfails⟩)
        simp [Tracker.entry, hnone, h hnone]

/-! ## Runs -/

/-- The tracker holds how often in a row each file failed. -/
def Tracks (threshold : Int) (T : Tracker) (cycles : List (List PeriodicResolutionFailure)) : Prop :=
  ∀ path, T.entry path = entryOf threshold (failedInARow path cycles)

section Cycle
variable {threshold : Int} {T : Tracker} {cycles : List (List PeriodicResolutionFailure)}
  {failures : List PeriodicResolutionFailure}

theorem Tracks.empty : Tracks threshold {} [] := by
  intro path
  have hpos := limit_pos threshold
  unfold Tracker.entry entryOf failedInARow
  rw [streak_nil, decide_eq_false (Nat.not_le.2 hpos)]
  rfl

/-- The entries the loop of a cycle starts from. -/
theorem Tracks.moot_entry (h : Tracks threshold T cycles) (path : String) :
    (moot (currentOf failures) T).entry path =
      if failsIn path failures then entryOf threshold (failedInARow path cycles) else (0, false) := by
  rw [ResolutionFailures.moot_entry failures, h path]
  intro hnone
  have hentry := h path
  unfold Tracker.entry entryOf at hentry
  rw [hnone] at hentry
  obtain ⟨hzero, hreported⟩ := Prod.mk.inj hentry
  have hpos := limit_pos threshold
  have hbelow : ¬ limit threshold ≤ failedInARow path cycles := by
    rw [← hzero]
    exact Nat.not_le.2 hpos
  rw [decide_eq_false hbelow] at hreported
  exact of_decide_eq_false hreported

theorem mem_keys_currentOf {path : String} :
    path ∈ (currentOf failures).rows.map Prod.fst ↔ failsIn path failures = true := by
  rw [Table.map_fst_rows, Table.mem_keys, ← has_currentOf, Table.has, Option.isSome_iff_ne_none]

/-- **One cycle.** -/
theorem Tracks.observe (h : Tracks threshold T cycles) :
    Tracks threshold (observe threshold T failures).tracker (cycles ++ [failures]) := by
  intro path
  have hnd : ((currentOf failures).rows.map Prod.fst).Nodup := by
    rw [Table.map_fst_rows]
    exact (currentOf failures).nodup
  unfold ResolutionFailures.observe
  rw [(foldl_observeRow threshold _ hnd _).1 path, h.moot_entry path]
  unfold failedInARow
  cases hfails : failsIn path failures with
  | true => rw [if_pos (mem_keys_currentOf.2 hfails), if_pos rfl, bump_entryOf, streak_snoc_of_pos hfails]
  | false =>
      have hnot : path ∉ (currentOf failures).rows.map Prod.fst := by
        rw [mem_keys_currentOf, hfails]
        exact Bool.false_ne_true
      rw [if_neg hnot, if_neg Bool.false_ne_true, streak_snoc_of_neg hfails, entryOf,
        decide_eq_false (Nat.not_le.2 (limit_pos threshold))]

end Cycle

theorem tracks_trackerAfter (threshold : Int) (cycles : List (List PeriodicResolutionFailure)) :
    Tracks threshold (trackerAfter threshold cycles) cycles := by
  induction cycles using List.reverseRecOn with
  | nil => exact Tracks.empty
  | append_singleton cycles failures ih =>
      unfold trackerAfter
      rw [List.foldl_append]
      exact ih.observe

/-- **What a cycle reports.** After any cycles, the files that failed in this one are gone through once each: those are
    reported whose failures in a row have just come to the threshold, and the log warns of these and of the files that
    fail for the first time. -/
theorem observe_replies (threshold : Int) (cycles : List (List PeriodicResolutionFailure))
    (failures : List PeriodicResolutionFailure) :
    let seen := (currentOf failures).rows.map Prod.snd
    let nth := fun f : PeriodicResolutionFailure => failedInARow f.path (cycles ++ [failures])
    (observe threshold (trackerAfter threshold cycles) failures).toReport =
        seen.filter (fun f => decide (nth f = limit threshold)) ∧
      (observe threshold (trackerAfter threshold cycles) failures).log = seen.map fun f => lineFor threshold f (nth f) := by
  intro seen nth
  have htracks := tracks_trackerAfter threshold cycles
  have hnd : ((currentOf failures).rows.map Prod.fst).Nodup := by
    rw [Table.map_fst_rows]
    exact (currentOf failures).nodup
  obtain ⟨-, hreport, hlog⟩ := foldl_observeRow threshold (currentOf failures).rows hnd
    { tracker := moot (currentOf failures) (trackerAfter threshold cycles) }
  have hrow : ∀ row ∈ (currentOf failures).rows,
      (moot (currentOf failures) (trackerAfter threshold cycles)).entry row.1 =
          entryOf threshold (failedInARow row.1 cycles) ∧
        nth row.2 = failedInARow row.1 cycles + 1 := by
    intro row hrow
    have hfails : failsIn row.1 failures = true := mem_keys_currentOf.1 (List.mem_map_of_mem hrow)
    refine ⟨by rw [htracks.moot_entry, if_pos hfails], ?_⟩
    have hpath : row.2.path = row.1 := path_of_get_currentOf (Table.mem_rows.1 hrow)
    change failedInARow row.2.path (cycles ++ [failures]) = _
    rw [hpath, failedInARow, streak_snoc_of_pos hfails]
    rfl
  refine ⟨hreport.trans ?_, hlog.trans ?_⟩
  · rw [List.nil_append, List.filter_map]
    refine congrArg (List.map Prod.snd) (List.filter_congr fun row hmem => ?_)
    obtain ⟨hentry, hnth⟩ := hrow row hmem
    rw [hentry, dueAt_entryOf, ← hnth]
    rfl
  · rw [List.nil_append, List.map_map]
    refine List.map_congr_left fun row hmem => ?_
    obtain ⟨hentry, hnth⟩ := hrow row hmem
    rw [hentry, lineAt_entryOf, ← hnth]
    rfl

end ResolutionFailures
end Agents
end RobotsixMill
