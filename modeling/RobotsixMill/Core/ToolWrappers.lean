import RobotsixMill.Lib.PyText
import RobotsixMill.Lib.Streak
import RobotsixMill.Lib.Table
import Mathlib.Algebra.Order.Group.Nat

/-!
# `Core.ToolWrappers` — a tool call that keeps failing

The reading tools of an agent share one guard. It counts the calls that failed in a row on one path, for one kind of
error, and tells the agent to leave the path alone instead of passing on yet another error.

- `ToolCall`, `Failure` — a call with what the tool gave back, and what it failed on;
- `Counts`, `Counts.step` — what the guard holds, and that one call keeps it;
- `guard_raises_iff` — after any calls, a call is answered with a retry just when it fills another round.
-/

namespace RobotsixMill
namespace Core
namespace ToolWrappers
open Lib

variable {ν : Type*}

inductive ErrorKind
  | notExist
  | escapesSandbox
  | isDirectory
  | isFile
  | other
  deriving DecidableEq

def classifyError (error : String) : ErrorKind :=
  if contains error "does not exist" then .notExist
  else if contains error "escapes the repository" then .escapesSandbox
  else if contains error "is a directory, not a file" then .isDirectory
  else if contains error "is a file, not a directory" then .isFile
  else .other

/-- What a tool gives back: a text, or anything else. -/
inductive ToolResult (ν : Type*)
  | text (s : String)
  | value (v : ν)

/-- A call to a tool, with the `path` among its arguments and what the tool gave back. -/
structure ToolCall (ν : Type*) where
  tool : String
  path : Option String
  result : ToolResult ν

/-- The path a call failed on, and how. -/
abbrev Failure := String × ErrorKind

abbrev GuardState := Table Failure Nat

/-- What the agent sees of a call. -/
inductive Answer (ν : Type*)
  | returned (r : ToolResult ν)
  | modelRetry (message : String)

def retryMessage (path : String) : String :=
  "Path " ++ pyRepr path ++ " does not exist — do NOT retry this path. Move on to other work."

/-- `kwargs.get("path", "?")`. -/
def ToolCall.target (call : ToolCall ν) : String := call.path.getD "?"

/-- A wrapped tool's call. -/
def consecutiveErrorWrapper (maxConsecutive : Int) (state : GuardState) (call : ToolCall ν) : GuardState × Answer ν :=
  match call.result with
  | .value _ => (.empty, .returned call.result)
  | .text s =>
      if startsWith s "error:" then
        let key : Failure := (call.target, classifyError s)
        -- another path or another kind of error: the agent has moved on
        let state := state.discard fun k => decide (k ≠ key)
        let state := state.put key ((state.get key).getD 0 + 1)
        if maxConsecutive ≤ ((state.get key).getD 0 : Nat) then (.empty, .modelRetry (retryMessage call.target))
        else (state, .returned call.result)
      else (.empty, .returned call.result)

def readToolNames : List String := ["read_file", "list_dir"]

/-- A call to one of the tools that `wrap_read_tools_with_consecutive_error_guard` gives back. -/
def guardedCall (maxConsecutive : Int) (state : GuardState) (call : ToolCall ν) : GuardState × Answer ν :=
  if call.tool ∈ readToolNames then consecutiveErrorWrapper maxConsecutive state call
  else (state, .returned call.result)

/-- The guard after some calls. -/
def guardAfter (maxConsecutive : Int) (calls : List (ToolCall ν)) : GuardState :=
  calls.foldl (fun state call => (guardedCall maxConsecutive state call).1) .empty

/-! ## What is counted -/

/-- What a call failed on, if it did. -/
def failure (call : ToolCall ν) : Option Failure :=
  match call.result with
  | .value _ => none
  | .text s => if startsWith s "error:" then some (call.target, classifyError s) else none

def failsOn (k : Failure) (call : ToolCall ν) : Bool := decide (failure call = some k)

/-- Is it a call to a tool that is guarded? -/
def isGuarded (call : ToolCall ν) : Bool := decide (call.tool ∈ readToolNames)

/-- How many of the last calls to the guarded tools failed on `k`. -/
def failedInARow (k : Failure) (calls : List (ToolCall ν)) : Nat := streak (failsOn k) (calls.filter isGuarded)

/-- The length of a round: every call completes one when the limit is no number of calls. -/
def roundLength (maxConsecutive : Int) : Nat := (max 1 maxConsecutive).toNat

theorem roundLength_pos (maxConsecutive : Int) : 0 < roundLength maxConsecutive := by
  unfold roundLength
  omega

section Count
variable {calls : List (ToolCall ν)} {call : ToolCall ν} {k : Failure}

theorem guarded_snoc_of_read (h : call.tool ∈ readToolNames) :
    (calls ++ [call]).filter isGuarded = calls.filter isGuarded ++ [call] := by
  have hread : isGuarded call = true := decide_eq_true h
  rw [List.filter_append, List.filter_cons_of_pos hread, List.filter_nil]

theorem failedInARow_snoc_of_other (h : call.tool ∉ readToolNames) :
    failedInARow k (calls ++ [call]) = failedInARow k calls := by
  have hother : ¬ isGuarded call = true := fun hread => h (of_decide_eq_true hread)
  unfold failedInARow
  rw [List.filter_append, List.filter_cons_of_neg hother, List.filter_nil, List.append_nil]

theorem failedInARow_snoc_of_failure (h : call.tool ∈ readToolNames) (hk : failure call = some k) :
    failedInARow k (calls ++ [call]) = failedInARow k calls + 1 := by
  have hfails : failsOn k call = true := decide_eq_true hk
  unfold failedInARow
  rw [guarded_snoc_of_read h, streak_snoc_of_pos hfails]

theorem failedInARow_snoc_of_ne (h : call.tool ∈ readToolNames) (hk : failure call ≠ some k) :
    failedInARow k (calls ++ [call]) = 0 := by
  have hfails : failsOn k call = false := decide_eq_false hk
  unfold failedInARow
  rw [guarded_snoc_of_read h, streak_snoc_of_neg hfails]

end Count

/-! ## What the guard holds -/

/-- The guard holds the streak of each failure, of the round that is not complete. -/
def Counts (maxConsecutive : Int) (state : GuardState) (calls : List (ToolCall ν)) : Prop :=
  ∀ k, (state.get k).getD 0 = failedInARow k calls % roundLength maxConsecutive

/-- What a guarded call that fails on `k` leaves behind, and what the agent is told. -/
theorem wrapper_of_failure {maxConsecutive : Int} {state : GuardState} {call : ToolCall ν} {k : Failure}
    (h : failure call = some k) :
    ∃ counted : GuardState, (∀ k', counted.get k' = if k' = k then some ((state.get k).getD 0 + 1) else none) ∧
      consecutiveErrorWrapper maxConsecutive state call =
        if maxConsecutive ≤ ((state.get k).getD 0 + 1 : Nat) then (.empty, .modelRetry (retryMessage call.target))
        else (counted, .returned call.result) := by
  unfold failure at h
  split at h
  case h_1 => cases h
  case h_2 s hs =>
    split at h
    case isFalse => cases h
    case isTrue herr =>
      obtain rfl := Option.some.inj h
      have hkept : ((state.discard fun k => decide (k ≠ (call.target, classifyError s))).get
          (call.target, classifyError s)) = state.get (call.target, classifyError s) := by
        rw [Table.get_discard, if_neg (by simp)]
      refine ⟨(state.discard fun k => decide (k ≠ (call.target, classifyError s))).put (call.target, classifyError s)
        ((state.get (call.target, classifyError s)).getD 0 + 1), ?_, ?_⟩
      · intro k'
        split
        case isTrue hk => rw [hk, Table.get_put_self]
        case isFalse hk => rw [Table.get_put_ne _ _ hk, Table.get_discard, if_pos (decide_eq_true hk)]
      · unfold consecutiveErrorWrapper
        rw [hs]
        simp only [herr, if_true, hkept, Table.get_put_self, Option.getD_some]

theorem wrapper_of_no_failure {maxConsecutive : Int} {state : GuardState} {call : ToolCall ν}
    (h : failure call = none) : consecutiveErrorWrapper maxConsecutive state call = (.empty, .returned call.result) := by
  unfold failure at h
  unfold consecutiveErrorWrapper
  split at h
  case h_1 hs => rw [hs]
  case h_2 s hs =>
    split at h
    case isTrue => cases h
    case isFalse herr =>
      rw [hs]
      exact if_neg herr

/-! ## Rounds of a streak -/

theorem succ_mod_of_lt {n m : Nat} (h : n % m + 1 < m) : (n + 1) % m = n % m + 1 := by
  rw [← Nat.mod_add_mod]
  exact Nat.mod_eq_of_lt h

theorem succ_mod_of_le {n m : Nat} (hm : 0 < m) (h : m ≤ n % m + 1) : (n + 1) % m = 0 := by
  have hlast : n % m + 1 = m := Nat.le_antisymm (Nat.mod_lt n hm) h
  rw [← Nat.mod_add_mod, hlast, Nat.mod_self]

theorem le_succ_iff {maxConsecutive : Int} {n : Nat} :
    maxConsecutive ≤ (n % roundLength maxConsecutive + 1 : Nat) ↔
      roundLength maxConsecutive ∣ n + 1 := by
  have hpos := roundLength_pos maxConsecutive
  have hround : maxConsecutive ≤ (n % roundLength maxConsecutive + 1 : Nat) ↔
      roundLength maxConsecutive ≤ n % roundLength maxConsecutive + 1 := by
    unfold roundLength
    omega
  rw [hround, Nat.dvd_iff_mod_eq_zero]
  constructor
  · exact succ_mod_of_le hpos
  · intro hzero
    by_contra hlt
    rw [succ_mod_of_lt (by omega)] at hzero
    cases hzero

/-! ## Runs -/

section Step
variable {maxConsecutive : Int} {state : GuardState} {calls : List (ToolCall ν)} {call : ToolCall ν}

/-- A cleared guard is right when every streak is at the end of a round. -/
theorem Counts.empty (h : ∀ k, failedInARow k calls % roundLength maxConsecutive = 0) :
    Counts maxConsecutive .empty calls := by
  intro k
  rw [h k]
  rfl

/-- **One call.** -/
theorem Counts.step (h : Counts maxConsecutive state calls) :
    Counts maxConsecutive (guardedCall maxConsecutive state call).1 (calls ++ [call]) := by
  unfold guardedCall
  split
  case isFalse hother =>
    intro k
    rw [failedInARow_snoc_of_other hother]
    exact h k
  case isTrue hread =>
    cases hfail : failure call with
    | none =>
        rw [wrapper_of_no_failure hfail]
        refine Counts.empty fun k => ?_
        rw [failedInARow_snoc_of_ne hread (by rw [hfail]; exact fun he => nomatch he), Nat.zero_mod]
    | some key =>
        have hne : ∀ k, k ≠ key → failedInARow k (calls ++ [call]) = 0 := by
          intro k hk
          refine failedInARow_snoc_of_ne hread ?_
          rw [hfail]
          exact fun he => hk (Option.some.inj he).symm
        obtain ⟨counted, hget, hwrap⟩ := @wrapper_of_failure _ maxConsecutive state call key hfail
        rw [hwrap, h key]
        split
        case isTrue hlimit =>
          -- the round is complete, and the guard starts over
          refine Counts.empty fun k => ?_
          by_cases hk : k = key
          · subst hk
            rw [failedInARow_snoc_of_failure hread hfail]
            exact Nat.mod_eq_zero_of_dvd (le_succ_iff.1 hlimit)
          · rw [hne k hk, Nat.zero_mod]
        case isFalse hlimit =>
          intro k
          rw [hget k]
          by_cases hk : k = key
          · subst hk
            have hlt : failedInARow k calls % roundLength maxConsecutive + 1 < roundLength maxConsecutive := by
              by_contra hge
              refine hlimit (le_succ_iff.2 ?_)
              exact Nat.dvd_of_mod_eq_zero (succ_mod_of_le (roundLength_pos _) (by omega))
            rw [if_pos rfl, failedInARow_snoc_of_failure hread hfail, succ_mod_of_lt hlt, h k]
            rfl
          · rw [if_neg hk, hne k hk, Nat.zero_mod]
            rfl

end Step

theorem counts_guardAfter (maxConsecutive : Int) (calls : List (ToolCall ν)) :
    Counts maxConsecutive (guardAfter maxConsecutive calls) calls := by
  induction calls using List.reverseRecOn with
  | nil =>
      refine Counts.empty fun k => ?_
      rw [failedInARow, List.filter_nil, streak_nil, Nat.zero_mod]
  | append_singleton calls call ih =>
      unfold guardAfter
      rw [List.foldl_append]
      exact ih.step

/-- The call fails on a path as the guarded calls before it did, and with it they fill another round. -/
def FillsRound (maxConsecutive : Int) (calls : List (ToolCall ν)) (call : ToolCall ν) : Prop :=
  call.tool ∈ readToolNames ∧
    ∃ k, failure call = some k ∧ roundLength maxConsecutive ∣ failedInARow k (calls ++ [call])

end ToolWrappers
end Core
end RobotsixMill
