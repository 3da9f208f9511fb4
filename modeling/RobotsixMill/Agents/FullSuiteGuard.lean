import RobotsixMill.Lib.ShellText

/-!
# `Agents.FullSuiteGuard` — the guard against whole test suites

`run_command` refuses a command that runs pytest over the whole suite. The guard cuts the tokens of the command at
those made of `&`, `|` and `;`, takes the assignments and the launcher off each segment, and looks among the
arguments of pytest for one that selects tests: a flag of a list, or a positional that is no root of the suite.
Eight flags are known to take a value, and three of `uv run`.

- `argsTargeted` — the loop over the arguments;
- `segmentArgs` — the arguments of pytest in a segment, if it runs it;
- `fullSuitePytestSegment` — the first segment that is not targeted.
-/

namespace RobotsixMill
namespace Agents
open Lib

/-- `_PYTEST_TARGETED_FLAGS`. -/
def PYTEST_TARGETED_FLAGS : List String :=
  ["-k", "-m", "--lf", "--last-failed", "--ff", "--failed-first", "--deselect", "--co", "--collect-only", "--version",
    "--help", "-h", "--fixtures", "--markers"]

/-- `_PYTEST_SUITE_ROOTS`. -/
def PYTEST_SUITE_ROOTS : List String := [".", "./", "tests", "tests/", "test", "test/", "src", "src/"]

/-- The flags whose value is taken for no path. -/
def PYTEST_VALUE_FLAGS : List String := ["-p", "-o", "-c", "-W", "--rootdir", "--tb", "-n", "--maxfail"]

/-- The flags of `uv run` whose value is skipped. -/
def UV_RUN_VALUE_FLAGS : List String := ["--with", "--python", "-p"]

def PYTEST_PROGRAMS : List String := ["pytest", "py.test"]

/-- `a.split("=", 1)[0]`. -/
def beforeEquals (a : String) : String := String.ofList (a.toList.takeWhile (· ≠ '='))

def isTargetedFlag (a : String) : Bool :=
  PYTEST_TARGETED_FLAGS.contains a || PYTEST_TARGETED_FLAGS.contains (beforeEquals a)

/-- The loop over the arguments. The first one is the value of a flag if `skip` says so. -/
def argsTargetedFrom (skip : Bool) : List String → Bool
  | [] => false
  | a :: rest =>
    if skip then argsTargetedFrom false rest
    else if isTargetedFlag a then true
    else if startsWith a "-" then argsTargetedFrom (PYTEST_VALUE_FLAGS.contains a) rest
    else if PYTEST_SUITE_ROOTS.contains a then argsTargetedFrom false rest
    else true

/-- `targeted`. -/
def argsTargeted (args : List String) : Bool := argsTargetedFrom false args

/-- `^[A-Za-z_][A-Za-z0-9_]*=`. -/
def isAssignmentText : List Char → Bool
  | [] => false
  | c :: cs =>
    (c.isAlpha || c = '_') && decide ((cs.dropWhile fun d => d.isAlphanum || d = '_').head? = some '=')

/-- The options after `uv run`, and their values. -/
def dropUvOptions (takesValue : String → Bool) (skip : Bool) : List String → List String
  | [] => []
  | a :: rest =>
    if skip then dropUvOptions takesValue false rest
    else if startsWith a "-" then dropUvOptions takesValue (takesValue a) rest
    else a :: rest

/-- The command that `uv run` is given, or else the command itself. -/
def afterUvRun (takesValue : String → Bool) (toks : List String) : List String :=
  if toks.take 2 = ["uv", "run"] then dropUvOptions takesValue false (toks.drop 2) else toks

/-- `rsplit("/", 1)[-1]`. -/
def lastComponent (path : String) : String := String.ofList (path.toList.reverse.takeWhile (· ≠ '/')).reverse

/-- The arguments of pytest, if that is what is launched. -/
def pytestArgs : List String → Option (List String)
  | [] => none
  | tok :: rest =>
    if startsWith (lastComponent tok) "python" then
      match rest with
      | flag :: program :: args => if flag = "-m" ∧ PYTEST_PROGRAMS.contains program then some args else none
      | _ => none
    else if PYTEST_PROGRAMS.contains (lastComponent tok) then some rest
    else none

/-- The arguments of pytest in a segment. -/
def segmentArgs (tokens : List String) : Option (List String) :=
  pytestArgs (afterUvRun UV_RUN_VALUE_FLAGS.contains (tokens.dropWhile fun tok => isAssignmentText tok.toList))

/-- `tok and set(tok) <= set("&|;")`. -/
def isOperatorToken (tok : String) : Bool := decide (tok ≠ "") && tok.toList.all fun c => ['&', '|', ';'].contains c

/-- `re.split(r"&&|\|\||;|\|", command)`. -/
def naiveSplit (cur : List Char) : List Char → List (List Char)
  | [] => [cur]
  | '&' :: '&' :: cs => cur :: naiveSplit [] cs
  | '|' :: '|' :: cs => cur :: naiveSplit [] cs
  | c :: cs => if c = ';' ∨ c = '|' then cur :: naiveSplit [] cs else naiveSplit (cur ++ [c]) cs

/-- `segments`. -/
def guardSegments (command : String) : List (List String) :=
  match shlexTokens command with
  | some all_tokens => all_tokens.splitOnP isOperatorToken
  | none => ((naiveSplit [] command.toList).map String.ofList).filterMap shlexSplit

/-- A segment that runs pytest over the whole suite, as the guard reads it. -/
def runsWholeSuite (tokens : List String) : Bool := (segmentArgs tokens).any fun args => !argsTargeted args

/-- `full_suite_pytest_segment`. -/
def fullSuitePytestSegment (command : String) : Option String :=
  (guardSegments command).findSome? fun tokens =>
    if runsWholeSuite tokens then some (strip (shlexJoin tokens)) else none

example : fullSuitePytestSegment "uv run ruff check . && FOO=1 uv run --frozen pytest -q tests/" =
    some "FOO=1 uv run --frozen pytest -q tests/" := by decide +kernel

theorem fullSuitePytestSegment_eq_none {command : String} :
    fullSuitePytestSegment command = none ↔ ∀ seg ∈ guardSegments command, runsWholeSuite seg = false := by
  unfold fullSuitePytestSegment
  rw [List.findSome?_eq_none_iff]
  refine forall₂_congr fun seg _ => ?_
  cases runsWholeSuite seg with
  | true => exact ⟨fun h => (by cases h), fun h => (by cases h)⟩
  | false => exact ⟨fun _ => rfl, fun _ => rfl⟩

end Agents
end RobotsixMill
