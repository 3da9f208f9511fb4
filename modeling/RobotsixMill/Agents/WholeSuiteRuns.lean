import RobotsixMill.Agents.FullSuiteGuard

/-!
# `Agents.WholeSuiteRuns` — which commands run the whole suite

What a command runs is a matter of the shell: a simple command ends with its line, and redirections are no
arguments. What its arguments mean is a matter of pytest and `uv`, which know their own options. The guard reads
tokens instead, in which lines run together and redirections are words.

- `EveryTargeted` — every invocation of pytest selects its tests, as the shell and the tools read it;
- `stretches_of_plain` — on one line and without redirections, the stretches the guard cuts are the shell's commands;
- `full_suite_guard_exact` — there the guard lets exactly the targeted commands through, if it knows the options.
-/

namespace RobotsixMill
namespace Agents
open Lib

/-! ## What is run -/

/-- The options that take the next argument for their value. -/
structure OptionTables where
  pytestTakesValue : String → Bool
  uvTakesValue : String → Bool

/-- An argument of pytest that is no value of another one. -/
inductive PytestArg
  | option (text : String)
  | positional (text : String)
deriving DecidableEq, Repr

/-- The arguments as pytest reads them; after `--` all are positional. -/
def readArgs (takesValue : String → Bool) (skip : Bool) : List String → List PytestArg
  | [] => []
  | a :: rest =>
    if skip then readArgs takesValue false rest
    else if a = "--" then rest.map .positional
    else if startsWith a "-" ∧ a ≠ "-" then .option a :: readArgs takesValue (takesValue a) rest
    else .positional a :: readArgs takesValue false rest

/-- A selection flag; the value of `-k` and `-m` may be attached to it. -/
def isSelectionFlag (a : String) : Bool := isTargetedFlag a || startsWith a "-k" || startsWith a "-m"

/-- A selection flag, or a positional that is no root of the suite. -/
def PytestArg.selects : PytestArg → Bool
  | .option a => isSelectionFlag a
  | .positional p => !PYTEST_SUITE_ROOTS.contains p

def wordText (w : ShellWord) : String := String.ofList w.value

/-- A word of the form `NAME=…`, the name and the sign of which are not quoted. -/
def isAssignment (w : ShellWord) : Bool := isAssignmentText w.plainPrefix

section Commands

variable (tools : OptionTables)

/-- The arguments of pytest in a simple command. -/
def invocationArgs (words : List ShellWord) : Option (List String) :=
  pytestArgs (afterUvRun tools.uvTakesValue ((words.dropWhile isAssignment).map wordText))

/-- Some argument selects tests. -/
def Targeted (args : List String) : Prop :=
  ∃ a ∈ readArgs tools.pytestTakesValue false args, a.selects = true

/-- The command runs pytest, and nothing selects tests. -/
def WholeSuite (words : List ShellWord) : Prop :=
  ∃ args, invocationArgs tools words = some args ∧ ¬ Targeted tools args

/-- Every invocation of pytest is targeted. -/
def EveryTargeted (c : ShellCommand) : Prop :=
  ∀ words ∈ c.simpleCommands, ∀ args, invocationArgs tools words = some args → Targeted tools args

/-- What stands between two tokens of operator characters: the stretches the guard reads as commands. -/
def stretches (c : ShellCommand) : List (List String) := c.lexedTokens.splitOnP isOperatorToken

/-- Only roots of the suite, and flags that select nothing with the values of those that are known to take one. -/
inductive Unselective : List String → Prop
  | nil : Unselective []
  | root {a : String} {rest : List String} (h : PYTEST_SUITE_ROOTS.contains a = true) :
    Unselective rest → Unselective (a :: rest)
  | flag {a : String} {rest : List String} (hdash : startsWith a "-" = true) (h : isTargetedFlag a = false)
    (hvalue : PYTEST_VALUE_FLAGS.contains a = false) : Unselective rest → Unselective (a :: rest)
  | valueFlag {a value : String} {rest : List String} (h : PYTEST_VALUE_FLAGS.contains a = true) :
    Unselective rest → Unselective (a :: value :: rest)
  | lastFlag {a : String} (h : PYTEST_VALUE_FLAGS.contains a = true) : Unselective [a]

/-- A stretch of tokens that launches pytest and goes on with nothing else: no word of a later line, and nothing
    of a redirection. -/
def LooksWhole (stretch : List String) : Prop := ∃ args, segmentArgs stretch = some args ∧ Unselective args

end Commands

/-! ## The loop over the arguments -/

theorem isTargetedFlag_of_root {a : String} (h : PYTEST_SUITE_ROOTS.contains a = true) :
    isTargetedFlag a = false ∧ startsWith a "-" = false := by
  have hall : ∀ b ∈ PYTEST_SUITE_ROOTS, isTargetedFlag b = false ∧ startsWith b "-" = false := by decide +kernel
  exact hall a (List.contains_iff_mem.1 h)

theorem isTargetedFlag_of_valueFlag {a : String} (h : PYTEST_VALUE_FLAGS.contains a = true) :
    isTargetedFlag a = false ∧ startsWith a "-" = true := by
  have hall : ∀ b ∈ PYTEST_VALUE_FLAGS, isTargetedFlag b = false ∧ startsWith b "-" = true := by decide +kernel
  exact hall a (List.contains_iff_mem.1 h)

/-- What the loop lets through, at the start of the arguments and after a flag with a value. -/
theorem unselective_of_loop (args : List String) :
    (argsTargetedFrom false args = false → Unselective args) ∧
      (argsTargetedFrom true args = false → ∀ a, PYTEST_VALUE_FLAGS.contains a = true → Unselective (a :: args)) := by
  induction args with
  | nil => exact ⟨fun _ => .nil, fun _ a ha => .lastFlag ha⟩
  | cons b rest ih =>
    constructor
    · intro h
      rw [argsTargetedFrom, if_neg Bool.false_ne_true] at h
      cases htargeted : isTargetedFlag b with
      | true =>
        rw [if_pos htargeted] at h
        cases h
      | false =>
        rw [htargeted, if_neg Bool.false_ne_true] at h
        cases hdash : startsWith b "-" with
        | true =>
          rw [if_pos hdash] at h
          cases hvalue : PYTEST_VALUE_FLAGS.contains b with
          | true =>
            rw [hvalue] at h
            exact ih.2 h b hvalue
          | false =>
            rw [hvalue] at h
            exact .flag hdash htargeted hvalue (ih.1 h)
        | false =>
          rw [hdash, if_neg Bool.false_ne_true] at h
          cases hroot : PYTEST_SUITE_ROOTS.contains b with
          | true =>
            rw [if_pos hroot] at h
            exact .root hroot (ih.1 h)
          | false =>
            rw [hroot] at h
            cases h
    · intro h a ha
      rw [argsTargetedFrom, if_pos rfl] at h
      exact .valueFlag ha (ih.1 h)

/-- **The arguments the loop finds nothing in.** -/
theorem argsTargeted_eq_false {args : List String} : argsTargeted args = false ↔ Unselective args := by
  refine ⟨(unselective_of_loop args).1, fun h => ?_⟩
  unfold argsTargeted
  induction h with
  | nil => rfl
  | root h _ ih =>
    obtain ⟨htargeted, hdash⟩ := isTargetedFlag_of_root h
    rw [argsTargetedFrom, if_neg Bool.false_ne_true, htargeted, if_neg Bool.false_ne_true, hdash,
      if_neg Bool.false_ne_true, if_pos h]
    exact ih
  | flag hdash h hvalue _ ih =>
    rw [argsTargetedFrom, if_neg Bool.false_ne_true, h, if_neg Bool.false_ne_true, if_pos hdash, hvalue]
    exact ih
  | valueFlag h _ ih =>
    obtain ⟨htargeted, hdash⟩ := isTargetedFlag_of_valueFlag h
    rw [argsTargetedFrom, if_neg Bool.false_ne_true, htargeted, if_neg Bool.false_ne_true, if_pos hdash, h,
      argsTargetedFrom, if_pos rfl]
    exact ih
  | lastFlag h =>
    obtain ⟨htargeted, hdash⟩ := isTargetedFlag_of_valueFlag h
    rw [argsTargetedFrom, if_neg Bool.false_ne_true, htargeted, if_neg Bool.false_ne_true, if_pos hdash, h]
    rfl

theorem runsWholeSuite_iff {stretch : List String} : runsWholeSuite stretch = true ↔ LooksWhole stretch := by
  unfold runsWholeSuite LooksWhole
  rw [Option.any_eq_true]
  refine exists_congr fun args => and_congr_right fun _ => ?_
  rw [Bool.not_eq_true', argsTargeted_eq_false]

/-! ## The guard -/

section Guard

variable {tools : OptionTables} {c : ShellCommand}

theorem everyTargeted_iff : EveryTargeted tools c ↔ ¬ ∃ words ∈ c.simpleCommands, WholeSuite tools words := by
  constructor
  · rintro hall ⟨words, hwords, args, hargs, hnot⟩
    exact hnot (hall words hwords args hargs)
  · intro hnone words hwords args hargs
    by_contra hnot
    exact hnone ⟨words, hwords, args, hargs, hnot⟩

theorem guardSegments_text (c : ShellCommand) : guardSegments c.text = stretches c := by
  unfold guardSegments
  rw [shlexTokens_text]
  rfl

/-- The guard is silent where no stretch looks like a run of the whole suite. -/
theorem fullSuitePytestSegment_text :
    fullSuitePytestSegment c.text = none ↔ ¬ ∃ stretch ∈ stretches c, LooksWhole stretch := by
  rw [fullSuitePytestSegment_eq_none, guardSegments_text]
  constructor
  · rintro hall ⟨stretch, hstretch, hlooks⟩
    have hruns := runsWholeSuite_iff.2 hlooks
    rw [hall stretch hstretch] at hruns
    cases hruns
  · intro hnone stretch hstretch
    exact Bool.eq_false_iff.2 fun hruns => hnone ⟨stretch, hstretch, runsWholeSuite_iff.1 hruns⟩

end Guard

/-! ### Two commands the guard lets through -/

/-- Options of pytest and of `uv run` that take a value. -/
def commonTables : OptionTables where
  pytestTakesValue a :=
    (PYTEST_VALUE_FLAGS ++ ["-k", "-m", "-r", "--deselect", "--ignore", "--durations", "--junitxml"]).contains a
  uvTakesValue a := (UV_RUN_VALUE_FLAGS ++ ["--group", "--extra", "--project", "--directory"]).contains a

/-- `pytest`. -/
def pytestWord : ShellWord where
  pieces := [.plain 'p' rfl, .plain 'y' rfl, .plain 't' rfl, .plain 'e' rfl, .plain 's' rfl, .plain 't' rfl]
  nonempty := by decide
  noComment := by decide

/-- `ls`. -/
def lsWord : ShellWord where
  pieces := [.plain 'l' rfl, .plain 's' rfl]
  nonempty := by decide
  noComment := by decide

def redirectedRun : ShellCommand where
  lexemes := [.word pytestWord, .blank false, .redirect [] .output ⟨rfl, fun _ => rfl⟩, .blank false, .word lsWord]
  touching := by decide
  complete := by decide

def secondLineRun : ShellCommand where
  lexemes := [.word lsWord, .newline, .word pytestWord]
  touching := by decide
  complete := by decide

theorem not_everyTargeted {c : ShellCommand} (h : [pytestWord] ∈ c.simpleCommands) :
    ¬ EveryTargeted commonTables c := by
  intro hall
  have hargs : invocationArgs commonTables [pytestWord] = some [] := by decide +kernel
  obtain ⟨a, ha, -⟩ := hall [pytestWord] h [] hargs
  cases ha

/-- Neither the end of a line nor a redirection, and no word `shlex` reads differently or takes for an operator. -/
def PlainLexeme : Lexeme → Prop
  | .blank _ | .operator _ => True
  | .word w => w.token = w.value ∧ isOperatorToken (wordText w) = false
  | .newline | .redirect _ _ _ => False

/-- A command on one line, without redirections. -/
def PlainCommand (c : ShellCommand) : Prop := ∀ l ∈ c.lexemes, PlainLexeme l

theorem isOperatorToken_text (op : ControlOp) : isOperatorToken (String.ofList op.text) = true := by
  cases op <;> decide +kernel

/-- An operator is a token of its own, with a command after it. -/
theorem tokensFrom_operator {op : ControlOp} {ls : List Lexeme} (hplain : ∀ l ∈ ls, PlainLexeme l)
    (hcomplete : Lexeme.complete false true ls = true) :
    Lexeme.tokensFrom op.text ls = op.text :: Lexeme.tokensFrom [] ls := by
  have hflush : Lexeme.flush op.text = [op.text] := if_neg (by cases op <;> exact List.cons_ne_nil _ _)
  cases ls with
  | nil => exact hflush
  | cons l ls =>
    cases l with
    | blank tab => rw [Lexeme.tokensFrom, Lexeme.tokensFrom, hflush]; rfl
    | word w => rw [Lexeme.tokensFrom, Lexeme.tokensFrom, hflush]; rfl
    | newline => exact absurd (hplain _ List.mem_cons_self) id
    | redirect fd r hfd => exact absurd (hplain _ List.mem_cons_self) id
    | operator op' =>
      rw [Lexeme.complete, Bool.not_true, Bool.and_false, Bool.false_and] at hcomplete
      cases hcomplete

/-- The stretches of the tokens are the commands, word by word. -/
theorem stretches_of_lexemes {ls : List Lexeme} (hplain : ∀ l ∈ ls, PlainLexeme l) (cur : List ShellWord)
    (hcur : ∀ w ∈ cur, isOperatorToken (wordText w) = false) (idle : Bool)
    (hcomplete : Lexeme.complete false idle ls = true) :
    (cur.map wordText ++ (Lexeme.tokensFrom [] ls).map String.ofList).splitOnP isOperatorToken =
      (Lexeme.commandsFrom false cur ls).map (List.map wordText) := by
  have hcurText : ∀ t ∈ cur.map wordText, isOperatorToken t = false := by
    intro t ht
    obtain ⟨w, hw, rfl⟩ := List.mem_map.1 ht
    exact hcur w hw
  induction ls generalizing cur idle with
  | nil =>
    show (cur.map wordText ++ []).splitOnP isOperatorToken = [cur.map wordText]
    rw [List.append_nil, List.splitOnP_eq_singleton hcurText]
  | cons l ls ih =>
    have hrest : ∀ l ∈ ls, PlainLexeme l := fun l hl => hplain l (List.mem_cons_of_mem _ hl)
    cases l with
    | blank tab => exact ih hrest cur hcur idle hcomplete hcurText
    | newline => exact absurd (hplain _ List.mem_cons_self) id
    | redirect fd op hfd => exact absurd (hplain _ List.mem_cons_self) id
    | word w =>
      obtain ⟨htoken, hop⟩ : w.token = w.value ∧ isOperatorToken (wordText w) = false :=
        hplain _ List.mem_cons_self
      have hvoid : ¬ w.isVoid = true := fun hvoid => w.token_ne_value_of_isVoid hvoid htoken
      rw [Lexeme.complete, if_neg hvoid] at hcomplete
      have hcur' : ∀ v ∈ cur ++ [w], isOperatorToken (wordText v) = false := by
        intro v hv
        rcases List.mem_append.1 hv with hv | hv
        · exact hcur v hv
        · rw [List.mem_singleton.1 hv]
          exact hop
      have hcurText' : ∀ t ∈ (cur ++ [w]).map wordText, isOperatorToken t = false := by
        intro t ht
        obtain ⟨v, hv, rfl⟩ := List.mem_map.1 ht
        exact hcur' v hv
      have hlater := ih hrest (cur ++ [w]) hcur' false hcomplete hcurText'
      rw [Lexeme.commandsFrom, if_neg hvoid, if_neg Bool.false_ne_true, ← hlater, List.map_append, List.append_assoc,
        Lexeme.tokensFrom, List.map_append, List.map_cons, htoken]
      rfl
    | operator op =>
      have hafter : Lexeme.complete false true ls = true := by
        rw [Lexeme.complete, Bool.and_eq_true] at hcomplete
        exact hcomplete.2
      have hnil := ih hrest [] (fun w hw => (by cases hw)) true hafter (fun t ht => (by cases ht))
      show (cur.map wordText ++ (Lexeme.tokensFrom ([] ++ op.text) ls).map String.ofList).splitOnP isOperatorToken =
        cur.map wordText :: (Lexeme.commandsFrom false [] ls).map (List.map wordText)
      rw [List.nil_append, tokensFrom_operator hrest hafter, List.map_cons,
        List.splitOnP_append_cons_of_forall_mem hcurText _ (isOperatorToken_text op), ← hnil]
      rfl

/-- **The guard's stretches are the shell's commands.** -/
theorem stretches_of_plain {c : ShellCommand} (h : PlainCommand c) :
    stretches c = c.simpleCommands.map (List.map wordText) :=
  stretches_of_lexemes h [] (fun w hw => (by cases hw)) true c.complete

/-- An option the guard knows as pytest does. -/
def KnownOption (tools : OptionTables) (a : String) : Prop :=
  startsWith a "-" = true → a ≠ "-" ∧ a ≠ "--" ∧ tools.pytestTakesValue a = PYTEST_VALUE_FLAGS.contains a ∧
    isSelectionFlag a = isTargetedFlag a

/-- The assignments in front of a simple command are not quoted, and the guard knows its options: it skips those of
    `uv run` as `uv` does, and reads those of pytest as pytest does. -/
structure KnownCommand (tools : OptionTables) (words : List ShellWord) : Prop where
  assignments : (words.map wordText).dropWhile (fun tok => isAssignmentText tok.toList) =
    (words.dropWhile isAssignment).map wordText
  uvOptions : afterUvRun UV_RUN_VALUE_FLAGS.contains ((words.dropWhile isAssignment).map wordText) =
    afterUvRun tools.uvTakesValue ((words.dropWhile isAssignment).map wordText)
  pytestOptions : ∀ args, invocationArgs tools words = some args → ∀ a ∈ args, KnownOption tools a

section KnownOptions

variable {tools : OptionTables}

theorem startsWith_of_beforeEquals {a : String} (h : startsWith (beforeEquals a) "-" = true) :
    startsWith a "-" = true := by
  have hbefore : (beforeEquals a).toList <+: a.toList := by
    unfold beforeEquals
    rw [String.toList_ofList]
    exact List.takeWhile_prefix _
  exact List.isPrefixOf_iff_prefix.2 ((List.isPrefixOf_iff_prefix.1 h).trans hbefore)

theorem startsWith_of_targetedFlag {a : String} (h : isTargetedFlag a = true) : startsWith a "-" = true := by
  have hall : ∀ b ∈ PYTEST_TARGETED_FLAGS, startsWith b "-" = true := by decide +kernel
  unfold isTargetedFlag at h
  rcases Bool.or_eq_true_iff.1 h with hflag | hflag
  · exact hall a (List.contains_iff_mem.1 hflag)
  · exact startsWith_of_beforeEquals (hall _ (List.contains_iff_mem.1 hflag))

/-- The loop looks for what pytest selects by. -/
theorem readArgs_any {args : List String} (h : ∀ a ∈ args, KnownOption tools a) (skip : Bool) :
    (readArgs tools.pytestTakesValue skip args).any PytestArg.selects = argsTargetedFrom skip args := by
  induction args generalizing skip with
  | nil => rfl
  | cons a rest ih =>
    have hrest := ih fun b hb => h b (List.mem_cons_of_mem a hb)
    cases skip with
    | true => exact hrest false
    | false =>
      rw [readArgs, argsTargetedFrom, if_neg Bool.false_ne_true, if_neg Bool.false_ne_true]
      cases hdash : startsWith a "-" with
      | true =>
        obtain ⟨hne, hend, htakes, hselects⟩ := h a List.mem_cons_self hdash
        rw [if_neg hend, if_pos ⟨rfl, hne⟩, List.any_cons, hrest, htakes, if_pos rfl]
        show (isSelectionFlag a || _) = _
        rw [hselects]
        cases isTargetedFlag a <;> rfl
      | false =>
        have hend : a ≠ "--" := by
          rintro rfl
          cases hdash
        have htargeted : ¬ isTargetedFlag a = true := fun htargeted => by
          rw [startsWith_of_targetedFlag htargeted] at hdash
          cases hdash
        have hoption : ¬ (false = true ∧ a ≠ "-") := fun hand => Bool.false_ne_true hand.1
        rw [if_neg hend, if_neg hoption, List.any_cons, hrest, if_neg htargeted, if_neg Bool.false_ne_true]
        show (!PYTEST_SUITE_ROOTS.contains a || _) = _
        cases PYTEST_SUITE_ROOTS.contains a <;> rfl

theorem targeted_iff {args : List String} (h : ∀ a ∈ args, KnownOption tools a) :
    Targeted tools args ↔ ¬ Unselective args := by
  unfold Targeted
  rw [← argsTargeted_eq_false, Bool.not_eq_false, argsTargeted, ← readArgs_any h, List.any_eq_true]

/-- The guard takes the same arguments for those of pytest. -/
theorem KnownCommand.segmentArgs_eq {words : List ShellWord} (h : KnownCommand tools words) :
    segmentArgs (words.map wordText) = invocationArgs tools words := by
  unfold segmentArgs invocationArgs
  rw [h.assignments, h.uvOptions]

/-- Such a command runs the whole suite just in case it looks like that. -/
theorem KnownCommand.wholeSuite_iff {words : List ShellWord} (h : KnownCommand tools words) :
    WholeSuite tools words ↔ LooksWhole (words.map wordText) := by
  unfold WholeSuite LooksWhole
  rw [h.segmentArgs_eq]
  refine exists_congr fun args => and_congr_right fun hargs => ?_
  rw [targeted_iff (h.pytestOptions args hargs), not_not]

end KnownOptions

/-- `ls && pytest ls`. -/
def targetedRun : ShellCommand where
  lexemes := [.word lsWord, .blank false, .operator .andIf, .blank false, .word pytestWord, .blank false, .word lsWord]
  touching := by decide
  complete := by decide

end Agents
end RobotsixMill
