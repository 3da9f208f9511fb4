import Mathlib.Data.List.Chain
import RobotsixMill.Lib.Shlex

/-!
# `Lib.ShellText` — simple commands, as a shell and as `shlex` read them

The text of a command is a row of lexemes: blanks, line ends, words, control operators and redirections. A shell
reads simple commands from them, which end at an operator or at the end of a line, and to which redirections add
no word. `shlex` reads one row of tokens. Parentheses, comments and here-documents are left out, and expansions stay
as they are written.

- `ShellCommand` — lexemes that are read one by one, and the redirections and operators of which are complete;
- `ShellCommand.simpleCommands` — the words of each command, for the shell;
- `lexedTokens`, `shlexTokens_text` — the tokens of `shlex`.
-/

namespace RobotsixMill
namespace Lib

/-! ## Words -/

/-- A character that stands for itself outside of quotes. -/
def isPlainChar (c : Char) : Bool :=
  !isShlexSpace c && !isShlexQuote c && !isShlexPunctuation c && decide (c ≠ '\\')

/-- A character, or two, between double quotes. -/
inductive DoubleQuoted
  | char (c : Char) (h : c ≠ '"' ∧ c ≠ '\\')
  | escaped (c : Char)

def DoubleQuoted.text : DoubleQuoted → List Char
  | .char c _ => [c]
  | .escaped c => ['\\', c]

/-- Its value in a shell, where a backslash escapes five characters. -/
def DoubleQuoted.value : DoubleQuoted → List Char
  | .char c _ => [c]
  | .escaped c => if c = '\n' then [] else if ['$', '`', '"', '\\'].contains c then [c] else ['\\', c]

/-- What `shlex` makes of it: the backslash escapes the quote and itself. -/
def DoubleQuoted.token : DoubleQuoted → List Char
  | .char c _ => [c]
  | .escaped c => escapedText (some '"') c

/-- A piece of a word. -/
inductive WordPiece
  | plain (c : Char) (h : isPlainChar c = true)
  | escaped (c : Char)
  | single (cs : List Char) (h : '\'' ∉ cs)
  | double (cs : List DoubleQuoted)

namespace WordPiece

def text : WordPiece → List Char
  | .plain c _ => [c]
  | .escaped c => ['\\', c]
  | .single cs _ => '\'' :: (cs ++ ['\''])
  | .double cs => '"' :: (cs.flatMap DoubleQuoted.text ++ ['"'])

/-- Its value in a shell; an escaped line end is a continuation of the line. -/
def value : WordPiece → List Char
  | .plain c _ => [c]
  | .escaped c => if c = '\n' then [] else [c]
  | .single cs _ => cs
  | .double cs => cs.flatMap DoubleQuoted.value

def token : WordPiece → List Char
  | .plain c _ => [c]
  | .escaped c => [c]
  | .single cs _ => cs
  | .double cs => cs.flatMap DoubleQuoted.token

def isContinuation : WordPiece → Bool
  | .escaped c => decide (c = '\n')
  | _ => false

/-- The character, unless it is protected. -/
def plainChar : WordPiece → Option Char
  | .plain c _ => some c
  | _ => none

end WordPiece

/-- Pieces next to one another. A word does not start a comment. -/
structure ShellWord where
  pieces : List WordPiece
  nonempty : pieces ≠ []
  noComment : ((pieces.dropWhile WordPiece.isContinuation).head?.bind WordPiece.plainChar) ≠ some '#'

namespace ShellWord

def text (w : ShellWord) : List Char := w.pieces.flatMap WordPiece.text

def value (w : ShellWord) : List Char := w.pieces.flatMap WordPiece.value

def token (w : ShellWord) : List Char := w.pieces.flatMap WordPiece.token

/-- Only continuations of the line: no word for a shell. -/
def isVoid (w : ShellWord) : Bool := w.pieces.all WordPiece.isContinuation

/-- `shlex` keeps the continuations a shell removes. -/
theorem token_ne_value_of_isVoid (w : ShellWord) (h : w.isVoid = true) : w.token ≠ w.value := by
  obtain ⟨p, ps, hpieces⟩ := List.exists_cons_of_ne_nil w.nonempty
  unfold isVoid at h
  have hvalue : w.value = [] := by
    unfold value
    rw [List.flatMap_eq_nil_iff]
    intro q hq
    have hq' := List.all_eq_true.1 h q hq
    cases q with
    | escaped c => exact if_pos (of_decide_eq_true hq')
    | plain c hc => cases hq'
    | single cs hcs => cases hq'
    | double cs => cases hq'
  have hp := List.all_eq_true.1 h p (hpieces ▸ List.mem_cons_self)
  rw [hvalue]
  unfold token
  rw [hpieces, List.flatMap_cons]
  cases p with
  | escaped c => exact List.cons_ne_nil _ _
  | plain c hc => cases hp
  | single cs hcs => cases hp
  | double cs => cases hp

/-- The unprotected characters it starts with. -/
def plainPrefix (w : ShellWord) : List Char :=
  ((w.pieces.filter fun p => !p.isContinuation).takeWhile fun p => p.plainChar.isSome).filterMap WordPiece.plainChar

/-- A number, as it stands before a redirection. -/
def isNumber (w : ShellWord) : Bool :=
  (w.pieces.filter fun p => !p.isContinuation).all fun p => p.plainChar.any Char.isDigit

end ShellWord

/-! ## Lexemes -/

inductive ControlOp
  | andIf
  | orIf
  | semi
  | pipe
deriving DecidableEq, Repr

def ControlOp.text : ControlOp → List Char
  | .andIf => ['&', '&']
  | .orIf => ['|', '|']
  | .semi => [';']
  | .pipe => ['|']

inductive RedirectOp
  | input
  | output
  | append
  | clobber
  | readWrite
  | inputFrom
  | outputTo
  | both
  | bothAppend
  | hereString
deriving DecidableEq, Repr

def RedirectOp.text : RedirectOp → List Char
  | .input => ['<']
  | .output => ['>']
  | .append => ['>', '>']
  | .clobber => ['>', '|']
  | .readWrite => ['<', '>']
  | .inputFrom => ['<', '&']
  | .outputTo => ['>', '&']
  | .both => ['&', '>']
  | .bothAppend => ['&', '>', '>']
  | .hereString => ['<', '<', '<']

/-- Standard output and standard error; these take no number. -/
def RedirectOp.isBoth : RedirectOp → Bool
  | .both | .bothAppend => true
  | _ => false

inductive Lexeme
  | blank (tab : Bool)
  | newline
  | word (w : ShellWord)
  | operator (op : ControlOp)
  /-- With the number before it; the target is the next word. -/
  | redirect (fd : List Char) (op : RedirectOp) (h : fd.all Char.isDigit = true ∧ (op.isBoth = true → fd = []))

namespace Lexeme

def text : Lexeme → List Char
  | .blank tab => [if tab then '\t' else ' ']
  | .newline => ['\n']
  | .word w => w.text
  | .operator op => op.text
  | .redirect fd op _ => fd ++ op.text

/-- May the second follow the first directly? Not where a shell would read the two as something else. -/
def mayTouch : Lexeme → Lexeme → Bool
  | .word _, .word _ => false
  | .word w, .redirect fd op _ => fd.isEmpty && !w.isVoid && (op.isBoth || !w.isNumber)
  | .operator _, .operator _ => false
  -- `|&` and `;&` are operators of their own
  | .operator op, .redirect _ r _ => !(r.isBoth && (op = .semi || op = .pipe))
  | .redirect _ _ _, .word _ => true
  | .redirect _ _ _, .blank _ => true
  | .redirect _ _ _, _ => false
  | _, _ => true

/-- Does every redirection have its target, and every operator a command before it? `awaiting` is said of a target,
    `idle` of a command without words so far. -/
def complete (awaiting idle : Bool) : List Lexeme → Bool
  | [] => !awaiting
  | .blank _ :: ls => complete awaiting idle ls
  | .newline :: ls => !awaiting && complete false true ls
  | .word w :: ls => if w.isVoid then complete awaiting idle ls else complete false false ls
  | .operator _ :: ls => !awaiting && !idle && complete false true ls
  | .redirect _ _ _ :: ls => !awaiting && complete true false ls

/-- The simple commands, as words; `cur` are those of the current one. -/
def commandsFrom (awaiting : Bool) (cur : List ShellWord) : List Lexeme → List (List ShellWord)
  | [] => [cur]
  | .blank _ :: ls => commandsFrom awaiting cur ls
  | .newline :: ls => cur :: commandsFrom false [] ls
  | .word w :: ls =>
    if w.isVoid then commandsFrom awaiting cur ls
    else if awaiting then commandsFrom false cur ls
    else commandsFrom false (cur ++ [w]) ls
  | .operator _ :: ls => cur :: commandsFrom false [] ls
  | .redirect _ _ _ :: ls => commandsFrom true cur ls

/-- A token of punctuation, once it has begun. -/
def flush (pending : List Char) : List (List Char) := if pending = [] then [] else [pending]

/-- The tokens `shlex` reads: line ends are blanks, and a redirection is up to two tokens. An operator and a
    redirection that touch are one. -/
def tokensFrom (pending : List Char) : List Lexeme → List (List Char)
  | [] => flush pending
  | .blank _ :: ls => flush pending ++ tokensFrom [] ls
  | .newline :: ls => flush pending ++ tokensFrom [] ls
  | .word w :: ls => flush pending ++ w.token :: tokensFrom [] ls
  | .operator op :: ls => tokensFrom (pending ++ op.text) ls
  | .redirect fd op _ :: ls =>
    if fd = [] then tokensFrom (pending ++ op.text) ls
    else flush pending ++ fd :: tokensFrom op.text ls

end Lexeme

/-- A command made of simple commands. -/
structure ShellCommand where
  lexemes : List Lexeme
  touching : lexemes.IsChain fun a b => a.mayTouch b = true
  complete : Lexeme.complete false true lexemes = true

namespace ShellCommand

def text (c : ShellCommand) : String := String.ofList (c.lexemes.flatMap Lexeme.text)

/-- The words of each simple command; empty lines have none. -/
def simpleCommands (c : ShellCommand) : List (List ShellWord) := Lexeme.commandsFrom false [] c.lexemes

def lexedTokens (c : ShellCommand) : List String := (Lexeme.tokensFrom [] c.lexemes).map String.ofList

end ShellCommand

/-! ## What `shlex` reads -/

section Reading

variable {tok : List Char} {cs : List Char}

/-- The state of the reader before a lexeme: nothing, or a token of punctuation. -/
def lexState (pending : List Char) : Option (LexState × List Char) :=
  if pending = [] then none else some (.punctuation, pending)

theorem lexFrom_single (h : '\'' ∉ cs) (tok rest : List Char) :
    lexFrom isShlexPunctuation (some (.quoted '\'', tok)) (cs ++ '\'' :: rest) =
      lexFrom isShlexPunctuation (some (.word, tok ++ cs)) rest := by
  induction cs generalizing tok with
  | nil =>
    rw [List.append_nil, List.nil_append, lexFrom_quoted_cons, if_pos rfl]
  | cons c cs ih =>
    have hc : c ≠ '\'' := fun heq => h (heq ▸ List.mem_cons_self)
    have hq : ¬ (c = '\\' ∧ '\'' = '"') := fun hand => absurd hand.2 (by decide)
    rw [List.cons_append, lexFrom_quoted_cons, if_neg hc, if_neg hq, ih (fun hmem => h (List.mem_cons_of_mem c hmem)),
      List.append_assoc, List.singleton_append]

theorem lexFrom_double (ds : List DoubleQuoted) (tok rest : List Char) :
    lexFrom isShlexPunctuation (some (.quoted '"', tok)) (ds.flatMap DoubleQuoted.text ++ '"' :: rest) =
      lexFrom isShlexPunctuation (some (.word, tok ++ ds.flatMap DoubleQuoted.token)) rest := by
  induction ds generalizing tok with
  | nil =>
    rw [List.flatMap_nil, List.flatMap_nil, List.append_nil, List.nil_append, lexFrom_quoted_cons, if_pos rfl]
  | cons d ds ih =>
    rw [List.flatMap_cons, List.flatMap_cons, List.append_assoc, ← List.append_assoc tok, ← ih]
    cases d with
    | char c h =>
      have hslash : ¬ (c = '\\' ∧ '"' = '"') := fun hand => h.2 hand.1
      show lexFrom isShlexPunctuation (some (.quoted '"', tok)) (c :: (_ ++ _)) = _
      rw [lexFrom_quoted_cons, if_neg h.1, if_neg hslash]
      rfl
    | escaped c =>
      show lexFrom isShlexPunctuation (some (.quoted '"', tok)) ('\\' :: c :: (_ ++ _)) = _
      rw [lexFrom_quoted_cons, if_neg (by decide), if_pos ⟨rfl, rfl⟩, lexFrom_escaped_cons]
      rfl

/-- A plain character is an ordinary one for `shlex` too. -/
theorem isPlainChar_iff {c : Char} : isPlainChar c = true ↔
    isShlexSpace c = false ∧ isShlexQuote c = false ∧ isShlexPunctuation c = false ∧ c ≠ '\\' := by
  unfold isPlainChar
  rw [Bool.and_eq_true, Bool.and_eq_true, Bool.and_eq_true, Bool.not_eq_true', Bool.not_eq_true', Bool.not_eq_true',
    decide_eq_true_iff, and_assoc, and_assoc]

/-- A piece within a word. -/
theorem lexFrom_piece (p : WordPiece) (tok rest : List Char) :
    lexFrom isShlexPunctuation (some (.word, tok)) (p.text ++ rest) =
      lexFrom isShlexPunctuation (some (.word, tok ++ p.token)) rest := by
  cases p with
  | plain c h =>
    obtain ⟨hspace, hquote, hpunct, hslash⟩ := isPlainChar_iff.1 h
    show lexFrom isShlexPunctuation (some (.word, tok)) (c :: rest) = _
    rw [lexFrom_word_cons, hspace, hquote, hpunct, if_neg Bool.false_ne_true, if_neg Bool.false_ne_true, if_neg hslash,
      if_neg Bool.false_ne_true]
    rfl
  | escaped c =>
    show lexFrom isShlexPunctuation (some (.word, tok)) ('\\' :: c :: rest) = _
    rw [lexFrom_word_cons, if_neg (by decide), if_neg (by decide), if_pos rfl, lexFrom_escaped_cons]
    rfl
  | single cs h =>
    show lexFrom isShlexPunctuation (some (.word, tok)) ('\'' :: ((cs ++ ['\'']) ++ rest)) = _
    rw [lexFrom_word_cons, if_neg (by decide), if_pos (by decide), List.append_assoc]
    exact lexFrom_single h tok rest
  | double ds =>
    show lexFrom isShlexPunctuation (some (.word, tok)) ('"' :: ((ds.flatMap DoubleQuoted.text ++ ['"']) ++ rest)) = _
    rw [lexFrom_word_cons, if_neg (by decide), if_pos (by decide), List.append_assoc]
    exact lexFrom_double ds tok rest

/-- A piece starts with neither a blank nor punctuation. -/
theorem WordPiece.text_eq_cons (p : WordPiece) :
    ∃ c cs, p.text = c :: cs ∧ isShlexSpace c = false ∧ isShlexPunctuation c = false := by
  cases p with
  | plain c h =>
    obtain ⟨hspace, -, hpunct, -⟩ := isPlainChar_iff.1 h
    exact ⟨c, [], rfl, hspace, hpunct⟩
  | escaped c => exact ⟨'\\', [c], rfl, by decide, by decide⟩
  | single cs h => exact ⟨'\'', cs ++ ['\''], rfl, by decide, by decide⟩
  | double ds => exact ⟨'"', ds.flatMap DoubleQuoted.text ++ ['"'], rfl, by decide, by decide⟩

/-- A word is opened as if it went on. -/
theorem lexFrom_open {c : Char} (hspace : isShlexSpace c = false) (hpunct : isShlexPunctuation c = false) :
    lexFrom isShlexPunctuation none (c :: cs) = lexFrom isShlexPunctuation (some (.word, [])) (c :: cs) := by
  rw [lexFrom_none_cons, lexFrom_word_cons, hspace, hpunct, if_neg Bool.false_ne_true, if_neg Bool.false_ne_true,
    if_neg Bool.false_ne_true]
  unfold openState openToken
  rw [hpunct, if_neg Bool.false_ne_true, if_neg Bool.false_ne_true]
  by_cases hslash : c = '\\'
  · subst hslash
    rfl
  · rw [if_neg hslash, if_neg hslash, if_neg hslash]
    cases isShlexQuote c <;> rfl

theorem lexFrom_pieces (ps : List WordPiece) (tok rest : List Char) :
    lexFrom isShlexPunctuation (some (.word, tok)) (ps.flatMap WordPiece.text ++ rest) =
      lexFrom isShlexPunctuation (some (.word, tok ++ ps.flatMap WordPiece.token)) rest := by
  induction ps generalizing tok with
  | nil => rw [List.flatMap_nil, List.flatMap_nil, List.append_nil, List.nil_append]
  | cons p ps ih =>
    rw [List.flatMap_cons, List.flatMap_cons, List.append_assoc, lexFrom_piece, ih, List.append_assoc]

/-- A word starts with neither a blank nor punctuation. -/
theorem ShellWord.text_eq_cons (w : ShellWord) :
    ∃ c cs, w.text = c :: cs ∧ isShlexSpace c = false ∧ isShlexPunctuation c = false := by
  obtain ⟨p, ps, hpieces⟩ := List.exists_cons_of_ne_nil w.nonempty
  obtain ⟨c, cs, htext, hspace, hpunct⟩ := p.text_eq_cons
  refine ⟨c, cs ++ ps.flatMap WordPiece.text, ?_, hspace, hpunct⟩
  unfold ShellWord.text
  rw [hpieces, List.flatMap_cons, htext, List.cons_append]

theorem lexFrom_word (w : ShellWord) (rest : List Char) :
    lexFrom isShlexPunctuation none (w.text ++ rest) = lexFrom isShlexPunctuation (some (.word, w.token)) rest := by
  obtain ⟨c, cs, htext, hspace, hpunct⟩ := w.text_eq_cons
  rw [htext, List.cons_append, lexFrom_open hspace hpunct, ← List.cons_append, ← htext]
  exact lexFrom_pieces w.pieces [] rest

theorem isPlainChar_of_isDigit {c : Char} (h : c.isDigit = true) : isPlainChar c = true := by
  have hne : ∀ d : Char, d.isDigit = false → (c = d) = False := by
    intro d hd
    refine eq_false fun heq => ?_
    rw [heq, hd] at h
    cases h
  simp [isPlainChar, isShlexSpace, isShlexQuote, isShlexPunctuation, hne ' ' rfl, hne '\t' rfl, hne '\r' rfl,
    hne '\n' rfl, hne '\'' rfl, hne '"' rfl, hne '(' rfl, hne ')' rfl, hne ';' rfl, hne '<' rfl, hne '>' rfl,
    hne '|' rfl, hne '&' rfl, hne '\\' rfl]

theorem lexFrom_plain {ds : List Char} (h : ∀ c ∈ ds, isPlainChar c = true) (tok rest : List Char) :
    lexFrom isShlexPunctuation (some (.word, tok)) (ds ++ rest) =
      lexFrom isShlexPunctuation (some (.word, tok ++ ds)) rest := by
  induction ds generalizing tok with
  | nil => rw [List.append_nil, List.nil_append]
  | cons c ds ih =>
    rw [List.cons_append]
    have hstep := lexFrom_piece (.plain c (h c List.mem_cons_self)) tok (ds ++ rest)
    refine hstep.trans ?_
    rw [ih (fun d hd => h d (List.mem_cons_of_mem c hd)), List.append_assoc]
    rfl

/-- A number is a word of plain characters. -/
theorem lexFrom_number {fd : List Char} (hne : fd ≠ []) (h : fd.all Char.isDigit = true) (rest : List Char) :
    lexFrom isShlexPunctuation none (fd ++ rest) = lexFrom isShlexPunctuation (some (.word, fd)) rest := by
  have hplain : ∀ c ∈ fd, isPlainChar c = true := fun c hc => isPlainChar_of_isDigit (List.all_eq_true.1 h c hc)
  obtain ⟨c, ds, rfl⟩ := List.exists_cons_of_ne_nil hne
  obtain ⟨hspace, -, hpunct, -⟩ := isPlainChar_iff.1 (hplain c List.mem_cons_self)
  rw [List.cons_append, lexFrom_open hspace hpunct, ← List.cons_append]
  exact lexFrom_plain hplain [] rest

/-! ### Punctuation, and the ends of tokens -/

theorem isShlexSpace_of_punctuation {c : Char} (h : isShlexPunctuation c = true) :
    isShlexSpace c = false ∧ isShlexQuote c = false ∧ c ≠ '\\' := by
  have hmem : c ∈ ['(', ')', ';', '<', '>', '|', '&'] := List.contains_iff_mem.1 h
  have hall : ['(', ')', ';', '<', '>', '|', '&'].all
      (fun d => !isShlexSpace d && !isShlexQuote d && d != '\\') = true := by decide
  have hc := List.all_eq_true.1 hall c hmem
  rw [Bool.and_eq_true, Bool.and_eq_true, Bool.not_eq_true', Bool.not_eq_true', bne_iff_ne] at hc
  exact ⟨hc.1.1, hc.1.2, hc.2⟩

theorem lexFrom_punctuation {op : List Char} (hop : op.all isShlexPunctuation = true) (pending rest : List Char) :
    lexFrom isShlexPunctuation (lexState pending) (op ++ rest) =
      lexFrom isShlexPunctuation (lexState (pending ++ op)) rest := by
  induction op generalizing pending with
  | nil => rw [List.append_nil, List.nil_append]
  | cons c op ih =>
    rw [List.all_cons, Bool.and_eq_true] at hop
    obtain ⟨hspace, -, hslash⟩ := isShlexSpace_of_punctuation hop.1
    have hstep : lexFrom isShlexPunctuation (lexState pending) (c :: (op ++ rest)) =
        lexFrom isShlexPunctuation (lexState (pending ++ [c])) (op ++ rest) := by
      unfold lexState
      rw [if_neg (List.append_ne_nil_of_right_ne_nil pending (List.cons_ne_nil c []))]
      by_cases hp : pending = []
      · subst hp
        rw [if_pos rfl, lexFrom_none_cons, hspace, if_neg Bool.false_ne_true]
        unfold openState openToken
        rw [if_neg hslash, if_neg hslash, if_pos hop.1, if_pos hop.1]
        rfl
      · rw [if_neg hp, lexFrom_punctuation_cons, hspace, if_neg Bool.false_ne_true, if_pos hop.1]
    rw [List.cons_append, hstep, ih hop.2, List.append_assoc, List.singleton_append]

theorem not_punctuation_of_space {c : Char} (h : isShlexSpace c = true) : isShlexPunctuation c = false := by
  cases hpunct : isShlexPunctuation c with
  | false => rfl
  | true =>
    rw [(isShlexSpace_of_punctuation hpunct).1] at h
    cases h

/-- A token of punctuation is finished where none follows. -/
theorem lexFrom_flush (pending : List Char) (h : ∀ c ∈ cs.head?, isShlexPunctuation c = false) :
    lexFrom isShlexPunctuation (lexState pending) cs =
      (lexFrom isShlexPunctuation none cs).map (Lexeme.flush pending ++ ·) := by
  unfold lexState Lexeme.flush
  by_cases hp : pending = []
  · rw [if_pos hp, if_pos hp]
    exact Option.map_id'.symm
  · rw [if_neg hp, if_neg hp]
    cases cs with
    | nil => rfl
    | cons c cs =>
      rw [lexFrom_punctuation_cons, lexFrom_none_cons, h c rfl, if_neg Bool.false_ne_true]
      cases isShlexSpace c <;> rfl

theorem lexFrom_space {c : Char} (h : isShlexSpace c = true) (pending : List Char) :
    lexFrom isShlexPunctuation (lexState pending) (c :: cs) =
      (lexFrom isShlexPunctuation none cs).map (Lexeme.flush pending ++ ·) := by
  have hhead : ∀ d ∈ (c :: cs).head?, isShlexPunctuation d = false := by
    intro d hd
    obtain rfl := Option.some.inj hd
    exact not_punctuation_of_space h
  rw [lexFrom_flush pending hhead, lexFrom_none_cons, if_pos h]

/-- A word is finished where a blank or punctuation follows. -/
theorem lexFrom_endWord (tok : List Char)
    (h : ∀ c ∈ cs.head?, isShlexSpace c = true ∨ isShlexPunctuation c = true) :
    lexFrom isShlexPunctuation (some (.word, tok)) cs =
      (lexFrom isShlexPunctuation none cs).map (tok :: ·) := by
  cases cs with
  | nil => rfl
  | cons c cs =>
    rw [lexFrom_word_cons, lexFrom_none_cons]
    rcases h c rfl with hspace | hpunct
    · rw [if_pos hspace, if_pos hspace]
    · obtain ⟨hspace, hquote, hslash⟩ := isShlexSpace_of_punctuation hpunct
      rw [hspace, hquote, hpunct, if_neg Bool.false_ne_true, if_neg Bool.false_ne_true, if_neg hslash, if_pos rfl,
        if_neg Bool.false_ne_true]
      unfold openState openToken
      rw [hpunct, if_neg hslash, if_neg hslash]
      rfl

end Reading

/-! ### A whole command -/

theorem ControlOp.text_all (op : ControlOp) : op.text.all isShlexPunctuation = true := by cases op <;> decide

theorem RedirectOp.text_all (op : RedirectOp) : op.text.all isShlexPunctuation = true := by cases op <;> decide

namespace Lexeme

/-- What ends a word. -/
def endsWord : Lexeme → Bool
  | .word _ => false
  | .redirect fd _ _ => fd.isEmpty
  | _ => true

theorem endsWord_of_mayTouch {w : ShellWord} {l : Lexeme} (h : (Lexeme.word w).mayTouch l = true) :
    l.endsWord = true := by
  cases l with
  | word w' => cases h
  | redirect fd op hfd =>
    unfold mayTouch at h
    rw [Bool.and_eq_true, Bool.and_eq_true] at h
    exact h.1.1
  | blank tab => rfl
  | newline => rfl
  | operator op => rfl

theorem head_of_endsWord {l : Lexeme} (h : l.endsWord = true) (rest : List Char) :
    ∀ c ∈ (l.text ++ rest).head?, isShlexSpace c = true ∨ isShlexPunctuation c = true := by
  cases l with
  | word w => cases h
  | blank tab =>
    intro c hc
    cases tab <;> obtain rfl := Option.some.inj hc <;> exact .inl (by decide)
  | newline =>
    intro c hc
    obtain rfl := Option.some.inj hc
    exact .inl (by decide)
  | operator op =>
    intro c hc
    cases op <;> obtain rfl := Option.some.inj hc <;> exact .inr (by decide)
  | redirect fd op hfd =>
    obtain rfl := List.isEmpty_iff.1 h
    intro c hc
    cases op <;> obtain rfl := Option.some.inj hc <;> exact .inr (by decide)

/-- **The tokens of a row of lexemes**, after some punctuation. -/
theorem lexFrom_text {ls : List Lexeme} (htouch : ls.IsChain fun a b => a.mayTouch b = true) (pending : List Char) :
    lexFrom isShlexPunctuation (lexState pending) (ls.flatMap text) = some (tokensFrom pending ls) := by
  induction ls generalizing pending with
  | nil =>
    unfold lexState tokensFrom flush
    by_cases hp : pending = []
    · rw [if_pos hp, if_pos hp]
      rfl
    · rw [if_neg hp, if_neg hp]
      rfl
  | cons l ls ih =>
    have hrest := ih htouch.tail
    rw [List.flatMap_cons]
    cases l with
    | blank tab =>
      have hspace : isShlexSpace (if tab then '\t' else ' ') = true := by cases tab <;> decide
      show lexFrom isShlexPunctuation (lexState pending) ((if tab then '\t' else ' ') :: ls.flatMap text) = _
      rw [lexFrom_space hspace]
      exact congrArg (Option.map _) (hrest [])
    | newline =>
      show lexFrom isShlexPunctuation (lexState pending) ('\n' :: ls.flatMap text) = _
      rw [lexFrom_space (by decide)]
      exact congrArg (Option.map _) (hrest [])
    | word w =>
      have hend : ∀ c ∈ (ls.flatMap text).head?, isShlexSpace c = true ∨ isShlexPunctuation c = true := by
        cases ls with
        | nil => exact fun c hc => (by cases hc)
        | cons l ls =>
          rw [List.flatMap_cons]
          exact head_of_endsWord (endsWord_of_mayTouch (List.isChain_cons_cons.1 htouch).1) _
      have hstart : ∀ c ∈ (w.text ++ ls.flatMap text).head?, isShlexPunctuation c = false := by
        obtain ⟨d, ds, htext, -, hpunct⟩ := w.text_eq_cons
        intro c hc
        rw [htext] at hc
        obtain rfl := Option.some.inj hc
        exact hpunct
      show lexFrom isShlexPunctuation (lexState pending) (w.text ++ ls.flatMap text) = _
      rw [lexFrom_flush pending hstart, lexFrom_word, lexFrom_endWord w.token hend]
      exact congrArg (Option.map _) (congrArg (Option.map _) (hrest []))
    | operator op =>
      show lexFrom isShlexPunctuation (lexState pending) (op.text ++ ls.flatMap text) = _
      rw [lexFrom_punctuation op.text_all]
      exact hrest _
    | redirect fd op hfd =>
      show lexFrom isShlexPunctuation (lexState pending) ((fd ++ op.text) ++ ls.flatMap text) = _
      by_cases hnone : fd = []
      · subst hnone
        rw [List.nil_append, lexFrom_punctuation op.text_all, hrest]
        rfl
      · have hend := head_of_endsWord (l := .redirect [] op ⟨rfl, fun _ => rfl⟩) rfl (ls.flatMap text)
        have hstart : ∀ c ∈ (fd ++ (op.text ++ ls.flatMap text)).head?, isShlexPunctuation c = false := by
          obtain ⟨d, ds, rfl⟩ := List.exists_cons_of_ne_nil hnone
          intro c hc
          obtain rfl := Option.some.inj hc
          exact (isPlainChar_iff.1 (isPlainChar_of_isDigit (List.all_eq_true.1 hfd.1 d List.mem_cons_self))).2.2.1
        have hop : lexFrom isShlexPunctuation none (op.text ++ ls.flatMap text) = some (tokensFrom op.text ls) :=
          (lexFrom_punctuation op.text_all [] _).trans (hrest _)
        have hnumber : lexFrom isShlexPunctuation (some (.word, fd)) (op.text ++ ls.flatMap text) =
            (lexFrom isShlexPunctuation none (op.text ++ ls.flatMap text)).map (fd :: ·) := lexFrom_endWord fd hend
        rw [List.append_assoc, lexFrom_flush pending hstart, lexFrom_number hnone hfd.1, hnumber, hop, tokensFrom,
          if_neg hnone]
        rfl

end Lexeme

/-- **`shlex` reads the tokens of a command**, and is never at a loss for a quotation. -/
theorem shlexTokens_text (c : ShellCommand) : shlexTokens c.text = some c.lexedTokens := by
  unfold shlexTokens ShellCommand.text ShellCommand.lexedTokens
  rw [String.toList_ofList]
  exact congrArg (Option.map _) (Lexeme.lexFrom_text c.touching [])

end Lib
end RobotsixMill
