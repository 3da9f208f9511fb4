import RobotsixMill.Lib.PyText

/-!
# `Lib.Shlex` — a shell-like tokenizer

`shlex` reads a command in the manner of a shell: words are split at blanks, quotes and backslashes protect
characters, and, where they are asked for, the punctuation characters of a shell form tokens of their own. Unlike
a shell it takes the end of a line for a blank.

- `lexFrom` — the reader, state by state, in POSIX mode and without comments;
- `shlexSplit`, `shlexTokens` — without punctuation, and with the default one;
- `shlexJoin` — tokens written so that a shell reads them back.
-/

namespace RobotsixMill
namespace Lib

/-- `shlex.whitespace`. -/
def isShlexSpace (c : Char) : Bool := c = ' ' || c = '\t' || c = '\r' || c = '\n'

/-- `shlex.quotes`. -/
def isShlexQuote (c : Char) : Bool := c = '\'' || c = '"'

/-- The default of `punctuation_chars`. -/
def isShlexPunctuation (c : Char) : Bool := ['(', ')', ';', '<', '>', '|', '&'].contains c

/-- `shlex.state` within a token. -/
inductive LexState
  | word
  | punctuation
  | quoted (q : Char)
  /-- After a backslash, outside or inside of quotes. -/
  | escaped (inside : Option Char)
deriving DecidableEq, Repr

/-- Where a backslash leads back to. -/
def afterEscape : Option Char → LexState
  | none => .word
  | some q => .quoted q

/-- What a backslash and the character after it stand for. -/
def escapedText (inside : Option Char) (c : Char) : List Char :=
  match inside with
  | none => [c]
  | some q => if c = '\\' ∨ c = q then [c] else ['\\', c]

section Reader

variable (punct : Char → Bool)

/-- The state the first character of a token leads to. -/
def openState (c : Char) : LexState :=
  if c = '\\' then .escaped none
  else if punct c then .punctuation
  else if isShlexQuote c then .quoted c
  else .word

/-- What that character contributes to the token. -/
def openToken (c : Char) : List Char :=
  if c = '\\' then [] else if punct c then [c] else if isShlexQuote c then [] else [c]

/-- `shlex.read_token`, again and again: `none` before a token, and the token so far within one. A quotation or
    an escape that is not finished is an error. -/
def lexFrom : Option (LexState × List Char) → List Char → Option (List (List Char))
  | none, [] => some []
  | some (.word, tok), [] => some [tok]
  | some (.punctuation, tok), [] => some [tok]
  | some (.quoted _, _), [] => none
  | some (.escaped _, _), [] => none
  | none, c :: cs =>
    if isShlexSpace c then lexFrom none cs else lexFrom (some (openState punct c, openToken punct c)) cs
  | some (.word, tok), c :: cs =>
    if isShlexSpace c then (lexFrom none cs).map (tok :: ·)
    else if isShlexQuote c then lexFrom (some (.quoted c, tok)) cs
    else if c = '\\' then lexFrom (some (.escaped none, tok)) cs
    -- the character is pushed back, and read again as the first of a token
    else if punct c then (lexFrom (some (.punctuation, [c])) cs).map (tok :: ·)
    else lexFrom (some (.word, tok ++ [c])) cs
  | some (.punctuation, tok), c :: cs =>
    if isShlexSpace c then (lexFrom none cs).map (tok :: ·)
    else if punct c then lexFrom (some (.punctuation, tok ++ [c])) cs
    else (lexFrom (some (openState punct c, openToken punct c)) cs).map (tok :: ·)
  | some (.quoted q, tok), c :: cs =>
    if c = q then lexFrom (some (.word, tok)) cs
    else if c = '\\' ∧ q = '"' then lexFrom (some (.escaped (some q), tok)) cs
    else lexFrom (some (.quoted q, tok ++ [c])) cs
  | some (.escaped inside, tok), c :: cs => lexFrom (some (afterEscape inside, tok ++ escapedText inside c)) cs

variable {punct} (tok : List Char) (c : Char) (cs : List Char)

theorem lexFrom_none_cons : lexFrom punct none (c :: cs) =
    if isShlexSpace c then lexFrom punct none cs
    else lexFrom punct (some (openState punct c, openToken punct c)) cs := rfl

theorem lexFrom_word_cons : lexFrom punct (some (.word, tok)) (c :: cs) =
    if isShlexSpace c then (lexFrom punct none cs).map (tok :: ·)
    else if isShlexQuote c then lexFrom punct (some (.quoted c, tok)) cs
    else if c = '\\' then lexFrom punct (some (.escaped none, tok)) cs
    else if punct c then (lexFrom punct (some (.punctuation, [c])) cs).map (tok :: ·)
    else lexFrom punct (some (.word, tok ++ [c])) cs := rfl

theorem lexFrom_punctuation_cons : lexFrom punct (some (.punctuation, tok)) (c :: cs) =
    if isShlexSpace c then (lexFrom punct none cs).map (tok :: ·)
    else if punct c then lexFrom punct (some (.punctuation, tok ++ [c])) cs
    else (lexFrom punct (some (openState punct c, openToken punct c)) cs).map (tok :: ·) := rfl

theorem lexFrom_quoted_cons (q : Char) : lexFrom punct (some (.quoted q, tok)) (c :: cs) =
    if c = q then lexFrom punct (some (.word, tok)) cs
    else if c = '\\' ∧ q = '"' then lexFrom punct (some (.escaped (some q), tok)) cs
    else lexFrom punct (some (.quoted q, tok ++ [c])) cs := rfl

theorem lexFrom_escaped_cons (inside : Option Char) : lexFrom punct (some (.escaped inside, tok)) (c :: cs) =
    lexFrom punct (some (afterEscape inside, tok ++ escapedText inside c)) cs := rfl

end Reader

/-- `shlex.split(s, comments=False)`. -/
def shlexSplit (s : String) : Option (List String) :=
  (lexFrom (fun _ => false) none s.toList).map (List.map String.ofList)

/-- `list(lexer)`, for a lexer with `punctuation_chars=True` and `whitespace_split`. -/
def shlexTokens (s : String) : Option (List String) :=
  (lexFrom isShlexPunctuation none s.toList).map (List.map String.ofList)

/-- The characters `shlex.quote` leaves alone. -/
def isShellSafe (c : Char) : Bool := c.isAlphanum || ['_', '@', '%', '+', '=', ':', ',', '.', '/', '-'].contains c

/-- `shlex.quote`. -/
def shlexQuote (s : String) : String :=
  if s = "" then "''"
  else if s.toList.all isShellSafe then s
  else String.ofList (['\''] ++ s.toList.flatMap (fun c => if c = '\'' then "'\"'\"'".toList else [c]) ++ ['\''])

/-- `shlex.join`. -/
def shlexJoin (tokens : List String) : String := " ".intercalate (tokens.map shlexQuote)

example : shlexTokens "a'b c'&&d>\"\\\"\" \\;" = some ["ab c", "&&", "d", ">", "\"", ";"] := by decide

end Lib
end RobotsixMill
