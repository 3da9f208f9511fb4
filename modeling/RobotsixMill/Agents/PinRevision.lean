import RobotsixMill.Deps.InternalGraph
import RobotsixMill.Lib.DelimitedText
import RobotsixMill.Lib.QuotedSpans
import RobotsixMill.Lib.Regex

/-!
# `Agents.PinRevision` — the edit that bumps a pin

The pins of a repository are read from its `pyproject.toml` by a parser, and bumped in it by a regular expression. The
parser is a parameter, with the place of the string literal that each `rev` is read from.

- `updatePinRev` — the edit;
- `TomlReader` — what a parser reads, and where;
- `TouchesOnePin` — the edit changes the `rev` of one source, and nothing else;
- `touches_one_pin_iff` — the texts for which it does.
-/

namespace RobotsixMill
namespace Agents
namespace PinRevision
open Lib Deps

/-! ## The code -/

open Matcher in
/-- The first group of the pattern. It can begin inside a longer name, and pass over strings and comments. -/
def revKey (depName : List Char) : Matcher Char :=
  let spaces := many isPySpace
  seq (lit depName) <| seq spaces <| seq (lit ['=']) <| seq spaces <| seq (lit ['{']) <|
    seq (manyLazy fun c => c ≠ '}') <| seq (lit ['r', 'e', 'v']) <| seq spaces <| seq (lit ['=']) <|
    seq spaces <| lit ['"']

/-- What is behind the first group of a match at the start; the quote of the second group is to come. -/
def revAt (depName text : List Char) : Option (List Char) :=
  (revKey depName text).find? fun behind => decide ('"' ∈ behind)

/-- The first match: the text up to its first group, the value, and what is behind its second group. -/
def findRev (depName : List Char) : List Char → Option (List Char × List Char × List Char)
  | [] => none
  | c :: cs =>
    match revAt depName (c :: cs) with
    | some behind =>
      some ((c :: cs).take ((c :: cs).length - behind.length), partitionChar '"' behind)
    | none => (findRev depName cs).map fun (before, value, rest) => (c :: before, value, rest)

theorem revKey_endsWith (depName : List Char) : Matcher.EndsWith '"' (revKey depName) := by
  have hlit : ∀ word : List Char, Matcher.Takes (fun _ => True) (.lit word) :=
    fun word => Matcher.takes_lit fun _ _ => trivial
  have hspaces : Matcher.Takes (fun _ => True) (.many isPySpace) := Matcher.takes_many fun _ _ => trivial
  have hinside : Matcher.Takes (fun _ => True) (.manyLazy fun c : Char => c ≠ '}') :=
    Matcher.takes_manyLazy fun _ _ => trivial
  exact (hlit _).endsWith <| hspaces.endsWith <| (hlit _).endsWith <| hspaces.endsWith <| (hlit _).endsWith <|
    hinside.endsWith <| (hlit _).endsWith <| hspaces.endsWith <| (hlit _).endsWith <| hspaces.endsWith <|
    Matcher.endsWith_lit '"'

/-- The value that is found is between two quotes. -/
theorem findRev_sound {depName text before value rest : List Char}
    (h : findRev depName text = some (before, value, rest)) :
    text = before ++ value ++ '"' :: rest ∧ '"' ∉ value ∧ ∃ init, before = init ++ ['"'] := by
  induction text generalizing before with
  | nil => cases h
  | cons c cs ih =>
    unfold findRev at h
    split at h
    · rename_i behind hbehind
      unfold revAt at hbehind
      -- a match here; its first group ends with the quote
      obtain ⟨init, hinit⟩ := revKey_endsWith depName _ behind (List.mem_of_find?_eq_some hbehind)
      have hquote : '"' ∈ behind := by simpa using List.find?_some hbehind
      obtain ⟨inside, tail, rfl, hinside⟩ := List.eq_append_cons_of_mem hquote
      rw [partitionChar_eq hinside] at h
      obtain ⟨hbefore, rfl, rfl⟩ : _ ∧ _ ∧ _ := by simpa only [Option.some.injEq, Prod.mk.injEq] using h
      have hsplit : c :: cs = (init ++ ['"']) ++ (inside ++ '"' :: tail) := by rw [hinit]; simp
      rw [hsplit, List.length_append, Nat.add_sub_cancel, List.take_left] at hbefore
      rw [hsplit, ← hbefore]
      exact ⟨(List.append_assoc ..).symm, hinside, init, rfl⟩
    · -- the first match is further on
      obtain ⟨⟨before', value', rest'⟩, hfound, heq⟩ := Option.map_eq_some_iff.1 h
      obtain ⟨rfl, rfl, rfl⟩ : _ ∧ _ ∧ _ := by simpa only [Prod.mk.injEq] using heq
      obtain ⟨rfl, hvalue, init, rfl⟩ := ih hfound
      exact ⟨rfl, hvalue, c :: init, rfl⟩

/-- The matches of the pattern. -/
def revFinder (depName : List Char) : Finder Char where
  quote := '"'
  find := findRev depName
  sound := findRev_sound

/-- `_update_pin_rev`. -/
def updatePinRev (pyprojectText depName newRev : String) : Except String String :=
  if (findRev depName.toList pyprojectText.toList).isNone then
    .error s!"Could not find rev for {depName} in [tool.uv.sources]"
  else .ok (.ofList ((revFinder depName.toList).replaceAll newRev.toList pyprojectText.toList))

/-! ## The parser -/

/-- The entries with the value of this key changed; a key is there once. -/
def modifyKey (key : String) (f : Toml → Toml) (entries : List (String × Toml)) : List (String × Toml) :=
  entries.map fun (k, v) => (k, if k = key then f v else v)

/-- The same in a table; any other value stays. -/
def modifyIn (key : String) (f : Toml → Toml) : Toml → Toml
  | .table entries => .table (modifyKey key f entries)
  | value => value

/-- The document with another `rev` of a source. -/
def setRev (name rev : String) (doc : List (String × Toml)) : List (String × Toml) :=
  modifyKey "tool" (modifyIn "uv" (modifyIn "sources" (modifyIn name (modifyIn "rev" fun _ => .str rev)))) doc

/-- What a TOML string can begin and end with. -/
def QUOTES : List Char := ['"', '\'']

/-- A character that stands for itself in every TOML string. -/
def isPlain (c : Char) : Bool := c ∉ QUOTES && c ≠ '\\' && 32 ≤ c.toNat && c.toNat ≠ 127

/-- The revisions: texts that need no escapes. -/
def PlainRev (rev : String) : Prop := ∀ c ∈ rev.toList, isPlain c = true

instance (rev : String) : Decidable (PlainRev rev) := List.decidableBAll (isPlain · = true) rev.toList

/-- The source has a `rev` that is a string. -/
def HasRev (items : List (String × Toml)) (name : String) : Prop :=
  ∃ source rev, (name, Toml.table source) ∈ items ∧ source.lookup "rev" = some (.str rev)

/-- A TOML parser, with the places of the string literals that it reads. -/
structure TomlReader where
  loads : String → Except String (List (String × Toml))
  /-- The literal of the `rev` of a source, between its quotes. -/
  revLiteral : String → String → Option (Span Char)
  /-- The source is an inline table. -/
  isInline : String → String → Bool
  /-- Every `rev` that is read has been written. -/
  literal_iff : ∀ {text items name}, sources loads text = .ok items →
    ((revLiteral text name).isSome = true ↔ HasRev items name)
  literal_quoted : ∀ {text name lit}, revLiteral text name = some lit →
    text.toList = lit.before ++ lit.value ++ lit.behind ∧ (∃ init, ∃ q ∈ QUOTES, lit.before = init ++ [q]) ∧
      ∃ q ∈ QUOTES, ∃ tail, lit.behind = q :: tail
  /-- With another text in the literal, that text is read. -/
  loads_replaced : ∀ {text doc name lit rev}, loads text = .ok doc → revLiteral text name = some lit → PlainRev rev →
    loads (.ofList (lit.before ++ rev.toList ++ lit.behind)) = .ok (setRev name rev doc)

section Pin

variable (reader : TomlReader) (lower : String → String) (text depName rev : String)

/-- The name of a source, as it is written or as the graph knows it. -/
def Named (name : String) : Prop := name = depName ∨ normalise lower name = depName

/-- An inline source that the graph reads as a pin of this name. -/
def InlinePin (name : String) : Prop :=
  normalise lower name = depName ∧ reader.isInline text name = true ∧
    ∃ items source, sources reader.loads text = .ok items ∧ (name, source) ∈ items ∧ (gitPin source).isSome = true

/-- **The edit touches one pin**: if it returns, nothing but the literal of the `rev` of the source has changed, and
    that is what the parser reads. It does return where there is such a pin. -/
structure TouchesOnePin (doc : List (String × Toml)) : Prop where
  edits : ∀ out, updatePinRev text depName rev = .ok out → ∃ name lit, Named lower depName name ∧
    reader.revLiteral text name = some lit ∧ out = .ofList (lit.before ++ rev.toList ++ lit.behind) ∧
      reader.loads out = .ok (setRev name rev doc)
  returns : (∃ name, InlinePin reader lower text depName name) → ∃ out, updatePinRev text depName rev = .ok out

/-! ## The matches -/

/-- The values that the pattern matches, and those of them that are not the new revision. -/
def matchedRevs : List (Span Char) := (revFinder depName.toList).spans text.toList

def changedRevs : List (Span Char) := (revFinder depName.toList).changed rev.toList text.toList

/-- Nothing matches, and no such pin is there; or the values to change are the literal of the source alone. -/
def OneMatch : Prop :=
  (matchedRevs text depName = [] ∧ ¬ ∃ name, InlinePin reader lower text depName name) ∨
    matchedRevs text depName ≠ [] ∧ ∃ name lit, Named lower depName name ∧ reader.revLiteral text name = some lit ∧
      (changedRevs text depName rev = [lit] ∨ changedRevs text depName rev = [] ∧ lit.value = rev.toList)

end Pin

variable {reader : TomlReader} {lower : String → String} {text depName rev : String}

theorem matchedRevs_eq_nil_iff :
    matchedRevs text depName = [] ↔ findRev depName.toList text.toList = none := by
  unfold matchedRevs
  cases hfind : findRev depName.toList text.toList with
  | none => exact iff_of_true (Finder.spans_of_find_none hfind) rfl
  | some found =>
    obtain ⟨before, value, rest⟩ := found
    have hspans := Finder.spans_of_find (show (revFinder depName.toList).find text.toList = _ from hfind)
    rw [hspans]
    exact iff_of_false (List.cons_ne_nil _ _) (Option.some_ne_none _)

/-- What is returned, and when. -/
theorem updatePinRev_eq_ok_iff {out : String} : updatePinRev text depName rev = .ok out ↔
    matchedRevs text depName ≠ [] ∧
      out = .ofList ((revFinder depName.toList).replaceAll rev.toList text.toList) := by
  unfold updatePinRev
  rw [Ne, matchedRevs_eq_nil_iff]
  cases hfind : findRev depName.toList text.toList with
  | none => simp
  | some found =>
    simp only [Option.isNone_some, Bool.false_eq_true, if_false, Except.ok.injEq, reduceCtorEq, not_false_eq_true,
      true_and]
    exact eq_comm

theorem not_mem_quotes (h : PlainRev rev) : ∀ c ∈ rev.toList, c ∉ QUOTES := by
  intro c hc
  have hplain := h c hc
  simp only [isPlain, Bool.and_eq_true, decide_eq_true_eq] at hplain
  exact hplain.1.1.1

/-- The literal is replaced exactly if its value alone is to change. -/
theorem replaced_iff (hrev : PlainRev rev) {name : String} {lit : Span Char}
    (hlit : reader.revLiteral text name = some lit) :
    (revFinder depName.toList).replaceAll rev.toList text.toList = lit.before ++ rev.toList ++ lit.behind ↔
      changedRevs text depName rev = [lit] ∨ changedRevs text depName rev = [] ∧ lit.value = rev.toList := by
  obtain ⟨htext, hopen, hclose⟩ := reader.literal_quoted hlit
  have hquote : '"' ∈ QUOTES := by decide
  exact Finder.replaceAll_eq_iff hquote (not_mem_quotes hrev) lit htext hopen hclose

variable {doc : List (String × Toml)}

theorem oneMatch_of_touchesOnePin (hrev : PlainRev rev) (h : TouchesOnePin reader lower text depName rev doc) :
    OneMatch reader lower text depName rev := by
  -- without a match the edit raises
  by_cases hnone : matchedRevs text depName = []
  · refine .inl ⟨hnone, fun hpin => ?_⟩
    obtain ⟨out, hout⟩ := h.returns hpin
    exact (updatePinRev_eq_ok_iff.1 hout).1 hnone
  · obtain ⟨name, lit, hname, hlit, heq, -⟩ := h.edits _ (updatePinRev_eq_ok_iff.2 ⟨hnone, rfl⟩)
    exact .inr ⟨hnone, name, lit, hname, hlit, (replaced_iff hrev hlit).1 (String.ofList_injective heq)⟩

theorem touchesOnePin_of_oneMatch (hrev : PlainRev rev) (hdoc : reader.loads text = .ok doc)
    (h : OneMatch reader lower text depName rev) : TouchesOnePin reader lower text depName rev doc := by
  rcases h with ⟨hnone, hpin⟩ | ⟨hsome, name, lit, hname, hlit, hchanged⟩
  · exact ⟨fun out hout => absurd hnone (updatePinRev_eq_ok_iff.1 hout).1, fun h => absurd h hpin⟩
  · refine ⟨fun out hout => ?_, fun _ => ⟨_, updatePinRev_eq_ok_iff.2 ⟨hsome, rfl⟩⟩⟩
    -- the parser reads the new literal, and all else as before
    have hout' : out = .ofList (lit.before ++ rev.toList ++ lit.behind) := by
      rw [(updatePinRev_eq_ok_iff.1 hout).2, (replaced_iff hrev hlit).2 hchanged]
    exact ⟨name, lit, hname, hlit, hout', hout' ▸ reader.loads_replaced hdoc hlit hrev⟩

/-- **The edit touches one pin** exactly where its pattern matches once, at the `rev` of the source, but for values that
    are the new revision already. -/
theorem touches_one_pin_iff (hdoc : reader.loads text = .ok doc) (hrev : PlainRev rev) :
    TouchesOnePin reader lower text depName rev doc ↔ OneMatch reader lower text depName rev :=
  ⟨oneMatch_of_touchesOnePin hrev, touchesOnePin_of_oneMatch hrev hdoc⟩

/-! ## Two sources -/

section TwoSources

/-- A file with two sources, the name of one of which ends with that of the other; in parts, between the revisions. -/
def HEAD : List Char :=
  "[tool.uv.sources]\nmy-llm = \x7b git = \"https://github.com/damien-robotsix/my-llm\", rev = \"".toList

def MIDDLE : List Char := "\" \x7d\nllm = \x7b git = \"https://github.com/damien-robotsix/llm\", rev = \"".toList

def TAIL : List Char := "\" \x7d\n".toList

def twoSources (first second : List Char) : List Char := HEAD ++ first ++ MIDDLE ++ second ++ TAIL

/-- The text behind another one that it begins with. -/
def behind? (start text : List Char) : Option (List Char) :=
  if start <+: text then some (text.drop start.length) else none

/-- The revisions in such a file. -/
def readTwo (text : List Char) : Option (List Char × List Char) := do
  let rest ← behind? HEAD text
  let rest' ← behind? MIDDLE (rest.dropWhile isPlain)
  if rest'.dropWhile isPlain = TAIL then some (rest.takeWhile isPlain, rest'.takeWhile isPlain) else none

def twoDoc (first second : List Char) : List (String × Toml) :=
  [("tool", .table [("uv", .table [("sources", .table
    [("my-llm", .table [("git", .str "https://github.com/damien-robotsix/my-llm"), ("rev", .str (.ofList first))]),
      ("llm", .table [("git", .str "https://github.com/damien-robotsix/llm"), ("rev", .str (.ofList second))])])])])]

theorem behind?_eq_some_iff {start text rest : List Char} : behind? start text = some rest ↔ text = start ++ rest := by
  unfold behind?
  constructor
  · intro h
    split at h
    · rename_i hbegins
      obtain ⟨rest', rfl⟩ := hbegins
      rw [List.drop_left, Option.some.injEq] at h
      rw [h]
    · cases h
  · rintro rfl
    rw [if_pos (List.prefix_append _ _), List.drop_left]

/-- A revision ends where a quote follows. -/
theorem span_plain {revision rest : List Char} (h : ∀ c ∈ revision, isPlain c = true) (hrest : rest.head? = some '"') :
    (revision ++ rest).takeWhile isPlain = revision ∧ (revision ++ rest).dropWhile isPlain = rest := by
  obtain ⟨tail, rfl⟩ := List.head?_eq_some_iff.1 hrest
  have hquote : ¬ isPlain '"' = true := by decide
  rw [List.takeWhile_append_of_pos h, List.dropWhile_append_of_pos h, List.takeWhile_cons_of_neg hquote,
    List.dropWhile_cons_of_neg hquote, List.append_nil]
  exact ⟨rfl, rfl⟩

theorem readTwo_eq_some_iff {text first second : List Char} : readTwo text = some (first, second) ↔
    text = twoSources first second ∧ (∀ c ∈ first, isPlain c = true) ∧ ∀ c ∈ second, isPlain c = true := by
  have hmiddle : ∀ rest, (MIDDLE ++ rest).head? = some '"' := fun rest => by
    rw [List.head?_append, show MIDDLE.head? = some '"' by decide]
    rfl
  have htail : TAIL.head? = some '"' := by decide
  have hassoc : twoSources first second = HEAD ++ (first ++ (MIDDLE ++ (second ++ TAIL))) := by
    simp only [twoSources, List.append_assoc]
  constructor
  · intro h
    obtain ⟨rest, hrest, h⟩ := Option.bind_eq_some_iff.1 h
    obtain ⟨rest', hrest', h⟩ := Option.bind_eq_some_iff.1 h
    split at h
    · rename_i hend
      obtain ⟨rfl, rfl⟩ : _ ∧ _ := by simpa only [Option.some.injEq, Prod.mk.injEq] using h
      refine ⟨?_, fun c => List.mem_takeWhile_imp, fun c => List.mem_takeWhile_imp⟩
      rw [hassoc, ← hend, List.takeWhile_append_dropWhile, ← behind?_eq_some_iff.1 hrest',
        List.takeWhile_append_dropWhile]
      exact behind?_eq_some_iff.1 hrest
    · cases h
  · rintro ⟨rfl, hfirst, hsecond⟩
    unfold readTwo
    rw [behind?_eq_some_iff.2 hassoc, Option.bind_eq_bind, Option.bind_some, (span_plain hfirst (hmiddle _)).1,
      (span_plain hfirst (hmiddle _)).2, behind?_eq_some_iff.2 rfl, Option.bind_some,
      (span_plain hsecond htail).1, (span_plain hsecond htail).2, if_pos rfl]

/-- What is read of such a file, and nothing of any other. -/
def loadTwo (text : String) : Except String (List (String × Toml)) :=
  match readTwo text.toList with
  | some (first, second) => .ok (twoDoc first second)
  | none => .error "Invalid statement (at line 1, column 1)"

def literalTwo (text name : String) : Option (Span Char) :=
  match readTwo text.toList with
  | some (first, second) =>
    if name = "my-llm" then some ⟨HEAD, first, MIDDLE ++ second ++ TAIL⟩
    else if name = "llm" then some ⟨HEAD ++ first ++ MIDDLE, second, TAIL⟩
    else none
  | none => none

theorem loadTwo_of_readTwo {text : String} {first second : List Char}
    (h : readTwo text.toList = some (first, second)) : loadTwo text = .ok (twoDoc first second) := by
  rw [loadTwo, h]

theorem literalTwo_of_readTwo {text : String} {first second : List Char}
    (h : readTwo text.toList = some (first, second)) :
    literalTwo text "my-llm" = some ⟨HEAD, first, MIDDLE ++ second ++ TAIL⟩ := by
  rw [literalTwo, h]
  rfl

theorem sources_loadTwo {text : String} {first second : List Char} (h : readTwo text.toList = some (first, second)) :
    sources loadTwo text = .ok
      [("my-llm", .table [("git", .str "https://github.com/damien-robotsix/my-llm"), ("rev", .str (.ofList first))]),
        ("llm", .table [("git", .str "https://github.com/damien-robotsix/llm"), ("rev", .str (.ofList second))])] := by
  unfold sources loadTwo
  rw [h]
  rfl

theorem literalTwo_isSome_iff {text name : String} {items : List (String × Toml)}
    (h : sources loadTwo text = .ok items) : (literalTwo text name).isSome = true ↔ HasRev items name := by
  cases hread : readTwo text.toList with
  | none =>
    unfold sources loadTwo at h
    rw [hread] at h
    cases h
  | some found =>
    obtain ⟨first, second⟩ := found
    rw [sources_loadTwo hread, Except.ok.injEq] at h
    unfold literalTwo HasRev
    rw [hread, ← h]
    dsimp only
    by_cases hmy : name = "my-llm"
    · rw [if_pos hmy, hmy]
      exact iff_of_true rfl ⟨_, _, List.mem_cons_self, rfl⟩
    by_cases hllm : name = "llm"
    · rw [if_neg hmy, if_pos hllm, hllm]
      exact iff_of_true rfl ⟨_, _, List.mem_cons_of_mem _ List.mem_cons_self, rfl⟩
    rw [if_neg hmy, if_neg hllm]
    -- there are no other sources
    refine iff_of_false Bool.false_ne_true ?_
    rintro ⟨source, rev, hmem, -⟩
    rcases List.mem_cons.1 hmem with heq | hmem
    · exact hmy (Prod.mk.inj heq).1
    · exact hllm (Prod.mk.inj (List.mem_singleton.1 hmem)).1

theorem literalTwo_quoted {text name : String} {lit : Span Char} (h : literalTwo text name = some lit) :
    text.toList = lit.before ++ lit.value ++ lit.behind ∧ (∃ init, ∃ q ∈ QUOTES, lit.before = init ++ [q]) ∧
      ∃ q ∈ QUOTES, ∃ tail, lit.behind = q :: tail := by
  have hhead : HEAD = HEAD.dropLast ++ ['"'] := by decide
  have hmiddle : MIDDLE = '"' :: MIDDLE.tail.dropLast ++ ['"'] := by decide
  have htail : TAIL = '"' :: TAIL.tail := by decide
  have hquote : '"' ∈ QUOTES := by decide
  unfold literalTwo at h
  split at h
  · rename_i first second hread
    obtain ⟨htext, -, -⟩ := readTwo_eq_some_iff.1 hread
    split at h
    · rw [← Option.some.inj h, htext]
      refine ⟨by simp only [twoSources, List.append_assoc], ⟨_, '"', hquote, hhead⟩, '"', hquote,
        MIDDLE.tail.dropLast ++ ['"'] ++ second ++ TAIL, ?_⟩
      dsimp only
      rw [hmiddle]
      rfl
    · split at h
      · rw [← Option.some.inj h, htext]
        refine ⟨rfl, ⟨HEAD ++ first ++ '"' :: MIDDLE.tail.dropLast, '"', hquote, ?_⟩, '"', hquote, TAIL.tail, htail⟩
        rw [List.append_assoc (HEAD ++ first), ← hmiddle]
      · cases h
  · cases h

theorem loadTwo_replaced {text name rev : String} {doc : List (String × Toml)} {lit : Span Char}
    (hdoc : loadTwo text = .ok doc) (hlit : literalTwo text name = some lit) (hrev : PlainRev rev) :
    loadTwo (.ofList (lit.before ++ rev.toList ++ lit.behind)) = .ok (setRev name rev doc) := by
  unfold loadTwo at hdoc
  unfold literalTwo at hlit
  split at hdoc
  · rename_i first second hread
    obtain ⟨-, hfirst, hsecond⟩ := readTwo_eq_some_iff.1 hread
    rw [hread] at hlit
    dsimp only at hlit
    rw [← Except.ok.inj hdoc]
    split at hlit
    · rename_i hname
      have hread' : readTwo (HEAD ++ rev.toList ++ (MIDDLE ++ second ++ TAIL)) = some (rev.toList, second) :=
        readTwo_eq_some_iff.2 ⟨by simp only [twoSources, List.append_assoc], hrev, hsecond⟩
      rw [← Option.some.inj hlit, hname]
      unfold loadTwo
      rw [String.toList_ofList, hread']
      simp [twoDoc, setRev, modifyKey, modifyIn]
    · split at hlit
      · rename_i hname
        have hread' : readTwo (HEAD ++ first ++ MIDDLE ++ rev.toList ++ TAIL) = some (first, rev.toList) :=
          readTwo_eq_some_iff.2 ⟨rfl, hfirst, hrev⟩
        rw [← Option.some.inj hlit, hname]
        unfold loadTwo
        rw [String.toList_ofList, hread']
        simp [twoDoc, setRev, modifyKey, modifyIn]
      · cases hlit
  · cases hdoc

/-- A reader of such files. -/
def twoReader : TomlReader where
  loads := loadTwo
  revLiteral := literalTwo
  isInline _ _ := true
  literal_iff := literalTwo_isSome_iff
  literal_quoted := literalTwo_quoted
  loads_replaced := loadTwo_replaced

theorem loads_twoReader {text : String} {first second : List Char}
    (h : readTwo text.toList = some (first, second)) : twoReader.loads text = .ok (twoDoc first second) :=
  loadTwo_of_readTwo h

theorem revLiteral_twoReader {text : String} {first second : List Char}
    (h : readTwo text.toList = some (first, second)) :
    twoReader.revLiteral text "my-llm" = some ⟨HEAD, first, MIDDLE ++ second ++ TAIL⟩ :=
  literalTwo_of_readTwo h

/-- The file with two revisions in it. -/
def twoText : String := .ofList (twoSources ['a', '1'] ['b', '2'])

theorem toList_twoText : twoText.toList = twoSources ['a', '1'] ['b', '2'] := String.toList_ofList

theorem readTwo_twoText : readTwo twoText.toList = some (['a', '1'], ['b', '2']) :=
  readTwo_eq_some_iff.2 ⟨toList_twoText, List.forall_mem_cons.2 ⟨rfl, List.forall_mem_singleton.2 rfl⟩,
    List.forall_mem_cons.2 ⟨rfl, List.forall_mem_singleton.2 rfl⟩⟩

theorem oneMatch_my_llm : OneMatch twoReader id twoText "my-llm" "c3" := by
  -- the longer name is not found in the shorter one
  have hspans : (revFinder "my-llm".toList).spans (twoSources ['a', '1'] ['b', '2']) =
      [⟨HEAD, ['a', '1'], MIDDLE ++ ['b', '2'] ++ TAIL⟩] := by decide +kernel
  have hmatched : matchedRevs twoText "my-llm" = [⟨HEAD, ['a', '1'], MIDDLE ++ ['b', '2'] ++ TAIL⟩] := by
    rw [matchedRevs, toList_twoText, hspans]
  have hlit := revLiteral_twoReader readTwo_twoText
  refine .inr ⟨by rw [hmatched]; exact List.cons_ne_nil _ _, "my-llm", _, .inl rfl, hlit, .inl ?_⟩
  rw [changedRevs, Finder.changed, toList_twoText, hspans]
  rfl

end TwoSources

theorem plainRev_c3 : PlainRev "c3" := by decide

/-- The longer name is matched once. -/
theorem touches_one_pin_my_llm :
    TouchesOnePin twoReader id twoText "my-llm" "c3" (twoDoc ['a', '1'] ['b', '2']) :=
  (touches_one_pin_iff (loads_twoReader readTwo_twoText) plainRev_c3).2 oneMatch_my_llm

/-- A bump of the shorter name bumps both. -/
theorem longer_name_bumped_too : ¬ ∀ (reader : TomlReader) (lower : String → String) (text depName rev : String)
    (doc : List (String × Toml)), reader.loads text = .ok doc → PlainRev rev →
      TouchesOnePin reader lower text depName rev doc := by
  intro h
  have hmatch := oneMatch_of_touchesOnePin plainRev_c3
    (h twoReader id twoText "llm" "c3" _ (loads_twoReader readTwo_twoText) plainRev_c3)
  -- the shorter name is found in the longer one as well
  have hchanged : ((revFinder "llm".toList).changed "c3".toList (twoSources ['a', '1'] ['b', '2'])).length = 2 := by
    decide +kernel
  have htwo : (changedRevs twoText "llm" "c3").length = 2 := by
    rw [changedRevs, toList_twoText, hchanged]
  have hmatched : matchedRevs twoText "llm" ≠ [] := by
    intro hnil
    unfold changedRevs Finder.changed at htwo
    unfold matchedRevs at hnil
    rw [hnil] at htwo
    cases htwo
  obtain ⟨hnil, -⟩ | ⟨-, name, lit, -, -, hone | ⟨hnone, -⟩⟩ := hmatch
  · exact hmatched hnil
  · rw [hone] at htwo
    cases htwo
  · rw [hnone] at htwo
    cases htwo

end PinRevision
end Agents
end RobotsixMill
