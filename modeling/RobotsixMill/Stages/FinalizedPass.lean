import RobotsixMill.Lib.TextLines
import RobotsixMill.Stages.Pause
import RobotsixMill.Stages.Preflight

/-!
# `Stages.FinalizedPass` — what an implement pass leaves for the next one

Every implement pass ends in `_finalize_impl`, which writes its status, two fingerprints and the number of passes
that stalled as lines at the top of `implement.md`, in front of the summary. The next finalize and the guards of the
preflight search the lines of the file for them.

- `ImplementPass.finalizeImpl` — the artifacts after a pass;
- `splitlines_md` — the lines of the file that a pass writes;
- `endedResumable_md`, `specFingerprintLine_md`, `stallCountLine_md`, `stallLines_md` — what each reader takes from it.
-/

namespace RobotsixMill
namespace Stages
open RobotsixMill.Core Lib Service

/-- The first sixteen digits of a SHA-256. -/
structure ShortDigest where
  hash : String → String
  hex : ∀ text, ∀ c ∈ (hash text).toList, c ∈ "0123456789abcdef".toList
  sixteen : ∀ text, (hash text).toList.length = 16

theorem ShortDigest.hash_ne_empty (d : ShortDigest) (text : String) : d.hash text ≠ "" := by
  intro h
  have hlength := d.sixteen text
  rw [h] at hlength
  cases hlength

/-- What `_finalize` is given, and what it finds. -/
structure ImplementPass where
  branch : String
  summary : String
  ok : Bool
  transient : Bool := false
  writeSpecFingerprint : Bool := true
  description : String := ""
  /-- Empty without a parent, or when the parent has none. -/
  epicContext : String := ""
  /-- `list_comments`; nothing when it raises. -/
  comments : Option (List Comment) := none
  /-- Has the clone changes, or commits of its own? Nothing when git raises. -/
  repoDiff : Option Bool
  /-- The same of the extra roots. -/
  extraDiffs : List (Option Bool) := []
  /-- `_normalize_reference_files`, as JSON. -/
  referenceFiles : String := "[]"
deriving DecidableEq, Repr

namespace ImplementPass

/-! ## The pass -/

def blocked (p : ImplementPass) : Bool := !p.transient && !p.ok

/-- `header`. -/
def header (p : ImplementPass) : String :=
  if p.transient then "TRANSIENT — retryable" else if p.ok then "passed" else "BLOCKED — resumable"

/-- The spec as the preflight assembles it. -/
def effective (p : ImplementPass) : String :=
  if p.epicContext = "" then p.description else p.epicContext ++ "\n\n" ++ p.description

/-- `_has_diff`. -/
def hasDiff (p : ImplementPass) : Bool := p.repoDiff.getD true || p.extraDiffs.any fun diff => diff.getD true

/-- `review_ids`. -/
def reviewIds (p : ImplementPass) : List CommentId :=
  ((p.comments.getD []).filter fun c =>
    c.parentId.isNone && c.closedAt.isNone && !NON_FEEDBACK_AUTHORS.contains c.author).map Comment.id

end ImplementPass

/-- The comments that no pass has taken up. -/
def unaddressedNote (reviewIds : List CommentId) : String :=
  if reviewIds = [] then ""
  else "Unaddressed review comment(s): " ++ ", ".intercalate (reviewIds.map fun rid => "#" ++ toString rid) ++ ". "

/-- `stall_note`. -/
def stallNote (count : Int) (survivedRefresh : Bool) (reviewIds : List CommentId) : String :=
  if survivedRefresh then
    "STALL DETECTED — " ++ toString count ++ " consecutive implement " ++
      "cycles produced no meaningful change (identical summary, " ++
      "no new diff), and this stall survived a resume-blocked " ++
      "refresh: the summary is byte-identical to the one " ++
      "present when the ticket was last refreshed. " ++
      unaddressedNote reviewIds ++
      "A bare refresh (resume-blocked) will not help — " ++
      "re-scope or split the ticket, or hand-apply the fix."
  else
    "STALL DETECTED — " ++ toString count ++ " consecutive implement " ++
      "cycles produced no meaningful change (identical summary, " ++
      "no new diff). " ++
      unaddressedNote reviewIds ++
      "The implement agent is not making progress despite " ++
      "corrective feedback.  Consider re-scoping or splitting " ++
      "the ticket, or hand-applying the fix."

/-- The text of `implement.md`. -/
def implementMd (header branch fpLine summaryFp : String) (count : Int) (summary : String) : String :=
  "# Implement (" ++ header ++ ")\nbranch: " ++ branch ++ "\n" ++ fpLine ++
    "summary-fingerprint: " ++ summaryFp ++ "\nstall-count: " ++ toString count ++ "\n\n" ++ summary ++ "\n"

/-- `old_summary_fp` and `old_stall_count`. -/
def oldStall (a : Artifacts) : String × Int :=
  match a.implementMd with
  | some md => stallLines md
  | none =>
    match a.implementStallStateJson with
    | .ok st => (st.summaryFingerprint, st.stallCount)
    | _ => ("", 0)

/-- `old_resume_fp`. -/
def oldResume (a : Artifacts) : String :=
  match a.implementStallStateJson with
  | .ok st => st.resumeFingerprint
  | _ => ""

section Finalize

variable (s : Settings) (d : ShortDigest)

namespace ImplementPass

/-- Is the pass one more of the same? -/
def repeats (p : ImplementPass) (a : Artifacts) : Bool :=
  decide ((oldStall a).1 ≠ "") && decide ((oldStall a).1 = d.hash p.summary)

/-- `stall_count`, as it is written. -/
def stallCountAfter (p : ImplementPass) (a : Artifacts) : Int :=
  if p.transient then (oldStall a).2
  else if p.ok then 0
  else if p.repeats d a then (oldStall a).2 + 1
  else 0

/-- `resume_fp`. -/
def resumeAfter (p : ImplementPass) (a : Artifacts) : String :=
  if p.transient then oldResume a
  else if p.ok then ""
  else if p.repeats d a then oldResume a
  else ""

def survivedRefresh (p : ImplementPass) (a : Artifacts) : Bool :=
  decide (p.resumeAfter d a ≠ "") && decide (p.resumeAfter d a = d.hash p.summary)

/-- The summary as it is written: a stall that reaches the threshold is explained in front of it. -/
def writtenSummary (p : ImplementPass) (a : Artifacts) : String :=
  if 0 < s.implementStallThreshold ∧ (s.implementStallThreshold : Int) ≤ p.stallCountAfter d a then
    stallNote (p.stallCountAfter d a) (p.survivedRefresh d a) p.reviewIds ++ "\n\n" ++ p.summary
  else p.summary

/-- Does the pass write the fingerprint of the spec? -/
def writesSpecFp (p : ImplementPass) : Bool := !p.transient && p.writeSpecFingerprint

/-- `fp_line`. -/
def fpLine (p : ImplementPass) : String :=
  if p.writesSpecFp then "spec-fingerprint: " ++ d.hash p.effective ++ "\n" else ""

/-- The artifacts that `_finalize_impl` writes; what it commits afterwards is in `MultiDelivery`. -/
def finalizeImpl (p : ImplementPass) (a : Artifacts) : Artifacts :=
  let tracked := decide (0 < s.implementZeroDiffAbortThreshold) && !p.transient
  { a with
    implementZeroDiffCount :=
      if tracked then
        some (if p.hasDiff then "0" else toString (readCounter a.implementZeroDiffCount + 1))
      else a.implementZeroDiffCount
    implementZeroDiffPaused := if tracked then false else a.implementZeroDiffPaused
    implementMd := some (implementMd p.header p.branch (p.fpLine d) (d.hash p.summary) (p.stallCountAfter d a)
      (p.writtenSummary s d a))
    implementStallStateJson :=
      .ok { summaryFingerprint := d.hash p.summary, stallCount := p.stallCountAfter d a,
            resumeFingerprint := p.resumeAfter d a }
    referenceFilesJson := some p.referenceFiles
    implementSummaryMd := some (p.writtenSummary s d a) }

end ImplementPass

end Finalize

/-! ## Reading the file -/

section Reading

variable (d : ShortDigest)

/-- The numbers that the readers take a `stall-count: ` line for. -/
def countValue (value : String) : Int := (parseInt value).getD 0

theorem fieldValue_eq : fieldValue = keyValue := rfl

theorem specFingerprintLine_eq (md : String) :
    specFingerprintLine md = firstValue "spec-fingerprint: " (splitlines md) := by
  unfold specFingerprintLine firstValue
  rw [fieldValue_eq]

theorem stallCountLine_eq (md : String) :
    stallCountLine md = ((firstValue "stall-count: " (splitlines md)).map countValue).getD 0 := by
  unfold stallCountLine firstValue
  rw [fieldValue_eq]
  generalize (splitlines md).find? (fun line => startsWith line "stall-count: ") = found
  cases found with
  | none => rfl
  | some line => rw [Option.map_some, Option.map_some, Option.getD_some, countValue]

theorem stallLines_eq (md : String) : stallLines md =
    ((lastValue "summary-fingerprint: " (splitlines md)).getD "",
      ((lastValue "stall-count: " (splitlines md)).map countValue).getD 0) := by
  unfold stallLines
  rw [fieldValue_eq]
  generalize splitlines md = lines
  induction lines using List.reverseRecOn with
  | nil => rfl
  | append_singleton lines line ih =>
    rw [List.foldl_append, List.foldl_cons, List.foldl_nil, ih, lastValue_append, lastValue_append]
    cases hsummary : startsWith line "summary-fingerprint: " with
    | true =>
      have hcount : startsWith line "stall-count: " = false := startsWith_of_key hsummary (by decide) (by decide)
      rw [if_pos rfl, lastValue_cons_of_pos hsummary, lastValue_cons_of_neg hcount, lastValue_nil, lastValue_nil,
        Option.none_or, Option.some_or, Option.none_or, Option.getD_some]
    | false =>
      rw [if_neg Bool.false_ne_true, lastValue_cons_of_neg hsummary, lastValue_nil, Option.none_or]
      cases hcount : startsWith line "stall-count: " with
      | true =>
        rw [if_pos rfl, lastValue_cons_of_pos hcount, lastValue_nil, Option.none_or, Option.some_or, Option.map_some,
          Option.getD_some, countValue]
      | false =>
        rw [if_neg Bool.false_ne_true, lastValue_cons_of_neg hcount, lastValue_nil, Option.none_or]

/-! ### The file of a pass -/

/-- Text that looks like no line of the header: it stays on its line, and says nothing about being blocked. -/
def plain (text : String) : Bool := text.toList.all fun c => !isLineBreak c && c != 'B'

theorem plain_append (a b : String) : plain (a ++ b) = (plain a && plain b) := by
  unfold plain
  rw [String.toList_append, List.all_append]

theorem plain_iff {text : String} :
    plain text = true ↔ (∀ c ∈ text.toList, isLineBreak c = false) ∧ 'B' ∉ text.toList := by
  unfold plain
  rw [List.all_eq_true]
  constructor
  · intro h
    refine ⟨fun c hc => ?_, fun hB => ?_⟩
    · have hboth := h c hc
      rw [Bool.and_eq_true, Bool.not_eq_true'] at hboth
      exact hboth.1
    · have hboth := h 'B' hB
      rw [Bool.and_eq_true] at hboth
      exact absurd hboth.2 (by decide)
  · rintro ⟨hbreak, hB⟩ c hc
    rw [Bool.and_eq_true, Bool.not_eq_true', bne_iff_ne]
    exact ⟨hbreak c hc, fun heq => hB (heq ▸ hc)⟩

theorem plain_nat (n : Nat) : plain (toString n) = true := by
  rw [plain_iff, Nat.toString_eq_ofList_toDigits, String.toList_ofList]
  have hdigit : ∀ c ∈ Nat.toDigits 10 n, c.isDigit = true := fun c hc =>
    Nat.isDigit_of_mem_toDigits (by decide) (by decide) hc
  refine ⟨fun c hc => isLineBreak_of_not_space (isPySpace_of_isDigit (hdigit c hc)), fun hB => ?_⟩
  exact absurd (hdigit 'B' hB) (by decide)

theorem plain_int (i : Int) : plain (toString i) = true := by
  cases i with
  | ofNat n => exact plain_nat n
  | negSucc n =>
    show plain ("-" ++ toString (n + 1)) = true
    rw [plain_append, plain_nat]
    rfl

theorem plain_intercalate (texts : List String) (h : ∀ text ∈ texts, plain text = true) :
    plain (", ".intercalate texts) = true := by
  induction texts with
  | nil => rfl
  | cons text texts ih =>
    have hrest := ih fun text' ht => h text' (List.mem_cons_of_mem _ ht)
    cases texts with
    | nil =>
      rw [String.intercalate_singleton]
      exact h text List.mem_cons_self
    | cons text' texts =>
      rw [String.intercalate_cons_cons, plain_append, plain_append, hrest, h text List.mem_cons_self]
      rfl

theorem plain_unaddressedNote (ids : List CommentId) : plain (unaddressedNote ids) = true := by
  unfold unaddressedNote
  split
  · rfl
  · have hids : plain (", ".intercalate (ids.map fun rid => "#" ++ toString rid)) = true := by
      apply plain_intercalate
      intro text ht
      obtain ⟨rid, -, rfl⟩ := List.mem_map.1 ht
      rw [plain_append, plain_nat]
      rfl
    rw [plain_append, plain_append, hids]
    decide +kernel

theorem plain_stallNote (count : Int) (survived : Bool) (ids : List CommentId) :
    plain (stallNote count survived ids) = true := by
  unfold stallNote
  split
  · simp only [plain_append, plain_int, plain_unaddressedNote]
    decide +kernel
  · simp only [plain_append, plain_int, plain_unaddressedNote]
    decide +kernel

theorem stallNote_eq (count : Int) (survived : Bool) (ids : List CommentId) :
    ∃ rest, stallNote count survived ids = "STALL DETECTED — " ++ rest := by
  unfold stallNote
  split
  · simp only [String.append_assoc]
    exact ⟨_, rfl⟩
  · simp only [String.append_assoc]
    exact ⟨_, rfl⟩

/-- The file, line by line. -/
theorem implementMd_eq (header branch fpLine summaryFp : String) (count : Int) (summary : String) :
    implementMd header branch fpLine summaryFp count summary =
      ("# Implement (" ++ header ++ ")") ++ "\n" ++ ("branch: " ++ branch ++ "\n" ++ (fpLine ++
        ("summary-fingerprint: " ++ summaryFp ++ "\n" ++ ("stall-count: " ++ toString count ++ "\n" ++
          ("" ++ "\n" ++ (summary ++ "\n")))))) := by
  have hbranch : ")\nbranch: " = ")" ++ ("\n" ++ "branch: ") := by decide
  have hstall : "\nstall-count: " = "\n" ++ "stall-count: " := by decide
  have hblank : "\n\n" = "\n" ++ ("" ++ "\n") := by decide
  unfold implementMd
  rw [hbranch, hstall, hblank]
  simp only [String.append_assoc]

theorem linesOf_of_plain {text : String} (h : plain text = true) : linesOf text = [text] :=
  linesOf_of_no_break (plain_iff.1 h).1

theorem plain_hash (text : String) : plain (d.hash text) = true := by
  rw [plain, List.all_eq_true]
  intro c hc
  have hall : ("0123456789abcdef".toList.all fun c => !isLineBreak c && c != 'B') = true := by decide
  exact List.all_eq_true.1 hall c (d.hex text c hc)

theorem strip_hash (text : String) : strip (d.hash text) = d.hash text := by
  unfold strip
  rw [stripChars_of_no_space, String.ofList_toList]
  intro c hc
  have hall : ("0123456789abcdef".toList.all fun c => !isPySpace c) = true := by decide
  have hspace := List.all_eq_true.1 hall c (d.hex text c hc)
  rwa [Bool.not_eq_true'] at hspace

theorem linesOf_header (p : ImplementPass) : linesOf ("# Implement (" ++ p.header ++ ")") =
    ["# Implement (" ++ p.header ++ ")"] := by
  apply linesOf_of_no_break
  intro c hc
  have hall : ∀ header ∈ ["TRANSIENT — retryable", "passed", "BLOCKED — resumable"],
      (("# Implement (" ++ header ++ ")").toList.all fun c => !isLineBreak c) = true := by decide
  have hmem : p.header ∈ ["TRANSIENT — retryable", "passed", "BLOCKED — resumable"] := by
    unfold ImplementPass.header
    split
    · exact List.mem_cons_self
    · split
      · exact List.mem_cons_of_mem _ List.mem_cons_self
      · exact List.mem_cons_of_mem _ (List.mem_cons_of_mem _ List.mem_cons_self)
  have hbreak := List.all_eq_true.1 (hall _ hmem) c hc
  rwa [Bool.not_eq_true'] at hbreak

theorem strip_toString (count : Int) : strip (toString count) = toString count := by
  unfold strip
  rw [stripChars_of_no_space, String.ofList_toList]
  have hdigits : ∀ n : Nat, ∀ c ∈ (toString n).toList, isPySpace c = false := by
    intro n c hc
    rw [Nat.toString_eq_ofList_toDigits, String.toList_ofList] at hc
    exact isPySpace_of_isDigit (Nat.isDigit_of_mem_toDigits (by decide) (by decide) hc)
  cases count with
  | ofNat n => exact hdigits n
  | negSucc n =>
    intro c hc
    have hlist : (toString (Int.negSucc n)).toList = '-' :: (toString (n + 1)).toList := by
      show ("-" ++ toString (n + 1)).toList = _
      rw [String.toList_append]
      rfl
    rw [hlist] at hc
    rcases List.mem_cons.1 hc with rfl | hc
    · decide
    · exact hdigits (n + 1) c hc

namespace ImplementPass

/-- What a reader goes through before it comes to the lines of the pass. -/
def branchLines (p : ImplementPass) : List String := linesOf ("branch: " ++ p.branch)

def summaryLines (p : ImplementPass) : List String := linesOf p.summary

/-- The keys of the header. -/
def keys : List String := ["spec-fingerprint: ", "summary-fingerprint: ", "stall-count: "]

variable (s : Settings) (p : ImplementPass) (a : Artifacts)

/-- A stall note has no such line. -/
theorem linesOf_writtenSummary : ∃ note : List String,
    linesOf (p.writtenSummary s d a) = note ++ p.summaryLines ∧
      ∀ line ∈ note, ∀ key ∈ keys, startsWith line key = false := by
  unfold writtenSummary
  split
  · have hblank : "\n\n" = "\n" ++ ("" ++ "\n") := by decide
    have hlines :
        linesOf (stallNote (p.stallCountAfter d a) (p.survivedRefresh d a) p.reviewIds ++ "\n\n" ++ p.summary) =
        [stallNote (p.stallCountAfter d a) (p.survivedRefresh d a) p.reviewIds, ""] ++ p.summaryLines := by
      have hsplit : stallNote (p.stallCountAfter d a) (p.survivedRefresh d a) p.reviewIds ++ "\n\n" ++ p.summary =
          stallNote (p.stallCountAfter d a) (p.survivedRefresh d a) p.reviewIds ++ "\n" ++
            ("" ++ "\n" ++ p.summary) := by
        rw [hblank]
        simp only [String.append_assoc]
      rw [hsplit, linesOf_newline, linesOf_newline, linesOf_of_plain (plain_stallNote ..),
        linesOf_of_plain (by decide)]
      rfl
    refine ⟨_, hlines, fun line hline key hkey => ?_⟩
    rcases List.mem_pair.1 hline with rfl | rfl
    · obtain ⟨rest, hnote⟩ := stallNote_eq (p.stallCountAfter d a) (p.survivedRefresh d a) p.reviewIds
      have hkeys : (keys.all fun key => !"STALL DETECTED — ".toList.isPrefixOf key.toList &&
          !key.toList.isPrefixOf "STALL DETECTED — ".toList) = true := by decide
      have hboth := List.all_eq_true.1 hkeys key hkey
      rw [Bool.and_eq_true, Bool.not_eq_true', Bool.not_eq_true'] at hboth
      rw [hnote]
      exact startsWith_of_key (startsWith_key _ rest) hboth.1 hboth.2
    · have hkeys : (keys.all fun key => !startsWith "" key) = true := by decide
      have hblankLine := List.all_eq_true.1 hkeys key hkey
      rwa [Bool.not_eq_true'] at hblankLine
  · exact ⟨[], rfl, fun line hline => absurd hline List.not_mem_nil⟩

/-- The file that the pass writes. -/
def md : String :=
  implementMd p.header p.branch (p.fpLine d) (d.hash p.summary) (p.stallCountAfter d a) (p.writtenSummary s d a)

def specLines : List String := if p.writesSpecFp then ["spec-fingerprint: " ++ d.hash p.effective] else []

/-- The lines of the file. -/
theorem splitlines_md : splitlines (p.md d s a) = ("# Implement (" ++ p.header ++ ")") :: (p.branchLines ++
    (p.specLines d ++ ("summary-fingerprint: " ++ d.hash p.summary) ::
      ("stall-count: " ++ toString (p.stallCountAfter d a)) :: "" :: linesOf (p.writtenSummary s d a))) := by
  have hkeyed : ∀ key value, plain key = true → plain value = true → linesOf (key ++ value) = [key ++ value] := by
    intro key value hkey hvalue
    apply linesOf_of_plain
    rw [plain_append, hkey, hvalue]
    rfl
  have hblank : linesOf "" = [""] := linesOf_of_plain (by decide)
  rw [md, implementMd_eq, splitlines_newline, splitlines_newline, linesOf_header, specLines, fpLine]
  split
  · rw [splitlines_newline, splitlines_newline, splitlines_newline, splitlines_newline,
      hkeyed _ _ (by decide) (plain_hash d _), hkeyed _ _ (by decide) (plain_hash d _),
      hkeyed _ _ (by decide) (plain_int _), hblank]
    rfl
  · rw [String.empty_append, splitlines_newline, splitlines_newline, splitlines_newline,
      hkeyed _ _ (by decide) (plain_hash d _), hkeyed _ _ (by decide) (plain_int _), hblank]
    rfl

theorem firstValue_writtenSummary {key : String} (hkey : key ∈ keys) :
    firstValue key (linesOf (p.writtenSummary s d a)) = firstValue key p.summaryLines := by
  obtain ⟨note, hlines, hnote⟩ := p.linesOf_writtenSummary d s a
  rw [hlines]
  exact firstValue_append_of_neg (fun line hline => hnote line hline key hkey) _

theorem lastValue_writtenSummary {key : String} (hkey : key ∈ keys) :
    lastValue key (linesOf (p.writtenSummary s d a)) = lastValue key p.summaryLines := by
  obtain ⟨note, hlines, hnote⟩ := p.linesOf_writtenSummary d s a
  rw [hlines]
  exact lastValue_append_of_neg (fun line hline => hnote line hline key hkey) _

/-- The title and the blank line have no key. -/
theorem startsWith_title {key : String} (hkey : key ∈ keys) (rest : String) :
    startsWith ("# Implement (" ++ rest) key = false := by
  have hkeys : (keys.all fun key => !"# Implement (".toList.isPrefixOf key.toList &&
      !key.toList.isPrefixOf "# Implement (".toList) = true := by decide
  have hboth := List.all_eq_true.1 hkeys key hkey
  rw [Bool.and_eq_true, Bool.not_eq_true', Bool.not_eq_true'] at hboth
  exact startsWith_of_key (startsWith_key _ rest) hboth.1 hboth.2

/-- Two different keys exclude each other. -/
theorem startsWith_other {key key' : String} (hkey : key ∈ keys) (hkey' : key' ∈ keys) (hne : key ≠ key')
    (value : String) : startsWith (key ++ value) key' = false := by
  have hkeys : (keys.all fun key => keys.all fun key' =>
      decide (key = key') || !key.toList.isPrefixOf key'.toList) = true := by decide
  have hexcludes : ∀ key ∈ keys, ∀ key' ∈ keys, key ≠ key' → key.toList.isPrefixOf key'.toList = false := by
    intro key hkey key' hkey' hne
    have hboth := List.all_eq_true.1 (List.all_eq_true.1 hkeys key hkey) key' hkey'
    rwa [decide_eq_false hne, Bool.false_or, Bool.not_eq_true'] at hboth
  exact startsWith_of_key (startsWith_key key value) (hexcludes key hkey key' hkey' hne)
    (hexcludes key' hkey' key hkey hne.symm)

theorem startsWith_blank {key : String} (hkey : key ∈ keys) : startsWith "" key = false := by
  have hkeys : (keys.all fun key => !startsWith "" key) = true := by decide
  have hblank := List.all_eq_true.1 hkeys key hkey
  rwa [Bool.not_eq_true'] at hblank

/-- What the preflight takes for the fingerprint of the spec. -/
theorem specFingerprintLine_md : (specFingerprintLine (p.md d s a)).getD "" =
    (firstValue "spec-fingerprint: " p.branchLines).getD
      (if p.writesSpecFp then d.hash p.effective else (firstValue "spec-fingerprint: " p.summaryLines).getD "") := by
  have hspec : "spec-fingerprint: " ∈ keys := by decide
  have hsummary : "summary-fingerprint: " ∈ keys := by decide
  have hcount : "stall-count: " ∈ keys := by decide
  rw [specFingerprintLine_eq, splitlines_md, String.append_assoc,
    firstValue_cons_of_neg (startsWith_title hspec _), firstValue_append, specLines]
  cases firstValue "spec-fingerprint: " p.branchLines with
  | some value => rfl
  | none =>
    rw [Option.none_or, Option.getD_none]
    split
    · rw [List.singleton_append, firstValue_cons_of_pos (startsWith_key _ _), keyValue_append, strip_hash]
      rfl
    · rw [List.nil_append, firstValue_cons_of_neg (startsWith_other hsummary hspec (by decide) _),
        firstValue_cons_of_neg (startsWith_other hcount hspec (by decide) _),
        firstValue_cons_of_neg (startsWith_blank hspec), firstValue_writtenSummary d s p a hspec]

/-- What the preflight takes for the stall count. -/
theorem stallCountLine_md : stallCountLine (p.md d s a) =
    ((firstValue "stall-count: " p.branchLines).map countValue).getD (p.stallCountAfter d a) := by
  have hspec : "spec-fingerprint: " ∈ keys := by decide
  have hsummary : "summary-fingerprint: " ∈ keys := by decide
  have hcount : "stall-count: " ∈ keys := by decide
  have hspecLines : ∀ line ∈ p.specLines d, startsWith line "stall-count: " = false := by
    intro line hline
    unfold specLines at hline
    split at hline
    · rw [List.mem_singleton.1 hline]
      exact startsWith_other hspec hcount (by decide) _
    · exact absurd hline List.not_mem_nil
  rw [stallCountLine_eq, splitlines_md, String.append_assoc, firstValue_cons_of_neg (startsWith_title hcount _),
    firstValue_append]
  cases firstValue "stall-count: " p.branchLines with
  | some value => rfl
  | none =>
    rw [Option.none_or, firstValue_append_of_neg hspecLines,
      firstValue_cons_of_neg (startsWith_other hsummary hcount (by decide) _),
      firstValue_cons_of_pos (startsWith_key _ _), keyValue_append, strip_toString, Option.map_some, Option.map_none,
      Option.getD_some, Option.getD_none, countValue, parseInt_toString_int, Option.getD_some]

/-- What the next finalize takes for the summary's fingerprint and the stall count. -/
theorem stallLines_md : stallLines (p.md d s a) =
    ((lastValue "summary-fingerprint: " p.summaryLines).getD (d.hash p.summary),
      ((lastValue "stall-count: " p.summaryLines).map countValue).getD (p.stallCountAfter d a)) := by
  have hsummary : "summary-fingerprint: " ∈ keys := by decide
  have hcount : "stall-count: " ∈ keys := by decide
  have hfp : lastValue "summary-fingerprint: " (splitlines (p.md d s a)) =
      (lastValue "summary-fingerprint: " p.summaryLines).or (some (d.hash p.summary)) := by
    rw [splitlines_md, String.append_assoc, lastValue_cons_of_neg (startsWith_title hsummary _), ← List.append_assoc,
      lastValue_append, lastValue_cons_of_pos (startsWith_key _ _),
      lastValue_cons_of_neg (startsWith_other hcount hsummary (by decide) _),
      lastValue_cons_of_neg (startsWith_blank hsummary), lastValue_writtenSummary d s p a hsummary, keyValue_append,
      strip_hash, Option.or_assoc, Option.some_or]
  have hstall : lastValue "stall-count: " (splitlines (p.md d s a)) =
      (lastValue "stall-count: " p.summaryLines).or (some (toString (p.stallCountAfter d a))) := by
    rw [splitlines_md, String.append_assoc, lastValue_cons_of_neg (startsWith_title hcount _), ← List.append_assoc,
      lastValue_append, lastValue_cons_of_neg (startsWith_other hsummary hcount (by decide) _),
      lastValue_cons_of_pos (startsWith_key _ _), lastValue_cons_of_neg (startsWith_blank hcount),
      lastValue_writtenSummary d s p a hcount, keyValue_append, strip_toString, Option.or_assoc, Option.some_or]
  have hread : countValue (toString (p.stallCountAfter d a)) = p.stallCountAfter d a := by
    rw [countValue, parseInt_toString_int, Option.getD_some]
  rw [stallLines_eq, hfp, hstall]
  refine Prod.ext ?_ ?_
  · cases lastValue "summary-fingerprint: " p.summaryLines <;> rfl
  · cases lastValue "stall-count: " p.summaryLines with
    | none =>
      rw [Option.none_or, Option.map_some, Option.map_none, Option.getD_some, Option.getD_none]
      exact hread
    | some value => rw [Option.some_or, Option.map_some, Option.getD_some, Option.getD_some]

/-- What the preflight takes for the status. -/
theorem endedResumable_md : endedResumable (p.md d s a) = true ↔ p.blocked = true ∨
    contains p.branch "BLOCKED — resumable" = true ∨ contains p.summary "BLOCKED — resumable" = true := by
  have hbehind : ∀ before text : String, 'B' ∉ before.toList →
      (contains (before ++ text) "BLOCKED — resumable" = true ↔ contains text "BLOCKED — resumable" = true) := by
    intro before text hbefore
    unfold contains
    rw [containsChars_iff, containsChars_iff, String.toList_append]
    exact infix_append_iff hbefore
  have hline : ∀ part rest : String, contains (part ++ "\n" ++ rest) "BLOCKED — resumable" = true ↔
      contains part "BLOCKED — resumable" = true ∨ contains rest "BLOCKED — resumable" = true :=
    contains_newline_iff (by decide) (by decide)
  have hnone : ∀ text : String, 'B' ∉ text.toList → contains text "BLOCKED — resumable" = false := fun text h =>
    contains_eq_false (by decide) h
  have hheader : contains ("# Implement (" ++ p.header ++ ")") "BLOCKED — resumable" = true ↔ p.blocked = true := by
    unfold header blocked
    generalize p.transient = transient
    generalize p.ok = ok
    revert transient ok
    decide
  have hsummary : contains (p.writtenSummary s d a ++ "\n") "BLOCKED — resumable" = true ↔
      contains p.summary "BLOCKED — resumable" = true := by
    rw [← String.append_empty (s := p.writtenSummary s d a ++ "\n"), hline]
    unfold writtenSummary
    split
    · rw [hbehind _ p.summary]
      · exact or_iff_left (by decide)
      · rw [String.toList_append]
        exact fun hmem => (List.mem_append.1 hmem).elim (plain_iff.1 (plain_stallNote ..)).2 (by decide)
    · exact or_iff_left (by decide)
  have hrest : contains ("summary-fingerprint: " ++ d.hash p.summary ++ "\n" ++ ("stall-count: " ++
      toString (p.stallCountAfter d a) ++ "\n" ++ ("" ++ "\n" ++ (p.writtenSummary s d a ++ "\n"))))
      "BLOCKED — resumable" = true ↔ contains p.summary "BLOCKED — resumable" = true := by
    have hfp : plain ("summary-fingerprint: " ++ d.hash p.summary) = true := by
      rw [plain_append, plain_hash]
      rfl
    have hcount : plain ("stall-count: " ++ toString (p.stallCountAfter d a)) = true := by
      rw [plain_append, plain_int]
      rfl
    rw [hline, hline, hline, hsummary, hnone _ (plain_iff.1 hfp).2, hnone _ (plain_iff.1 hcount).2,
      hnone "" (by decide)]
    simp
  unfold endedResumable
  rw [md, implementMd_eq, hline, hline, hheader, hbehind "branch: " p.branch (by decide), fpLine]
  split
  · have hspec : plain ("spec-fingerprint: " ++ d.hash p.effective) = true := by
      rw [plain_append, plain_hash]
      rfl
    rw [hline, hrest, hnone _ (plain_iff.1 hspec).2]
    simp
  · rw [String.empty_append, hrest]

end ImplementPass

end Reading

end Stages
end RobotsixMill
