import RobotsixMill.Lib.Runs
import RobotsixMill.Stages.FinalizedPass

/-!
# `Stages.StallLedger` — the stall count over the passes of a ticket

The count of stalled passes and the fingerprint that it is about go from pass to pass through `implement.md`; so does
the count of passes without a diff, in a file of its own.

- `stalls`, `zeroDiffs` — what the two counters should say after some passes;
- `Recorded` — the invariant: they say it, and the next finalize reads the fingerprint of the last pass;
- `stall_ledger_iff` — it is kept, and the file is read back as written, exactly as long as no text looks like a line
  of the header and the fingerprint of the last pass tells of a blocked pass what the summary of the last one that
  counts does.
-/

namespace RobotsixMill
namespace Stages
open RobotsixMill.Core Lib Service

/-! ## Runs of passes -/

/-- The passes that count: all but the transient ones. -/
def counted (passes : List ImplementPass) : List ImplementPass := passes.filter fun p => !p.transient

/-- How often the last blocked pass is a repetition: the blocked passes directly before it, of the same summary. -/
def stalls (passes : List ImplementPass) : Nat :=
  match (counted passes).reverse with
  | [] => 0
  | p :: before =>
    if p.ok then 0 else (before.takeWhile fun q => q.blocked && decide (q.summary = p.summary)).length

/-- The passes at the end that have no diff. -/
def zeroDiffs (passes : List ImplementPass) : Nat :=
  ((counted passes).reverse.takeWhile fun p => !p.hasDiff).length

/-- The artifacts of a ticket, and its passes so far, oldest first. -/
structure StallLedger where
  artifacts : Artifacts := {}
  passes : List ImplementPass := []

section Ledger

variable (s : Settings) (d : ShortDigest)

/-- A pass ends. -/
def StallLedger.Step (l : StallLedger) (p : ImplementPass) (t : StallLedger) : Prop :=
  t = ⟨p.finalizeImpl s d l.artifacts, l.passes ++ [p]⟩

/-- What is read back is what was written, and the stall count is right. -/
structure RecordsRightly (l : StallLedger) (p : ImplementPass) : Prop where
  status : endedResumable (p.md d s l.artifacts) = p.blocked
  specFingerprint : (specFingerprintLine (p.md d s l.artifacts)).getD "" =
    if p.writesSpecFp then d.hash p.effective else ""
  finalize : oldStall (p.finalizeImpl s d l.artifacts) = (d.hash p.summary, p.stallCountAfter d l.artifacts)
  preflight : stallCount (p.finalizeImpl s d l.artifacts) = p.stallCountAfter d l.artifacts
  count : p.stallCountAfter d l.artifacts = stalls (l.passes ++ [p])

/-- Neither the branch name nor the summary has a line that is read in the place of one of the header's and says
    something else; and the last pass has the fingerprint of a blocked one just in case the last that counts is
    blocked and has its summary. -/
structure Unambiguous (l : StallLedger) (p : ImplementPass) : Prop where
  status : p.blocked = true ∨
    contains p.branch "BLOCKED — resumable" = false ∧ contains p.summary "BLOCKED — resumable" = false
  specFingerprint : ∀ value,
    firstValue "spec-fingerprint: " (p.branchLines ++ if p.writesSpecFp then [] else p.summaryLines) = some value →
    value = if p.writesSpecFp then d.hash p.effective else ""
  summaryFingerprint : ∀ value, lastValue "summary-fingerprint: " p.summaryLines = some value →
    value = d.hash p.summary
  stallCount : ∀ value, lastValue "stall-count: " p.summaryLines = some value →
    countValue value = stalls (l.passes ++ [p])
  branchStallCount : ∀ value, firstValue "stall-count: " p.branchLines = some value →
    countValue value = 0 ∨ countValue value = stalls (l.passes ++ [p])
  compared : p.blocked = true → ((∃ q, l.passes.getLast? = some q ∧ d.hash q.summary = d.hash p.summary) ↔
    ∃ q, (counted l.passes).getLast? = some q ∧ q.ok = false ∧ q.summary = p.summary)

/-! ### The counts -/

theorem counted_snoc (passes : List ImplementPass) (p : ImplementPass) :
    counted (passes ++ [p]) = counted passes ++ if p.transient then [] else [p] := by
  unfold counted
  rw [List.filter_append]
  cases htransient : p.transient with
  | true =>
    rw [List.filter_cons_of_neg (by rw [htransient]; decide)]
    rfl
  | false =>
    rw [List.filter_cons_of_pos (by rw [htransient]; decide)]
    rfl

theorem stalls_transient {p : ImplementPass} (h : p.transient = true) (passes : List ImplementPass) :
    stalls (passes ++ [p]) = stalls passes := by
  unfold stalls
  rw [counted_snoc, if_pos h, List.append_nil]

theorem stalls_ok {p : ImplementPass} (htransient : p.transient = false) (hok : p.ok = true)
    (passes : List ImplementPass) : stalls (passes ++ [p]) = 0 := by
  unfold stalls
  rw [counted_snoc, htransient, if_neg Bool.false_ne_true, List.reverse_append]
  exact if_pos hok

/-- A blocked pass after another of its summary is one stall more. -/
theorem stalls_blocked {p : ImplementPass} (htransient : p.transient = false) (hok : p.ok = false)
    {passes : List ImplementPass} {q : ImplementPass} (hq : (counted passes).getLast? = some q) (hqok : q.ok = false)
    (hsame : q.summary = p.summary) : stalls (passes ++ [p]) = stalls passes + 1 := by
  obtain ⟨before, hbefore⟩ : ∃ before, (counted passes).reverse = q :: before := by
    rw [List.getLast?_eq_head?_reverse, List.head?_eq_some_iff] at hq
    exact hq
  have hqblocked : (q.blocked && decide (q.summary = p.summary)) = true := by
    have hmem : q ∈ counted passes := List.mem_reverse.1 (hbefore ▸ List.mem_cons_self)
    have hqtransient := (List.mem_filter.1 hmem).2
    rw [ImplementPass.blocked, hqtransient, hqok, decide_eq_true hsame]
    rfl
  unfold stalls
  rw [counted_snoc, htransient, if_neg Bool.false_ne_true, List.reverse_append, hbefore]
  show (if p.ok = true then 0
    else ((q :: before).takeWhile fun q => q.blocked && decide (q.summary = p.summary)).length) =
    (if q.ok = true then 0
      else (before.takeWhile fun q' => q'.blocked && decide (q'.summary = q.summary)).length) + 1
  have htake : (q :: before).takeWhile (fun q => q.blocked && decide (q.summary = p.summary)) =
      q :: before.takeWhile fun q => q.blocked && decide (q.summary = p.summary) :=
    List.takeWhile_cons_of_pos hqblocked
  rw [hok, hqok, if_neg Bool.false_ne_true, if_neg Bool.false_ne_true, htake, hsame]
  rfl

/-- After any other pass, it is none. -/
theorem stalls_fresh {p : ImplementPass} (htransient : p.transient = false) {passes : List ImplementPass}
    (h : ¬ ∃ q, (counted passes).getLast? = some q ∧ q.ok = false ∧ q.summary = p.summary) :
    stalls (passes ++ [p]) = 0 := by
  unfold stalls
  rw [counted_snoc, htransient, if_neg Bool.false_ne_true, List.reverse_append]
  show (if p.ok = true then 0
    else ((counted passes).reverse.takeWhile fun q => q.blocked && decide (q.summary = p.summary)).length) = 0
  split
  · rfl
  · cases hbefore : (counted passes).reverse with
    | nil => rfl
    | cons q before =>
      have hlast : (counted passes).getLast? = some q := by
        rw [List.getLast?_eq_head?_reverse, hbefore]
        rfl
      rw [List.takeWhile_cons_of_neg]
      · rfl
      · intro hboth
        rw [Bool.and_eq_true, ImplementPass.blocked, Bool.and_eq_true, Bool.not_eq_true', Bool.not_eq_true',
          decide_eq_true_eq] at hboth
        exact h ⟨q, hlast, hboth.1.2, hboth.2⟩

/-- What holds after passes that recorded rightly. -/
structure Recorded (l : StallLedger) : Prop where
  old : oldStall l.artifacts =
    ((l.passes.getLast?.map fun q => d.hash q.summary).getD "", (stalls l.passes : Int))
  stallCount : stallCount l.artifacts = stalls l.passes
  zeroDiff : 0 < s.implementZeroDiffAbortThreshold →
    readCounter l.artifacts.implementZeroDiffCount = zeroDiffs l.passes
  paused : l.artifacts.implementZeroDiffPaused = false

variable {s d}

theorem recorded_start : Recorded s d {} where
  old := rfl
  stallCount := rfl
  zeroDiff _ := rfl
  paused := rfl

/-- A pass repeats the last one if that has its fingerprint. -/
theorem Recorded.repeats_iff {l : StallLedger} (h : Recorded s d l) (p : ImplementPass) :
    p.repeats d l.artifacts = true ↔ ∃ q, l.passes.getLast? = some q ∧ d.hash q.summary = d.hash p.summary := by
  unfold ImplementPass.repeats
  rw [h.old, Bool.and_eq_true, decide_eq_true_eq, decide_eq_true_eq]
  cases hlast : l.passes.getLast? with
  | none =>
    constructor
    · rintro ⟨hne, -⟩
      exact absurd rfl hne
    · rintro ⟨q, hq, -⟩
      cases hq
  | some q =>
    constructor
    · rintro ⟨-, heq⟩
      exact ⟨q, rfl, heq⟩
    · rintro ⟨q', hq', hsame⟩
      obtain rfl := Option.some.inj hq'
      exact ⟨d.hash_ne_empty q.summary, hsame⟩

/-- **The stall count of one pass.** -/
theorem Recorded.count_iff {l : StallLedger} (h : Recorded s d l) (p : ImplementPass) :
    p.stallCountAfter d l.artifacts = stalls (l.passes ++ [p]) ↔
      (p.blocked = true → ((∃ q, l.passes.getLast? = some q ∧ d.hash q.summary = d.hash p.summary) ↔
        ∃ q, (counted l.passes).getLast? = some q ∧ q.ok = false ∧ q.summary = p.summary)) := by
  unfold ImplementPass.stallCountAfter ImplementPass.blocked
  cases htransient : p.transient with
  | true =>
    rw [if_pos rfl, stalls_transient htransient, h.old]
    exact iff_of_true rfl fun hblocked => absurd hblocked Bool.false_ne_true
  | false =>
    rw [if_neg Bool.false_ne_true]
    cases hok : p.ok with
    | true =>
      rw [if_pos rfl, stalls_ok htransient hok]
      exact iff_of_true rfl fun hblocked => absurd hblocked Bool.false_ne_true
    | false =>
      rw [if_neg Bool.false_ne_true, ← h.repeats_iff p, h.old]
      have hblocked : (!false && !false) = true := rfl
      by_cases hsame : ∃ q, (counted l.passes).getLast? = some q ∧ q.ok = false ∧ q.summary = p.summary
      · obtain ⟨q, hq, hqok, hqsame⟩ := hsame
        rw [stalls_blocked htransient hok hq hqok hqsame]
        cases hrepeats : p.repeats d l.artifacts with
        | true => exact iff_of_true rfl fun _ => iff_of_true rfl ⟨q, hq, hqok, hqsame⟩
        | false =>
          rw [if_neg Bool.false_ne_true]
          refine iff_of_false (by omega) fun hiff => ?_
          exact absurd ((hiff hblocked).2 ⟨q, hq, hqok, hqsame⟩) Bool.false_ne_true
      · rw [stalls_fresh htransient hsame]
        cases hrepeats : p.repeats d l.artifacts with
        | true =>
          rw [if_pos rfl]
          refine iff_of_false (by omega) fun hiff => ?_
          exact hsame ((hiff hblocked).1 rfl)
        | false => exact iff_of_true rfl fun _ => iff_of_false Bool.false_ne_true hsame

theorem zeroDiffs_snoc (passes : List ImplementPass) (p : ImplementPass) : zeroDiffs (passes ++ [p]) =
    if p.transient then zeroDiffs passes else if p.hasDiff then 0 else zeroDiffs passes + 1 := by
  unfold zeroDiffs
  rw [counted_snoc]
  cases p.transient with
  | true => rw [if_pos rfl, if_pos rfl, List.append_nil]
  | false =>
    rw [if_neg Bool.false_ne_true, if_neg Bool.false_ne_true, List.reverse_append, List.reverse_singleton,
      List.singleton_append, List.takeWhile_cons]
    cases p.hasDiff <;> rfl

/-- **The zero-diff count of one pass.** -/
theorem Recorded.zeroDiff_finalizeImpl {l : StallLedger} (h : Recorded s d l) (p : ImplementPass)
    (hthreshold : 0 < s.implementZeroDiffAbortThreshold) :
    readCounter (p.finalizeImpl s d l.artifacts).implementZeroDiffCount = zeroDiffs (l.passes ++ [p]) := by
  rw [zeroDiffs_snoc, ImplementPass.finalizeImpl]
  dsimp only
  rw [decide_eq_true hthreshold, Bool.true_and]
  cases p.transient with
  | true => exact h.zeroDiff hthreshold
  | false =>
    rw [Bool.not_false, if_pos rfl, if_neg Bool.false_ne_true]
    cases p.hasDiff with
    | true =>
      rw [if_pos rfl, if_pos rfl]
      decide
    | false =>
      rw [if_neg Bool.false_ne_true, if_neg Bool.false_ne_true, readCounter, h.zeroDiff hthreshold]
      rw [parseInt_toString_int, Option.getD_some]
      rfl

/-! ### One pass -/

/-- What is searched for is found as it was written if every line that is found in its place says the same. -/
theorem getD_eq_iff {α : Type} {found : Option α} {written : α} :
    found.getD written = written ↔ ∀ value, found = some value → value = written := by
  cases found with
  | none => exact iff_of_true rfl fun _ h => by cases h
  | some value => exact ⟨fun h _ hvalue => (Option.some.inj hvalue).symm.trans h, fun h => h value rfl⟩

theorem specFingerprint_iff (l : StallLedger) (p : ImplementPass) :
    (specFingerprintLine (p.md d s l.artifacts)).getD "" = (if p.writesSpecFp then d.hash p.effective else "") ↔
      ∀ value, firstValue "spec-fingerprint: " (p.branchLines ++ if p.writesSpecFp then [] else p.summaryLines) =
        some value → value = if p.writesSpecFp then d.hash p.effective else "" := by
  rw [ImplementPass.specFingerprintLine_md, firstValue_append]
  cases p.writesSpecFp with
  | true =>
    rw [if_pos rfl, if_pos rfl, if_pos rfl, getD_eq_iff]
    cases firstValue "spec-fingerprint: " p.branchLines <;> rfl
  | false =>
    rw [if_neg Bool.false_ne_true, if_neg Bool.false_ne_true, if_neg Bool.false_ne_true, ← getD_eq_iff]
    cases firstValue "spec-fingerprint: " p.branchLines <;> rfl

theorem status_iff (l : StallLedger) (p : ImplementPass) :
    endedResumable (p.md d s l.artifacts) = p.blocked ↔ p.blocked = true ∨
      contains p.branch "BLOCKED — resumable" = false ∧ contains p.summary "BLOCKED — resumable" = false := by
  rw [Bool.eq_iff_iff, ImplementPass.endedResumable_md]
  cases p.blocked with
  | true => exact iff_of_true (iff_of_true (.inl rfl) rfl) (.inl rfl)
  | false =>
    rw [← Bool.not_eq_true, ← Bool.not_eq_true]
    have hfalse : ¬ (false = true) := Bool.false_ne_true
    tauto

theorem oldStall_iff (l : StallLedger) (p : ImplementPass) :
    oldStall (p.finalizeImpl s d l.artifacts) = (d.hash p.summary, p.stallCountAfter d l.artifacts) ↔
      (∀ value, lastValue "summary-fingerprint: " p.summaryLines = some value → value = d.hash p.summary) ∧
        ∀ value, lastValue "stall-count: " p.summaryLines = some value →
          countValue value = p.stallCountAfter d l.artifacts := by
  show stallLines (p.md d s l.artifacts) = _ ↔ _
  rw [ImplementPass.stallLines_md, Prod.mk.injEq, getD_eq_iff, getD_eq_iff]
  apply and_congr_right
  intro _
  cases lastValue "stall-count: " p.summaryLines with
  | none => exact iff_of_true (fun _ h => by cases h) fun _ h => by cases h
  | some value =>
    rw [Option.map_some]
    exact ⟨fun h value' hvalue => h _ (congrArg (Option.map countValue) hvalue),
      fun h count hcount => (Option.some.inj hcount) ▸ h value rfl⟩

/-- The preflight falls back on the JSON when it reads a zero. -/
theorem stallCount_iff (l : StallLedger) (p : ImplementPass) :
    stallCount (p.finalizeImpl s d l.artifacts) = p.stallCountAfter d l.artifacts ↔
      ∀ value, firstValue "stall-count: " p.branchLines = some value →
        countValue value = 0 ∨ countValue value = p.stallCountAfter d l.artifacts := by
  show (if stallCountLine (p.md d s l.artifacts) ≠ 0 then stallCountLine (p.md d s l.artifacts)
    else p.stallCountAfter d l.artifacts) = _ ↔ _
  rw [ImplementPass.stallCountLine_md]
  cases firstValue "stall-count: " p.branchLines with
  | none =>
    rw [Option.map_none, Option.getD_none, ite_self]
    exact iff_of_true rfl fun _ h => by cases h
  | some value =>
    rw [Option.map_some, Option.getD_some]
    constructor
    · intro h value' hvalue
      obtain rfl := Option.some.inj hvalue
      by_cases hzero : countValue value = 0
      · exact .inl hzero
      · rw [if_pos hzero] at h
        exact .inr h
    · intro h
      rcases h value rfl with hzero | hsame
      · exact if_neg (not_not_intro hzero)
      · rw [hsame, ite_self]

theorem Recorded.recordsRightly_iff {l : StallLedger} (h : Recorded s d l) (p : ImplementPass) :
    RecordsRightly s d l p ↔ Unambiguous d l p := by
  constructor
  · intro hright
    have hcount := hright.count
    obtain ⟨hfp, hstall⟩ := (oldStall_iff l p).1 hright.finalize
    rw [hcount] at hstall
    have hbranch := (stallCount_iff l p).1 hright.preflight
    rw [hcount] at hbranch
    exact ⟨(status_iff l p).1 hright.status, (specFingerprint_iff l p).1 hright.specFingerprint, hfp, hstall, hbranch,
      (h.count_iff p).1 hcount⟩
  · intro hclear
    have hcount := (h.count_iff p).2 hclear.compared
    have hstall := hclear.stallCount
    have hbranch := hclear.branchStallCount
    rw [← hcount] at hstall hbranch
    exact ⟨(status_iff l p).2 hclear.status, (specFingerprint_iff l p).2 hclear.specFingerprint,
      (oldStall_iff l p).2 ⟨hclear.summaryFingerprint, hstall⟩, (stallCount_iff l p).2 hbranch, hcount⟩

theorem Recorded.step {l t : StallLedger} {p : ImplementPass} (h : Recorded s d l) (hright : RecordsRightly s d l p)
    (hstep : l.Step s d p t) : Recorded s d t := by
  obtain rfl := hstep
  constructor
  · rw [hright.finalize, hright.count, List.getLast?_concat]
    rfl
  · rw [hright.preflight, hright.count]
  · exact h.zeroDiff_finalizeImpl p
  · unfold ImplementPass.finalizeImpl
    dsimp only
    split
    · rfl
    · exact h.paused

/-! ### The ledger -/

/-- What the two guards say, a block or nothing. -/
def SameVerdicts (s : Settings) (a b : Artifacts) : Prop :=
  (stallGuard s ⟨a, 0⟩).isSome = (stallGuard s ⟨b, 0⟩).isSome ∧
    (zeroDiffGuard s ⟨a, 0⟩).2.isSome = (zeroDiffGuard s ⟨b, 0⟩).2.isSome

variable (s d) in
/-- Passes that differ in transient ones lead to the same verdicts. -/
def TransientsDoNotCount : Prop :=
  ∀ passes passes' t t', Run (Guarded (Unambiguous d) (StallLedger.Step s d)) {} passes t →
    Run (Guarded (Unambiguous d) (StallLedger.Step s d)) {} passes' t' → counted passes = counted passes' →
    SameVerdicts s t.artifacts t'.artifacts

theorem stallGuard_isSome (a : Artifacts) : (stallGuard s ⟨a, 0⟩).isSome =
    decide (0 < stallCount a ∧ 0 < s.implementStallThreshold ∧ (s.implementStallThreshold : Int) ≤ stallCount a) := by
  unfold stallGuard
  dsimp only
  split
  · rename_i hcount
    rw [decide_eq_true hcount]
    split <;> rfl
  · rename_i hcount
    rw [decide_eq_false hcount]
    rfl

theorem zeroDiffGuard_isSome {a : Artifacts} (h : a.implementZeroDiffPaused = false) :
    (zeroDiffGuard s ⟨a, 0⟩).2.isSome = decide (¬ (s.implementZeroDiffAbortThreshold = 0 ∨
      readCounter a.implementZeroDiffCount < s.implementZeroDiffAbortThreshold)) := by
  unfold zeroDiffGuard
  dsimp only
  split
  · rename_i hcount
    rw [decide_eq_false (not_not_intro hcount)]
    rfl
  · rename_i hcount
    rw [decide_eq_true hcount, h]
    rfl

/-- The passes of a run are those that it began with and its own. -/
theorem passes_of_run {cond : StallLedger → ImplementPass → Prop} {l t : StallLedger} {passes : List ImplementPass}
    (h : Run (Guarded cond (StallLedger.Step s d)) l passes t) : t.passes = l.passes ++ passes := by
  induction h with
  | nil l => exact (List.append_nil _).symm
  | @cons l u t p passes hstep _ ih =>
    obtain ⟨-, rfl⟩ := hstep
    rw [ih, List.append_assoc]
    rfl

/-- **The verdicts after a run** are about the passes that count. -/
theorem transientsDoNotCount : TransientsDoNotCount s d := by
  have hrecorded : ∀ passes t, Run (Guarded (Unambiguous d) (StallLedger.Step s d)) {} passes t →
      Recorded s d t ∧ t.passes = passes := by
    intro passes t hrun
    refine ⟨hrun.invariant ?_ recorded_start, passes_of_run hrun⟩
    exact fun l p u hl hstep => hl.step ((hl.recordsRightly_iff p).2 hstep.1) hstep.2
  intro passes passes' t t' hrun hrun' hcounted
  obtain ⟨ht, rfl⟩ := hrecorded passes t hrun
  obtain ⟨ht', rfl⟩ := hrecorded passes' t' hrun'
  constructor
  · have hstalls : stalls t.passes = stalls t'.passes := by
      unfold stalls
      rw [hcounted]
    rw [stallGuard_isSome, stallGuard_isSome, ht.stallCount, ht'.stallCount, hstalls]
  · rw [zeroDiffGuard_isSome ht.paused, zeroDiffGuard_isSome ht'.paused]
    by_cases hthreshold : s.implementZeroDiffAbortThreshold = 0
    · rw [decide_eq_false (not_not_intro (.inl hthreshold)), decide_eq_false (not_not_intro (.inl hthreshold))]
    · have hzero : zeroDiffs t.passes = zeroDiffs t'.passes := by
        unfold zeroDiffs
        rw [hcounted]
      rw [ht.zeroDiff (Nat.pos_of_ne_zero hthreshold), ht'.zeroDiff (Nat.pos_of_ne_zero hthreshold), hzero]

end Ledger

/-! ### A transient pass in between -/

/-- The digests of the two summaries, and that of the empty text for any other. -/
def sampleDigest : ShortDigest where
  hash text :=
    if text = "No change." then "071c134e828c08c7"
    else if text = "HTTP 503" then "1e682c53d8c50a63"
    else "e3b0c44298fc1c14"
  hex text := by
    have hall (digits : String) (h : (digits.toList.all fun c => "0123456789abcdef".toList.contains c) = true) :
        ∀ c ∈ digits.toList, c ∈ "0123456789abcdef".toList :=
      fun c hc => List.contains_iff_mem.1 (List.all_eq_true.1 h c hc)
    split_ifs <;> exact hall _ (by decide +kernel)
  sixteen text := by
    split_ifs <;> decide +kernel

/-- A pass without progress. -/
def stalledPass : ImplementPass :=
  { branch := "mill/t-1", summary := "No change.", ok := false, repoDiff := some false }

/-- A pass that the provider failed. -/
def providerError : ImplementPass := { stalledPass with summary := "HTTP 503", transient := true }

end Stages
end RobotsixMill
