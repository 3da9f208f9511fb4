import Mathlib.Data.List.Dedup
import Mathlib.Data.List.Sort
import Mathlib.Data.String.Basic
import RobotsixMill.Lib.PyText
import RobotsixMill.Lib.Table

/-!
# `Scm.RebaseIntegrity` — did the rebase keep the branch's files?

`check_rebase_diff_integrity` compares the files a branch changed before a rebase with those it changes after
it. A file that left the diff is excused when the target carries the branch's own blob for it, or when the branch
had added it and the target carries the path. Two things differ from what its docstring says: a path is exempt
when it merely *starts with* an exempt path, and without any pre-rebase blob every candidate is reported, also
one the branch had added.

- `checkRebaseDiffIntegrity` — the check;
- `VerdictSound` — what its docstring promises of the verdict;
- `verdict_sound_iff` — the inputs on which it keeps the promise.
-/

namespace RobotsixMill
namespace Scm
open Lib

/-! ## The check -/

/-- The content of one commit: the blob id of each path it carries. -/
abbrev Blobs := String → Option String

/-- The clone after the rebase. -/
structure RebasedRepo where
  /-- `changed_source_files`. -/
  postFiles : List String
  /-- `origin/<target>`. -/
  target : Blobs
  /-- `ORIG_HEAD`; without the ref no path is found. -/
  origHead : Blobs := fun _ => none
  /-- The merge-base of `ORIG_HEAD` and `origin/<target>`, if git finds it. -/
  base : Option Blobs := none

/-- What the caller kept from before the rebase. -/
structure PreRebase where
  files : List String
  blobs : Option (Table String String) := none
  exemptPaths : Option (List String) := none
  targetBlobs : Option (Table String String) := none

structure IntegrityVerdict where
  ok : Bool
  dropped : List String
  siblingLikely : List String
deriving DecidableEq, Repr

def DEFAULT_REBASE_DROP_EXEMPT_PATHS : List String :=
  ["CHANGELOG.md", "docs/modules.yaml", "site/modules.yaml", ".secrets.baseline", "uv.lock"]

/-- `file_blobs`. -/
def fileBlobs (tree : Blobs) (paths : List String) : Table String String :=
  .ofPairs (paths.filterMap fun path => (tree path).map fun sha => (path, sha))

/-- `_pre_rebase_base_blobs`. -/
def preRebaseBaseBlobs (r : RebasedRepo) (paths : List String) : Option (Table String String) :=
  r.base.map fun base => fileBlobs base paths

/-- `sorted` of a set of paths. -/
def sortedPaths (paths : List String) : List String := paths.dedup.mergeSort fun f g => decide (f ≤ g)

section Check

variable (r : RebasedRepo) (pre : PreRebase)

def excludedPrefixes : List String := pre.exemptPaths.getD DEFAULT_REBASE_DROP_EXEMPT_PATHS

/-- `any(f == p or f.startswith(p) for p in excluded_prefixes)`. -/
def isExcluded (f : String) : Bool := (excludedPrefixes pre).any fun p => f == p || startsWith f p

def candidates : List String :=
  sortedPaths (pre.files.filter fun f => !isExcluded pre f && !r.postFiles.contains f)

/-- `pre_blobs`: the snapshot, filled from `ORIG_HEAD`. -/
def preBlobs : Table String String :=
  let snapshot := pre.blobs.getD .empty
  snapshot.update (fileBlobs r.origHead ((candidates r pre).filter fun f => !snapshot.has f))

/-- What the loop makes of one candidate. -/
inductive FileVerdict
  | excused | siblingLikely | dropped
deriving DecidableEq, Repr

/-- One round of the loop. -/
def judgeFile (f : String) : FileVerdict :=
  let targetBlobs := fileBlobs r.target (candidates r pre)
  let baseBlobs := preRebaseBaseBlobs r (candidates r pre)
  if (preBlobs r pre).has f && targetBlobs.get f == (preBlobs r pre).get f then .excused
  else if targetBlobs.has f && baseBlobs.any fun base => !base.has f then .excused
  else if pre.targetBlobs.any fun before => before.has f && before.get f != targetBlobs.get f then .siblingLikely
  else .dropped

def checkRebaseDiffIntegrity : IntegrityVerdict :=
  if pre.files = [] then ⟨true, [], []⟩
  else if candidates r pre = [] then ⟨true, [], []⟩
  else if (preBlobs r pre).keys = [] then ⟨(candidates r pre).isEmpty, candidates r pre, []⟩
  else
    let dropped := (candidates r pre).filter fun f => judgeFile r pre f == .dropped
    let siblingLikely := (candidates r pre).filter fun f => judgeFile r pre f == .siblingLikely
    ⟨dropped.isEmpty && siblingLikely.isEmpty, dropped, siblingLikely⟩

end Check

/-! ## What it is for -/

section Spec

variable (r : RebasedRepo) (pre : PreRebase)

/-- `f` is the path `p`, or a file under the directory `p`. -/
def isUnder (p f : String) : Bool :=
  f == p || startsWith f (if p.toList.getLast? = some '/' then p else p ++ "/")

def isExempt (f : String) : Bool := (excludedPrefixes pre).any fun p => isUnder p f

/-- The branch's pre-rebase blob, from the snapshot or from `ORIG_HEAD`. -/
def preBlob (f : String) : Option String := ((pre.blobs.getD .empty).get f).or (r.origHead f)

/-- The target carries exactly what the branch had. -/
def upstreamHasBlob (f : String) : Bool := (preBlob r pre f).isSome && r.target f == preBlob r pre f

/-- The branch added the path, and the target carries it. -/
def addedAndCarried (f : String) : Bool := (r.target f).isSome && r.base.any fun base => (base f).isNone

def isExcused (f : String) : Bool := upstreamHasBlob r pre f || addedAndCarried r f

/-- The file has to be reported. -/
def Offending (f : String) : Prop :=
  f ∈ pre.files ∧ isExempt pre f = false ∧ f ∉ r.postFiles ∧ isExcused r pre f = false

instance (f : String) : Decidable (Offending r pre f) := inferInstanceAs (Decidable (_ ∧ _ ∧ _ ∧ _))

/-- **What the verdict promises.** -/
structure VerdictSound (v : IntegrityVerdict) : Prop where
  ok_iff : v.ok = true ↔ ∀ f, ¬ Offending r pre f
  reported_iff : ∀ f, f ∈ v.dropped ∨ f ∈ v.siblingLikely ↔ Offending r pre f
  disjoint : ∀ f ∈ v.dropped, f ∉ v.siblingLikely
  sibling_changed : ∀ f ∈ v.siblingLikely, ∃ before blob,
    pre.targetBlobs = some before ∧ before.get f = some blob ∧ r.target f ≠ some blob

end Spec

/-! ## Reading the tables -/

section Tables

theorem get_fileBlobs (tree : Blobs) (paths : List String) (f : String) :
    (fileBlobs tree paths).get f = if f ∈ paths then tree f else none :=
  Table.get_ofPairs_filterMap tree paths f

theorem has_fileBlobs {tree : Blobs} {paths : List String} {f : String} (h : f ∈ paths) :
    (fileBlobs tree paths).has f = (tree f).isSome := by
  rw [Table.has, get_fileBlobs, if_pos h]

variable {r : RebasedRepo} {pre : PreRebase} {f : String}

theorem mem_candidates :
    f ∈ candidates r pre ↔ f ∈ pre.files ∧ isExcluded pre f = false ∧ f ∉ r.postFiles := by
  simp [candidates, sortedPaths]

/-- An exempt path starts with an exempt prefix. -/
theorem isExcluded_of_isExempt (h : isExempt pre f = true) : isExcluded pre f = true := by
  obtain ⟨p, hp, hunder⟩ := List.any_eq_true.1 h
  refine List.any_eq_true.2 ⟨p, hp, ?_⟩
  rw [isUnder, Bool.or_eq_true] at hunder
  rw [Bool.or_eq_true]
  refine hunder.imp_right fun hstarts => ?_
  split at hstarts
  · exact hstarts
  · rw [startsWith, List.isPrefixOf_iff_prefix] at hstarts ⊢
    refine List.IsPrefix.trans ?_ hstarts
    rw [String.toList_append]
    exact List.prefix_append _ _

/-- For a candidate, the filled snapshot has the branch's blob. -/
theorem get_preBlobs (h : f ∈ candidates r pre) : (preBlobs r pre).get f = preBlob r pre f := by
  rw [preBlobs, Table.get_update, get_fileBlobs, preBlob]
  cases hget : (pre.blobs.getD .empty).get f with
  | some blob =>
      have hout : f ∉ (candidates r pre).filter fun f => !(pre.blobs.getD .empty).has f := by
        simp [Table.has, hget]
      rw [if_neg hout]
      rfl
  | none =>
      have hin : f ∈ (candidates r pre).filter fun f => !(pre.blobs.getD .empty).has f :=
        List.mem_filter.2 ⟨h, by simp [Table.has, hget]⟩
      rw [if_pos hin]
      simp

/-- No blob at all: the snapshot is empty, and `ORIG_HEAD` has none of the candidates. -/
theorem preBlobs_keys_eq_nil : (preBlobs r pre).keys = [] ↔
    (pre.blobs.getD .empty).keys = [] ∧ ∀ f ∈ candidates r pre, r.origHead f = none := by
  rw [Table.keys_eq_nil_iff, Table.keys_eq_nil_iff]
  constructor
  · intro hnone
    have hsnapshot : ∀ k, (pre.blobs.getD .empty).get k = none := by
      intro k
      have hk := hnone k
      rw [preBlobs, Table.get_update, Option.or_eq_none_iff] at hk
      exact hk.2
    refine ⟨hsnapshot, fun f hf => ?_⟩
    have hblob := get_preBlobs hf
    rw [hnone f, preBlob, hsnapshot f] at hblob
    exact hblob.symm
  · rintro ⟨hsnapshot, horig⟩ k
    rw [preBlobs, Table.get_update, hsnapshot k, get_fileBlobs]
    split
    case isTrue hk => simp [horig k (List.mem_of_mem_filter hk)]
    case isFalse => rfl

/-! ## The loop -/

theorem judgeFile_eq (h : f ∈ candidates r pre) : judgeFile r pre f =
    if isExcused r pre f then .excused
    else if pre.targetBlobs.any fun before => before.has f && before.get f != r.target f then .siblingLikely
    else .dropped := by
  have htarget : (fileBlobs r.target (candidates r pre)).get f = r.target f := by rw [get_fileBlobs, if_pos h]
  have hbase : (preRebaseBaseBlobs r (candidates r pre)).any (fun base => !base.has f) =
      r.base.any fun base => (base f).isNone := by
    rw [preRebaseBaseBlobs]
    cases r.base with
    | none => rfl
    | some base => simp [has_fileBlobs h]
  have hpre : (preBlobs r pre).has f = (preBlob r pre f).isSome := by rw [Table.has, get_preBlobs h]
  rw [judgeFile, hpre, htarget, get_preBlobs h, has_fileBlobs h, hbase]
  show (if upstreamHasBlob r pre f then FileVerdict.excused else
    if addedAndCarried r f then .excused else _) = _
  rw [isExcused]
  cases upstreamHasBlob r pre f <;> cases addedAndCarried r f <;> rfl

theorem judgeFile_excused (h : f ∈ candidates r pre) :
    judgeFile r pre f = .excused ↔ isExcused r pre f = true := by
  rw [judgeFile_eq h]
  split
  case isTrue hex => simp [hex]
  case isFalse hex => split <;> simp [hex]

/-- A file is called superseded only if the target changed it meanwhile. -/
theorem changed_of_siblingLikely (h : f ∈ candidates r pre) (hj : judgeFile r pre f = .siblingLikely) :
    ∃ before blob, pre.targetBlobs = some before ∧ before.get f = some blob ∧ r.target f ≠ some blob := by
  rw [judgeFile_eq h] at hj
  split at hj
  · cases hj
  · split at hj
    case isTrue hchanged =>
      obtain ⟨before, hbefore, hb⟩ := (Option.any_eq_true _ _).1 hchanged
      rw [Bool.and_eq_true, Table.has, Option.isSome_iff_exists] at hb
      obtain ⟨⟨blob, hblob⟩, hne⟩ := hb
      refine ⟨before, blob, hbefore, hblob, fun heq => ?_⟩
      rw [hblob, heq] at hne
      simp at hne
    case isFalse => cases hj

/-! ## The verdict -/

/-- The verdict is ok exactly when it reports nothing. -/
theorem ok_iff_nothing_reported : (checkRebaseDiffIntegrity r pre).ok = true ↔
    (checkRebaseDiffIntegrity r pre).dropped = [] ∧ (checkRebaseDiffIntegrity r pre).siblingLikely = [] := by
  unfold checkRebaseDiffIntegrity
  split
  · simp
  · split
    · simp
    · split <;> simp

/-- Whatever is called superseded is a candidate the loop judged so. -/
theorem mem_siblingLikely (h : f ∈ (checkRebaseDiffIntegrity r pre).siblingLikely) :
    f ∈ candidates r pre ∧ judgeFile r pre f = .siblingLikely ∧ f ∉ (checkRebaseDiffIntegrity r pre).dropped := by
  unfold checkRebaseDiffIntegrity at h ⊢
  split at h
  · cases h
  · split at h
    · cases h
    · split at h
      · cases h
      · obtain ⟨hmem, hj⟩ := List.mem_filter.1 h
        have hj : judgeFile r pre f = .siblingLikely := by simpa using hj
        simp_all

/-- What is reported: every candidate when no blob is known, else those without an excuse. -/
theorem reported_iff :
    f ∈ (checkRebaseDiffIntegrity r pre).dropped ∨ f ∈ (checkRebaseDiffIntegrity r pre).siblingLikely ↔
      f ∈ candidates r pre ∧ ((preBlobs r pre).keys = [] ∨ isExcused r pre f = false) := by
  unfold checkRebaseDiffIntegrity
  split
  case isTrue hfiles =>
    have hout : f ∉ candidates r pre := fun h => by simpa [hfiles] using (mem_candidates.1 h).1
    simp [hout]
  case isFalse =>
    split
    case isTrue hnone => simp [hnone]
    case isFalse =>
      split
      case isTrue hkeys => simp [hkeys]
      case isFalse hkeys =>
        simp only [List.mem_filter, beq_iff_eq, hkeys, false_or, ← and_or_left]
        refine and_congr_right fun hf => ?_
        rw [← Bool.not_eq_true, ← judgeFile_excused hf]
        cases judgeFile r pre f <;> simp

end Tables

section Soundness

variable (r : RebasedRepo) (pre : PreRebase)

/-- A missing file without an excuse is skipped, because it starts like an exempt path. -/
def OverExempted : Prop :=
  ∃ f ∈ pre.files, isExcluded pre f = true ∧ isExempt pre f = false ∧ f ∉ r.postFiles ∧ isExcused r pre f = false

/-- No pre-rebase blob is known, and a candidate the branch had added is on the target. -/
def AdditionReported : Prop :=
  (pre.blobs.getD .empty).keys = [] ∧ (∀ f ∈ candidates r pre, r.origHead f = none) ∧
    ∃ f ∈ candidates r pre, addedAndCarried r f = true

/-- **The integrity verdict**: the check says what it promises, except where it takes a path for exempt that
    is not, or reports an addition the target carries. -/
theorem verdict_sound_iff : VerdictSound r pre (checkRebaseDiffIntegrity r pre) ↔
    ¬ OverExempted r pre ∧ ¬ AdditionReported r pre := by
  constructor
  · intro hsound
    constructor
    · rintro ⟨f, hf, hexcluded, hexempt, hpost, hexcused⟩
      have hreported := (hsound.reported_iff f).2 ⟨hf, hexempt, hpost, hexcused⟩
      have hcand := (mem_candidates.1 (reported_iff.1 hreported).1).2.1
      rw [hexcluded] at hcand
      cases hcand
    · rintro ⟨hsnapshot, horig, f, hf, hadded⟩
      have hreported := reported_iff.2 ⟨hf, .inl (preBlobs_keys_eq_nil.2 ⟨hsnapshot, horig⟩)⟩
      have hexcused := ((hsound.reported_iff f).1 hreported).2.2.2
      rw [isExcused, hadded, Bool.or_true] at hexcused
      cases hexcused
  · rintro ⟨hover, hadded⟩
    have hreport : ∀ f, f ∈ (checkRebaseDiffIntegrity r pre).dropped ∨
        f ∈ (checkRebaseDiffIntegrity r pre).siblingLikely ↔ Offending r pre f := by
      intro f
      rw [reported_iff]
      constructor
      · rintro ⟨hf, hwhy⟩
        obtain ⟨hmem, hexcluded, hpost⟩ := mem_candidates.1 hf
        have hexempt : isExempt pre f = false := by
          cases h : isExempt pre f with
          | false => rfl
          | true => rw [isExcluded_of_isExempt h] at hexcluded; cases hexcluded
        refine ⟨hmem, hexempt, hpost, ?_⟩
        rcases hwhy with hkeys | hexcused
        · -- without any blob the only excuse is to be an addition
          obtain ⟨hsnapshot, horig⟩ := preBlobs_keys_eq_nil.1 hkeys
          have hblob : preBlob r pre f = none := by
            rw [preBlob, horig f hf, Table.keys_eq_nil_iff.1 hsnapshot f]
            rfl
          rw [isExcused, upstreamHasBlob, hblob, Option.isSome_none, Bool.false_and, Bool.false_or,
            ← Bool.not_eq_true]
          exact fun h => hadded ⟨hsnapshot, horig, f, hf, h⟩
        · exact hexcused
      · rintro ⟨hmem, hexempt, hpost, hexcused⟩
        refine ⟨mem_candidates.2 ⟨hmem, ?_, hpost⟩, .inr hexcused⟩
        rw [← Bool.not_eq_true]
        exact fun h => hover ⟨f, hmem, h, hexempt, hpost, hexcused⟩
    refine ⟨?_, hreport, ?_, ?_⟩
    · rw [ok_iff_nothing_reported, List.eq_nil_iff_forall_not_mem, List.eq_nil_iff_forall_not_mem, ← forall_and]
      refine forall_congr' fun f => ?_
      rw [← not_or, hreport f]
    · exact fun f hdropped hsibling => (mem_siblingLikely hsibling).2.2 hdropped
    · intro f hf
      obtain ⟨hcand, hj, -⟩ := mem_siblingLikely hf
      exact changed_of_siblingLikely hcand hj

end Soundness

/-- The rebase lost `uv.lock.py`, and the target never had it. -/
theorem prefix_hides_dropped_file :
    let r : RebasedRepo := { postFiles := ["src/app.py"], target := fun _ => none, base := some fun _ => none }
    let pre : PreRebase :=
      { files := ["src/app.py", "uv.lock.py"], blobs := some (.ofPairs [("src/app.py", "a1"), ("uv.lock.py", "b2")]) }
    (checkRebaseDiffIntegrity r pre).ok = true ∧ Offending r pre "uv.lock.py" ∧
      ¬ VerdictSound r pre (checkRebaseDiffIntegrity r pre) := by
  intro r pre
  have hok : (checkRebaseDiffIntegrity r pre).ok = true := by decide +kernel
  have hoff : Offending r pre "uv.lock.py" := by decide +kernel
  exact ⟨hok, hoff, fun h => h.ok_iff.1 hok _ hoff⟩

end Scm
end RobotsixMill
