import Mathlib.Data.List.Dedup
import RobotsixMill.Core.Settings
import RobotsixMill.Forge.Http
import RobotsixMill.Lib.PyText
import RobotsixMill.Lib.Glob

/-!
# `Stages.AutoMergeEligible` — the gates of an autonomous merge

`_auto_merge_eligible` refuses a ticket for its configuration, for the author of its pull request, or for a
sensitive path that the pull request touches. The last gate goes through the list of changed files, which it
asks the forge for; what comes back of that list when a request goes wrong is in `Forge.Http`.

- `autoMergeEligible` — the gates, in order;
- `FailsClosed` — the sensitive-path gate passes only over the complete list, with nothing sensitive in it;
- `failsClosed_iff` — exactly when it does.
-/

namespace RobotsixMill
namespace Stages
open RobotsixMill.Core Forge Lib

/-! ## The gates -/

/-- `sorted` of a set of texts, printed. -/
def sortedRepr (allowed : List String) : String :=
  "[" ++ ", ".intercalate ((allowed.dedup.mergeSort fun a b => decide (a ≤ b)).map pyRepr) ++ "]"

/-- What the forge-dependent gates find around them. -/
structure GateForge where
  srv : Server
  /-- The answers to the requests for the list of files. -/
  answers : List (Option Reply)
  /-- The author of the pull request. -/
  author : String
  /-- `get_authenticated_user_login`, which never raises. -/
  botLogin : String

/-- How the gates end: with a verdict and its reason, or an exception, or waiting for an answer. -/
inductive GateEnding
  | waiting
  | raised
  | answered (eligible : Bool) (reason : String)
deriving DecidableEq, Repr

section Gates

variable (s : Settings)

/-- The gates that ask nobody: the reason when one refuses. -/
def configGates (repoId : Option String) : Option String :=
  match repoId with
  | none => some "no repo config available"
  | some repoId =>
    if s.autoMergeEnabled = false then some "auto-merge disabled in global config"
    else if s.autoMergeKillSwitch then some "auto-merge kill-switch is active"
    else if s.reviewEnabled = false then some "review gate disabled — human approval required"
    else if repoId ∈ s.autoMergeInfraDenylist then
      some s!"repo {pyRepr repoId} is on the infra denylist"
    else none

/-- The author is a trusted bot, or there is none to trust. -/
def authorGate (f : GateForge) : Option String :=
  let allowed :=
    if s.orphanedPrBotLogins ≠ [] then s.orphanedPrBotLogins
    else if f.botLogin ≠ "" then [f.botLogin] else []
  if f.author ≠ "" ∧ allowed ≠ [] ∧ f.author ∉ allowed then
    some s!"PR author {pyRepr f.author} is not a trusted bot; allowed: {sortedRepr allowed}"
  else none

end Gates

/-- The sensitive-path gate over the list of files. A path that is no text raises when it is matched. -/
def sensitiveGate (globs : List String) : List FileEntry → GateEnding
  | [] => .answered true "eligible"
  | f :: files =>
    match f.path with
    | .str path =>
      match globs.find? (fnmatch path) with
      | some pattern =>
        .answered false s!"sensitive path touched: {pyRepr path} (matched glob {pyRepr pattern})"
      | none => sensitiveGate globs files
    | _ => if globs = [] then sensitiveGate globs files else .raised

/-- `_auto_merge_eligible`; `forge` is `none` for the callers that give no forge or no pull request. -/
def autoMergeEligible (s : Settings) (repoId branch : Option String) (forge : Option GateForge)
    (skipSensitivePathCheck : Bool) : GateEnding :=
  match configGates s repoId with
  | some reason => .answered false reason
  | none =>
    match forge with
    | none => .answered true "eligible"
    | some f =>
      match authorGate s f with
      | some reason => .answered false reason
      | none =>
        if skipSensitivePathCheck then .answered true "eligible"
        else
          match prFiles f.srv (branch.getD "") f.answers with
          | .waiting => .waiting
          | .raised => .answered false "failed to fetch PR file list"
          | .returned files _ => sensitiveGate s.autoMergeSensitiveGlobs files

/-! ## Failing closed -/

/-- The complete list of the files that pull request `n` changes was obtained: the lookup of the branch gave
    that pull request, and an attempt got every page. -/
def Listed (branch : Option String) (f : GateForge) (n : Nat) : Prop :=
  ∃ pr rest, getPr f.srv (branch.getD "") f.answers = .returned (some pr) rest ∧ pr.number = .num n ∧
    Obtains f.srv n rest

/-- **The gate fails closed**: pull request `n` passes only if the complete list of its files was obtained
    and no path in it matches a sensitive glob. -/
def FailsClosed (s : Settings) (repoId branch : Option String) (f : GateForge) (n : Nat) : Prop :=
  ∀ reason, autoMergeEligible s repoId branch (some f) false = .answered true reason →
    Listed branch f n ∧ ∀ file ∈ f.srv.files n, ∀ glob ∈ s.autoMergeSensitiveGlobs,
      ¬ Matches (parseGlob glob.length glob.toList) file.filename.toList

/-- An entry that the gate stops at: one that matches a glob, or, if there are globs, one that is no text. -/
def Caught (globs : List String) (e : FileEntry) : Prop :=
  globs ≠ [] ∧ ∀ path, e.path = .str path → ∃ glob ∈ globs, Matches (parseGlob glob.length glob.toList) path.toList

/-- The attempt that counts goes on for ever, or it ends, other than in an exception, and a page it got holds
    an entry that the gate stops at. -/
def Stops (globs : List String) (srv : Server) (number : Json) (answers : List (Option Reply)) : Prop :=
  ∃ last, LastAttempt srv number answers last ∧
    ((¬ ∃ k r, Ends PER_PAGE (filesPage srv number) 1 last k r) ∨
      ∃ k r, Ends PER_PAGE (filesPage srv number) 1 last k r ∧ filesPage srv number (1 + k) r ≠ .raised ∧
        ∃ e, Holds (filesPage srv number) 1 last (k + 1) e ∧ Caught globs e)

/-- What keeps the gate closed: another gate refuses, the lookup of the pull request does not return, the
    complete list is obtained, or what is obtained instead has an entry that the gate stops at. -/
def HoldsBack (s : Settings) (repoId branch : Option String) (f : GateForge) (n : Nat) : Prop :=
  configGates s repoId ≠ none ∨ authorGate s f ≠ none ∨
    (¬ ∃ found rest, getPr f.srv (branch.getD "") f.answers = .returned found rest) ∨
    Listed branch f n ∨
    ∃ pr rest, getPr f.srv (branch.getD "") f.answers = .returned (some pr) rest ∧
      Stops s.autoMergeSensitiveGlobs f.srv pr.number rest

theorem sensitiveGate_eligible_iff {globs : List String} {files : List FileEntry} {reason : String} :
    sensitiveGate globs files = .answered true reason ↔
      reason = "eligible" ∧ ∀ e ∈ files, ¬ Caught globs e := by
  induction files with
  | nil =>
      rw [sensitiveGate, GateEnding.answered.injEq]
      constructor
      · rintro ⟨-, rfl⟩
        exact ⟨rfl, fun e he => absurd he List.not_mem_nil⟩
      · rintro ⟨rfl, -⟩
        exact ⟨rfl, rfl⟩
  | cons f files ih =>
      rw [List.forall_mem_cons, sensitiveGate]
      by_cases htext : ∃ path, f.path = .str path
      · obtain ⟨path, hpath⟩ := htext
        have hcaught : Caught globs f ↔ ∃ glob ∈ globs, fnmatch path glob = true := by
          unfold Caught
          constructor
          · rintro ⟨-, h⟩
            obtain ⟨glob, hglob, hmatch⟩ := h path hpath
            exact ⟨glob, hglob, fnmatch_iff.2 hmatch⟩
          · rintro ⟨glob, hglob, hmatch⟩
            refine ⟨List.ne_nil_of_mem hglob, ?_⟩
            intro path' hpath'
            rw [hpath] at hpath'
            cases hpath'
            exact ⟨glob, hglob, fnmatch_iff.1 hmatch⟩
        rw [hpath]
        dsimp only
        cases hfind : globs.find? (fnmatch path) with
        | none =>
            have hfree : ¬ Caught globs f := by
              rw [hcaught]
              rintro ⟨glob, hglob, hmatch⟩
              exact List.find?_eq_none.1 hfind glob hglob hmatch
            dsimp only
            rw [ih]
            exact ⟨fun h => ⟨h.1, hfree, h.2⟩, fun h => ⟨h.1, h.2.2⟩⟩
        | some glob =>
            have hstops : Caught globs f :=
              hcaught.2 ⟨glob, List.mem_of_find?_eq_some hfind, List.find?_some hfind⟩
            exact ⟨fun h => (by cases h), fun h => absurd hstops h.2.1⟩
      · -- matching it raises, unless there is nothing to match it with
        have hcaught : Caught globs f ↔ globs ≠ [] :=
          ⟨fun h => h.1, fun h => ⟨h, fun path hpath => absurd ⟨path, hpath⟩ htext⟩⟩
        rw [hcaught]
        cases hpath : f.path with
        | str path => exact absurd ⟨path, hpath⟩ htext
        | _ =>
            dsimp only
            by_cases hglobs : globs = []
            · rw [if_pos hglobs, ih]
              simp [hglobs]
            · rw [if_neg hglobs]
              simp [hglobs]

theorem autoMergeEligible_eq {s : Settings} {repoId branch : Option String} {f : GateForge}
    (hconfig : configGates s repoId = none) (hauthor : authorGate s f = none) :
    autoMergeEligible s repoId branch (some f) false =
      match prFiles f.srv (branch.getD "") f.answers with
      | .waiting => .waiting
      | .raised => .answered false "failed to fetch PR file list"
      | .returned files _ => sensitiveGate s.autoMergeSensitiveGlobs files := by
  unfold autoMergeEligible
  rw [hconfig]
  dsimp only
  rw [hauthor]
  rfl

/-- **When a ticket passes**: no other gate refuses it, and the list it is given has no entry to stop at. -/
theorem eligible_iff {s : Settings} {repoId branch : Option String} {f : GateForge} {reason : String} :
    autoMergeEligible s repoId branch (some f) false = .answered true reason ↔
      reason = "eligible" ∧ configGates s repoId = none ∧ authorGate s f = none ∧
        ∃ files rest, prFiles f.srv (branch.getD "") f.answers = .returned files rest ∧
          ∀ e ∈ files, ¬ Caught s.autoMergeSensitiveGlobs e := by
  cases hconfig : configGates s repoId with
  | some refusal => simp [autoMergeEligible, hconfig]
  | none =>
      cases hauthor : authorGate s f with
      | some refusal => simp [autoMergeEligible, hconfig, hauthor]
      | none =>
          rw [autoMergeEligible_eq hconfig hauthor]
          cases prFiles f.srv (branch.getD "") f.answers with
          | waiting => simp
          | raised => simp
          | returned files rest =>
              dsimp only
              rw [sensitiveGate_eligible_iff]
              simp

/-- The lookup comes first. -/
theorem prFiles_of_found {srv : Server} {branch : String} {answers rest : List (Option Reply)} {pr : PrDetail}
    (h : getPr srv branch answers = .returned (some pr) rest) :
    prFiles srv branch answers = prFilesOf srv pr.number rest := by
  unfold prFiles
  rw [h]

/-- **The sensitive-path gate fails closed** exactly if something keeps it closed. -/
theorem failsClosed_iff (s : Settings) (repoId branch : Option String) (f : GateForge) (n : Nat) :
    FailsClosed s repoId branch f n ↔ HoldsBack s repoId branch f n := by
  constructor
  · intro hclosed
    by_contra hopen
    -- nothing keeps the gate closed, so the ticket passes, over a list that is not complete
    obtain ⟨hconfig, hopen⟩ := not_or.1 hopen
    obtain ⟨hauthor, hopen⟩ := not_or.1 hopen
    obtain ⟨hfound, hopen⟩ := not_or.1 hopen
    obtain ⟨hlisted, hstops⟩ := not_or.1 hopen
    rw [not_not] at hconfig hauthor hfound
    have hpasses : ∃ files rest, prFiles f.srv (branch.getD "") f.answers = .returned files rest ∧
        ∀ e ∈ files, ¬ Caught s.autoMergeSensitiveGlobs e := by
      obtain ⟨found, rest, hget⟩ := hfound
      cases found with
      | none =>
          refine ⟨[], rest, ?_, fun e he => absurd he List.not_mem_nil⟩
          unfold prFiles
          rw [hget]
      | some pr =>
          obtain ⟨last, hlast⟩ : ∃ last, LastAttempt f.srv pr.number rest last := exists_lastAttempt pr.number rest
          have hends : ∃ k r, Ends PER_PAGE (filesPage f.srv pr.number) 1 last k r := by
            by_contra hnever
            exact hstops ⟨pr, rest, hget, last, hlast, .inl hnever⟩
          obtain ⟨k, r, hends⟩ := hends
          obtain ⟨files, rest', hfiles, hmem⟩ := prFilesOf_of_ends hlast hends
          refine ⟨files, rest', (prFiles_of_found hget).trans hfiles, ?_⟩
          intro e he hcaught
          obtain ⟨hreturns, hholds⟩ := (hmem e).1 he
          exact hstops ⟨pr, rest, hget, last, hlast, .inr ⟨k, r, hends, hreturns, e, hholds, hcaught⟩⟩
    exact hlisted (hclosed "eligible" (eligible_iff.2 ⟨rfl, hconfig, hauthor, hpasses⟩)).1
  · intro hguarded reason hpasses
    obtain ⟨-, hconfig, hauthor, files, rest', hfiles, hfree⟩ := eligible_iff.1 hpasses
    rcases hguarded with h | h | hlookup | hlisted | ⟨pr, rest, hget, last, hlast, hstops⟩
    · exact absurd hconfig h
    · exact absurd hauthor h
    · -- a list is returned only after the lookup has
      refine absurd ?_ hlookup
      unfold prFiles at hfiles
      cases hget : getPr f.srv (branch.getD "") f.answers with
      | waiting =>
          rw [hget] at hfiles
          cases hfiles
      | raised =>
          rw [hget] at hfiles
          cases hfiles
      | returned found rest => exact ⟨found, rest, rfl⟩
    · refine ⟨hlisted, ?_⟩
      obtain ⟨pr, rest, hget, hnumber, hobtains⟩ := hlisted
      obtain ⟨rest'', hcomplete⟩ := prFilesOf_of_obtains hobtains
      rw [prFiles_of_found hget, hnumber, hcomplete] at hfiles
      obtain ⟨rfl, -⟩ := Ending.returned.inj hfiles
      intro file hfile glob hglob hmatch
      refine hfree file.entry (List.mem_map_of_mem hfile) ⟨List.ne_nil_of_mem hglob, ?_⟩
      intro path hpath
      obtain rfl : file.filename = path := Json.str.inj hpath
      exact ⟨glob, hglob, hmatch⟩
    · rw [prFiles_of_found hget] at hfiles
      rcases hstops with hnever | ⟨k, r, hends, hreturns, e, hholds, hcaught⟩
      · rw [prFilesOf_of_not_ends hlast hnever] at hfiles
        cases hfiles
      · obtain ⟨files', rest'', hfiles', hmem⟩ := prFilesOf_of_ends hlast hends
        rw [hfiles'] at hfiles
        obtain ⟨rfl, -⟩ := Ending.returned.inj hfiles
        exact absurd hcaught (hfree e ((hmem e).2 ⟨hreturns, hholds⟩))

/-- Pull request 7 of the branch `mill/t-1` changes a workflow; every request for its files gets a 401. -/
def unauthorizedGate : GateForge where
  srv :=
    { pulls := fun head => if head = "mill/t-1" then [7] else []
      files := fun _ => [{ filename := ".github/workflows/ci.yml" }] }
  answers := [none, none, some (.answer 401 none), some (.answer 401 none)]
  author := "mill[bot]"
  botLogin := "mill[bot]"

/-- The list of a pull request that cannot be read is empty, and an empty list has nothing sensitive in it. -/
theorem gate_fails_open :
    autoMergeEligible { reviewEnabled := true } (some "repo") (some "mill/t-1") (some unauthorizedGate) false =
      .answered true "eligible" ∧
    ¬ FailsClosed { reviewEnabled := true } (some "repo") (some "mill/t-1") unauthorizedGate 7 := by
  have hpasses : autoMergeEligible { reviewEnabled := true } (some "repo") (some "mill/t-1")
      (some unauthorizedGate) false = .answered true "eligible" := by decide +kernel
  refine ⟨hpasses, fun hclosed => ?_⟩
  refine (hclosed _ hpasses).2 { filename := ".github/workflows/ci.yml" } (List.mem_singleton_self _)
    ".github/workflows/**" (by decide +kernel) ?_
  exact fnmatch_iff.1 (by decide +kernel)

end Stages
end RobotsixMill
