import RobotsixMill.Agents.FileTools

/-!
# `Agents.KeptEdits` — what an edit leaves of the file

`edit_file` replaces in the text it has read and writes the whole text back. What the file lost between the two is
lost: a change by a command the cache does not know of, and what reading does not keep, that is, bytes that are not
UTF-8, carriage returns, and all of a PDF but its text.

- `ReplacesFirst` — the bytes before the write, with the first few occurrences replaced;
- `Careful` — the steps after which the text that is cached, or that an edit has read, is the file's;
- `Fresh` — the invariant of runs of such steps;
- `edits_replace_first` — in such runs every edit that succeeds has replaced what it was asked to, and nothing else.
-/

namespace RobotsixMill
namespace Agents
open Lib

variable {Path : Type*} [DecidableEq Path]

/-! ## What is asked of an edit -/

/-- The bytes after are those before with the first `count` occurrences of `old_string` replaced; with `replace_all`,
    all of them. -/
def ReplacesFirst (e : EditJob Path) (before after : Option Bytes) : Prop :=
  ∃ bytes, before = some bytes ∧
    e.times (occurrences beginsChar (encode e.oldString) bytes) ≤
      (occurrences beginsChar (encode e.oldString) bytes : Int) ∧
    after = some (replaced beginsChar (encode e.oldString) (encode e.newString)
      (e.times (occurrences beginsChar (encode e.oldString) bytes)) bytes)

section Conditions

variable (s : FsSettings Path)

/-- The text is that of the file as it is now. -/
def Current (σ : FsState Path) (p : Path) (text : Text) : Prop := readText s p (σ.disk p) = some text

/-- A call has written `p` and has yet to evict it. -/
def Evicting (σ : FsState Path) (p : Path) : Prop :=
  ∃ i job, σ.calls i = some (job, .written) ∧ job.path = p

/-- The edit works on this text. -/
def WorksOn (σ : FsState Path) (e : EditJob Path) (text : Text) : Prop :=
  ∃ i, σ.calls i = some (.edit e, .loaded text) ∨ σ.calls i = some (.edit e, .ready text)

/-- Reading the file and writing it again changes nothing. -/
def Plain (σ : FsState Path) (p : Path) : Prop :=
  s.isPdf p = false ∧ ∃ text, σ.disk p = some (encode text) ∧ '\r' ∉ text

/-- The steps that keep what was read good. `read_file` stores no text the file has no longer, unless a writer is
    about to evict it. An edit writes to a plain file. A write that fails leaves a cached file its text. A command
    changes the text of no file that is cached, unless a writer is about to evict it, or that an edit has read. -/
def Careful (σ : FsState Path) (event : FsEvent Path) : Prop :=
  match event with
  | .begin _ _ => True
  | .advance i =>
    (∀ p text, σ.calls i = some (.read p, .loaded text) → Current s σ p text ∨ Evicting σ p) ∧
      ∀ e text, σ.calls i = some (.edit e, .ready text) → Plain s σ e.path
  | .fail i left => ∀ job stage, σ.calls i = some (job, stage) →
      readText s job.path left = readText s job.path (σ.disk job.path) ∨ σ.cache job.path = none
  | .command p bytes => readText s p bytes = readText s p (σ.disk p) ∨
      ((σ.cache p = none ∨ Evicting σ p) ∧ ∀ e text, WorksOn σ e text → e.path ≠ p)

/-- The call holds the lock of its path. -/
def HasLock (σ : FsState Path) (i : Nat) (job : Job Path) : Prop :=
  ∃ stage, σ.calls i = some (job, stage) ∧ job.locks = true ∧ stage.ended = false

/-- The text that is cached and the texts that edits work on are those of the files. -/
structure Fresh (σ : FsState Path) : Prop where
  exclusive : ∀ i j job job', HasLock σ i job → HasLock σ j job' → job.path = job'.path → i = j
  cached : ∀ p text, σ.cache p = some text → Current s σ p text ∨ Evicting σ p
  worked : ∀ e text, WorksOn σ e text → Current s σ e.path text
  /-- Only calls with a lock write. -/
  writers : ∀ i job, σ.calls i = some (job, .written) → job.locks = true

end Conditions

/-! ## One step -/

section Step

variable {s : FsSettings Path} {σ τ : FsState Path} {i : Nat} {job : Job Path} {stage stage' : Stage}

omit [DecidableEq Path] in
theorem HasLock.of_evicting {j : Nat} {job' : Job Path} (h : σ.calls j = some (job', .written))
    (hlocks : job'.locks = true) : HasLock σ j job' := ⟨.written, h, hlocks, rfl⟩

omit [DecidableEq Path] in
theorem enter_self (σ : FsState Path) : (σ.enter i job stage).calls i = some (job, stage) :=
  Function.update_self _ _ _

omit [DecidableEq Path] in
theorem enter_of_ne (σ : FsState Path) {j : Nat} (h : j ≠ i) : (σ.enter i job stage).calls j = σ.calls j :=
  Function.update_of_ne h _ _

theorem store_self (σ : FsState Path) (p : Path) (text : Option Text) :
    ((σ.store p text).enter i job stage).cache p = text := Function.update_self _ _ _

/-- **A call moves on.** It changes its own file only, with the lock, and is the one to answer for that file. -/
theorem Fresh.of_call (h : Fresh s σ) (call : σ.calls i = some (job, stage)) (going : stage.ended = false)
    (self : τ.calls i = some (job, stage')) (others : ∀ j, j ≠ i → τ.calls j = σ.calls j)
    (disk : ∀ p, p ≠ job.path → τ.disk p = σ.disk p) (cache : ∀ p, p ≠ job.path → τ.cache p = σ.cache p)
    (alone : job.locks = true ∨ τ.disk job.path = σ.disk job.path)
    (cached : ∀ text, τ.cache job.path = some text → Current s τ job.path text ∨ Evicting τ job.path)
    (worked : ∀ e text, job = .edit e → stage' = .loaded text ∨ stage' = .ready text → Current s τ e.path text)
    (writer : stage' = .written → job.locks = true) : Fresh s τ := by
  have hlock : ∀ j job', HasLock τ j job' → HasLock σ j job' := by
    rintro j job' ⟨stage'', hcall, hlocks, hgoing⟩
    by_cases hj : j = i
    · subst hj
      rw [self] at hcall
      obtain ⟨rfl, rfl⟩ := Prod.mk.inj (Option.some.inj hcall)
      exact ⟨stage, call, hlocks, going⟩
    · rw [others j hj] at hcall
      exact ⟨stage'', hcall, hlocks, hgoing⟩
  refine ⟨fun j k job' job'' hj hk => h.exclusive j k job' job'' (hlock j job' hj) (hlock k job'' hk), ?_, ?_, ?_⟩
  · intro p text htext
    by_cases hp : p = job.path
    · subst hp
      exact cached text htext
    · rw [cache p hp] at htext
      rcases h.cached p text htext with hcurrent | ⟨j, job', hcall, hpath⟩
      · left
        unfold Current
        rw [disk p hp]
        exact hcurrent
      · -- it is another call that is about to evict `p`
        right
        refine ⟨j, job', ?_, hpath⟩
        rw [others j ?_]
        · exact hcall
        · rintro rfl
          rw [call] at hcall
          obtain ⟨rfl, -⟩ := Prod.mk.inj (Option.some.inj hcall)
          exact hp hpath.symm
  · rintro e text ⟨j, hcall⟩
    by_cases hj : j = i
    · subst hj
      rw [self] at hcall
      rcases hcall with hcall | hcall <;> obtain ⟨rfl, rfl⟩ := Prod.mk.inj (Option.some.inj hcall)
      · exact worked e text rfl (.inl rfl)
      · exact worked e text rfl (.inr rfl)
    · rw [others j hj] at hcall
      have hcurrent := h.worked e text ⟨j, hcall⟩
      have hsame : τ.disk e.path = σ.disk e.path := by
        by_cases hpath : e.path = job.path
        · rcases alone with hlocks | hsame
          · -- two calls would hold the lock of one path
            have hother : HasLock σ j (.edit e) := by
              rcases hcall with hcall | hcall
              · exact ⟨_, hcall, rfl, rfl⟩
              · exact ⟨_, hcall, rfl, rfl⟩
            exact absurd (h.exclusive j i _ _ hother ⟨stage, call, hlocks, going⟩ hpath) hj
          · rw [hpath]
            exact hsame
        · exact disk e.path hpath
      unfold Current
      rw [hsame]
      exact hcurrent
  · intro j job' hcall
    by_cases hj : j = i
    · subst hj
      rw [self] at hcall
      obtain ⟨rfl, rfl⟩ := Prod.mk.inj (Option.some.inj hcall)
      exact writer rfl
    · rw [others j hj] at hcall
      exact h.writers j job' hcall

/-- The call changes nothing but its stage. -/
theorem Fresh.enter (h : Fresh s σ) (call : σ.calls i = some (job, stage)) (going : stage.ended = false)
    (unwritten : stage ≠ .written)
    (worked : ∀ e text, job = .edit e → stage' = .loaded text ∨ stage' = .ready text → Current s σ e.path text)
    (writer : stage' = .written → job.locks = true) : Fresh s (σ.enter i job stage') := by
  refine h.of_call call going (enter_self σ) (fun j hj => enter_of_ne σ hj) (fun _ _ => rfl) (fun _ _ => rfl)
    (.inr rfl) ?_ worked writer
  intro text htext
  rcases h.cached job.path text htext with hcurrent | ⟨j, job', hcall, hpath⟩
  · exact .inl hcurrent
  · refine .inr ⟨j, job', ?_, hpath⟩
    rw [enter_of_ne σ ?_]
    · exact hcall
    · rintro rfl
      rw [call] at hcall
      exact unwritten (Prod.mk.inj (Option.some.inj hcall)).2

omit [DecidableEq Path] in
/-- An edit that finds its text in the cache finds the file's: nobody else is about to evict it. -/
theorem Fresh.hit (h : Fresh s σ) {e : EditJob Path} (call : σ.calls i = some (.edit e, .started))
    {text : Text} (htext : σ.cache e.path = some text) : Current s σ e.path text := by
  rcases h.cached e.path text htext with hcurrent | ⟨j, job', hcall, hpath⟩
  · exact hcurrent
  · have hj : j = i :=
      h.exclusive j i job' (.edit e) (.of_evicting hcall (h.writers j job' hcall)) ⟨_, call, rfl, rfl⟩ hpath
    subst hj
    rw [call] at hcall
    cases hcall

/-- The call writes its file, and is about to evict it. -/
theorem Fresh.write (h : Fresh s σ) (call : σ.calls i = some (job, stage)) (going : stage.ended = false)
    (locks : job.locks = true) (bytes : Option Bytes) :
    Fresh s ((σ.writeDisk job.path bytes).enter i job .written) := by
  apply h.of_call call going
  · exact enter_self _
  · exact fun j hj => enter_of_ne _ hj
  · exact fun p hp => Function.update_of_ne hp _ _
  · exact fun p _ => rfl
  · exact .inl locks
  · exact fun text _ => .inr ⟨i, job, enter_self _, rfl⟩
  · rintro e text - (hstage | hstage) <;> cases hstage
  · exact fun _ => locks

/-- The call stores a text. -/
theorem Fresh.store (h : Fresh s σ) (call : σ.calls i = some (job, stage)) (going : stage.ended = false)
    (unwritten : stage ≠ .written) {text : Text}
    (current : Current s σ job.path text ∨ Evicting σ job.path)
    (worked : ∀ e text', job = .edit e → stage' = .loaded text' ∨ stage' = .ready text' → Current s σ e.path text')
    (writer : stage' = .written → job.locks = true) :
    Fresh s ((σ.store job.path (some text)).enter i job stage') := by
  apply h.of_call call going
  · exact enter_self _
  · exact fun j hj => enter_of_ne _ hj
  · exact fun p _ => rfl
  · exact fun p hp => Function.update_of_ne hp _ _
  · exact .inr rfl
  · intro text' htext
    rw [store_self] at htext
    obtain rfl := Option.some.inj htext
    rcases current with hcurrent | ⟨j, job', hcall, hpath⟩
    · exact .inl hcurrent
    · refine .inr ⟨j, job', ?_, hpath⟩
      rw [enter_of_ne _ ?_]
      · exact hcall
      · rintro rfl
        rw [call] at hcall
        exact unwritten (Prod.mk.inj (Option.some.inj hcall)).2
  · exact worked
  · exact writer

/-- The call evicts its file. -/
theorem Fresh.evict (h : Fresh s σ) (call : σ.calls i = some (job, .written)) :
    Fresh s ((σ.store job.path none).enter i job .succeeded) := by
  apply h.of_call call rfl
  · exact enter_self _
  · exact fun j hj => enter_of_ne _ hj
  · exact fun p _ => rfl
  · exact fun p hp => Function.update_of_ne hp _ _
  · exact .inr rfl
  · intro text htext
    rw [store_self] at htext
    cases htext
  · rintro e text - (hstage | hstage) <;> cases hstage
  · intro hstage
    cases hstage

omit [DecidableEq Path] in
/-- A stage at which no text is held. -/
theorem idle_worked {P : EditJob Path → Text → Prop}
    (hstage : stage' = .succeeded ∨ stage' = .failed ∨ stage' = .started) :
    ∀ e text, job = .edit e → stage' = .loaded text ∨ stage' = .ready text → P e text := by
  rintro e text - (rfl | rfl) <;> rcases hstage with h | h | h <;> cases h

omit [DecidableEq Path] in
/-- A call begins. -/
theorem Fresh.begin (h : Fresh s σ) (fresh : σ.calls i = none) (lock : job.locks = true → ¬ LockHeld σ job.path) :
    Fresh s (σ.enter i job .started) := by
  have hother : ∀ j job' stage', (σ.enter i job .started).calls j = some (job', stage') →
      (j = i ∧ job' = job ∧ stage' = .started) ∨ σ.calls j = some (job', stage') := by
    intro j job' stage' hcall
    by_cases hj : j = i
    · subst hj
      rw [enter_self] at hcall
      obtain ⟨rfl, rfl⟩ := Prod.mk.inj (Option.some.inj hcall)
      exact .inl ⟨rfl, rfl, rfl⟩
    · rw [enter_of_ne σ hj] at hcall
      exact .inr hcall
  refine ⟨?_, ?_, ?_, ?_⟩
  · rintro j k job' job'' ⟨stage', hj, hlocks, hgoing⟩ ⟨stage'', hk, hlocks', hgoing'⟩ hpath
    rcases hother j job' stage' hj with ⟨rfl, rfl, rfl⟩ | hold
    · rcases hother k job'' stage'' hk with ⟨rfl, -, -⟩ | hold'
      · rfl
      · exact absurd ⟨k, job'', stage'', hold', hlocks', hpath.symm, hgoing'⟩ (lock hlocks)
    · rcases hother k job'' stage'' hk with ⟨rfl, rfl, rfl⟩ | hold'
      · exact absurd ⟨j, job', stage', hold, hlocks, hpath, hgoing⟩ (lock hlocks')
      · exact h.exclusive j k job' job'' ⟨stage', hold, hlocks, hgoing⟩ ⟨stage'', hold', hlocks', hgoing'⟩ hpath
  · intro p text htext
    rcases h.cached p text htext with hcurrent | ⟨j, job', hcall, hpath⟩
    · exact .inl hcurrent
    · refine .inr ⟨j, job', ?_, hpath⟩
      rw [enter_of_ne σ ?_]
      · exact hcall
      · rintro rfl
        rw [fresh] at hcall
        cases hcall
  · rintro e text ⟨j, hcall | hcall⟩
    · rcases hother j _ _ hcall with ⟨-, -, hstage⟩ | hcall
      · cases hstage
      · exact h.worked e text ⟨j, .inl hcall⟩
    · rcases hother j _ _ hcall with ⟨-, -, hstage⟩ | hcall
      · cases hstage
      · exact h.worked e text ⟨j, .inr hcall⟩
  · intro j job' hcall
    rcases hother j _ _ hcall with ⟨-, -, hstage⟩ | hcall
    · cases hstage
    · exact h.writers j job' hcall

/-- A call goes on. -/
theorem Fresh.advance (h : Fresh s σ) (call : σ.calls i = some (job, stage)) (going : stage.ended = false)
    (hcareful : Careful s σ (.advance i)) : Fresh s (advance s σ i job stage) := by
  cases job with
  | read p =>
    cases stage with
    | started =>
      unfold Agents.advance
      dsimp only
      cases σ.cache p with
      | some text => exact h.enter call going (by simp) (idle_worked (.inl rfl)) (by simp)
      | none =>
        cases readText s p (σ.disk p) with
        | none => exact h.enter call going (by simp) (idle_worked (.inr (.inl rfl))) (by simp)
        | some text => exact h.enter call going (by simp) (by simp) (by simp)
    | loaded text =>
      -- it may store what the file had before it was written
      have hcurrent := hcareful.1 p text call
      exact h.store call going (by simp) hcurrent (idle_worked (.inl rfl)) (by simp)
    | ready text => exact h
    | written => exact h.evict call
    | succeeded => cases going
    | failed => cases going
  | write p content =>
    cases stage with
    | started => exact h.write call going rfl (some (encode content))
    | loaded text => exact h
    | ready text => exact h
    | written => exact h.evict call
    | succeeded => cases going
    | failed => cases going
  | edit e =>
    cases stage with
    | started =>
      unfold Agents.advance
      dsimp only
      cases hcache : σ.cache e.path with
      | some text =>
        apply h.enter call going (by simp) _ (by simp)
        intro e' text' he hstage
        obtain rfl := Job.edit.inj he
        have htext : text = text' := by simpa using hstage
        exact htext ▸ h.hit call hcache
      | none =>
        cases hread : readText s e.path (σ.disk e.path) with
        | none => exact h.enter call going (by simp) (idle_worked (.inr (.inl rfl))) (by simp)
        | some text =>
          apply h.enter call going (by simp) _ (by simp)
          intro e' text' he hstage
          obtain rfl := Job.edit.inj he
          have htext : text = text' := by simpa using hstage
          exact htext ▸ hread
    | loaded text =>
      have hcurrent : Current s σ e.path text := h.worked e text ⟨i, .inl call⟩
      apply h.store call going (by simp) (.inl hcurrent) _ (by simp)
      intro e' text' he hstage
      obtain rfl := Job.edit.inj he
      have htext : text = text' := by simpa using hstage
      exact htext ▸ hcurrent
    | ready text =>
      unfold Agents.advance
      dsimp only
      cases editContent s e text with
      | error _ => exact h.enter call going (by simp) (idle_worked (.inr (.inl rfl))) (by simp)
      | ok new => exact h.write call going rfl (some (encode new))
    | written => exact h.evict call
    | succeeded => cases going
    | failed => cases going
  | delete p =>
    cases stage with
    | started =>
      unfold Agents.advance
      dsimp only
      cases σ.disk p with
      | none => exact h.enter call going (by simp) (idle_worked (.inr (.inl rfl))) (by simp)
      | some bytes => exact h.write call going rfl none
    | loaded text => exact h
    | ready text => exact h
    | written => exact h.evict call
    | succeeded => cases going
    | failed => cases going

/-- A call ends in an error. -/
theorem Fresh.fail (h : Fresh s σ) (call : σ.calls i = some (job, stage)) (going : stage.ended = false)
    (before : stage ≠ .written) {left : Option Bytes} (unwritten : job.writesNext stage = false → left = σ.disk job.path)
    (hcareful : Careful s σ (.fail i left)) : Fresh s ((σ.writeDisk job.path left).enter i job .failed) := by
  apply h.of_call call going
  · exact enter_self _
  · exact fun j hj => enter_of_ne _ hj
  · exact fun p hp => Function.update_of_ne hp _ _
  · exact fun p _ => rfl
  · cases hnext : job.writesNext stage with
    | true =>
      left
      cases job with
      | read p => cases hnext
      | write p content => rfl
      | edit e => rfl
      | delete p => rfl
    | false =>
      right
      rw [unwritten hnext]
      exact Function.update_self _ _ _
  · intro text htext
    rcases hcareful job stage call with hsame | hnone
    · rcases h.cached job.path text htext with hcurrent | ⟨j, job', hcall, hpath⟩
      · left
        have hdisk : ((σ.writeDisk job.path left).enter i job .failed).disk job.path = left :=
          Function.update_self _ _ _
        unfold Current
        rw [hdisk, hsame]
        exact hcurrent
      · refine .inr ⟨j, job', ?_, hpath⟩
        rw [enter_of_ne _ ?_]
        · exact hcall
        · rintro rfl
          rw [call] at hcall
          exact before (Prod.mk.inj (Option.some.inj hcall)).2
    · exact absurd (hnone.symm.trans htext) (by simp)
  · exact idle_worked (.inr (.inl rfl))
  · intro hstage
    cases hstage

/-- A command changes a file. -/
theorem Fresh.command (h : Fresh s σ) {p : Path} {bytes : Option Bytes} (hcareful : Careful s σ (.command p bytes)) :
    Fresh s (σ.writeDisk p bytes) := by
  have hother : ∀ q text, q ≠ p → Current s σ q text → Current s (σ.writeDisk p bytes) q text := by
    intro q text hq hcurrent
    have hdisk : (σ.writeDisk p bytes).disk q = σ.disk q := Function.update_of_ne hq _ _
    unfold Current
    rw [hdisk]
    exact hcurrent
  have hdisk : (σ.writeDisk p bytes).disk p = bytes := Function.update_self _ _ _
  have hself : ∀ text, readText s p bytes = readText s p (σ.disk p) → Current s σ p text →
      Current s (σ.writeDisk p bytes) p text := by
    intro text hsame hcurrent
    unfold Current
    rw [hdisk, hsame]
    exact hcurrent
  refine ⟨h.exclusive, ?_, ?_, h.writers⟩
  · intro q text htext
    rcases h.cached q text htext with hcurrent | hevicting
    · by_cases hq : q = p
      · subst hq
        rcases hcareful with hsame | ⟨hnone | hevicting, -⟩
        · exact .inl (hself text hsame hcurrent)
        · exact absurd (hnone.symm.trans htext) (by simp)
        · exact .inr hevicting
      · exact .inl (hother q text hq hcurrent)
    · exact .inr hevicting
  · intro e text hworks
    have hcurrent := h.worked e text hworks
    by_cases hq : e.path = p
    · rcases hcareful with hsame | ⟨-, hfree⟩
      · rw [hq] at hcurrent ⊢
        exact hself text hsame hcurrent
      · exact absurd hq (hfree e text hworks)
    · exact hother e.path text hq hcurrent

/-- **One step** of the careful keeps what was read good. -/
theorem Fresh.step (h : Fresh s σ) {event : FsEvent Path} (hcareful : Careful s σ event)
    (hstep : FsStep s σ event τ) : Fresh s τ := by
  cases hstep with
  | begin i job fresh lock => exact h.begin fresh lock
  | advance i job stage call going => exact h.advance call going hcareful
  | fail i job stage left call going before unwritten => exact h.fail call going before unwritten hcareful
  | command p bytes => exact h.command hcareful

/-! ## The write of an edit -/

omit [DecidableEq Path] in
/-- What an edit writes. -/
theorem editContent_ok {e : EditJob Path} {content new : Text} (h : editContent s e content = .ok new) :
    e.times (occurrences inText e.oldString content) ≤ (occurrences inText e.oldString content : Int) ∧
      new = replaced inText e.oldString e.newString (e.times (occurrences inText e.oldString content)) content := by
  unfold editContent at h
  dsimp only at h
  split at h
  · cases h
  · split at h
    · cases h
    · split at h
      · cases h
      · rename_i hfound
        cases hpython : checkPythonSyntax s e.label
          (replaced inText e.oldString e.newString (e.times (occurrences inText e.oldString content)) content) with
        | some problem =>
          rw [hpython] at h
          cases h
        | none =>
          rw [hpython] at h
          exact ⟨Int.not_lt.1 hfound, (Except.ok.inj h).symm⟩

omit [DecidableEq Path] in
/-- **One edit.** Of a plain file whose text it has, it replaces what it was asked to. -/
theorem replacesFirst_of_current {e : EditJob Path} {text new : Text} (hplain : Plain s σ e.path)
    (hcurrent : Current s σ e.path text) (hok : editContent s e text = .ok new) :
    ReplacesFirst e (σ.disk e.path) (some (encode new)) := by
  obtain ⟨hpdf, plain, hdisk, hreturn⟩ := hplain
  have htext : text = plain := by
    unfold Current readText at hcurrent
    rw [hpdf, hdisk, if_neg Bool.false_ne_true, Option.map_some, readReplace_encode hreturn] at hcurrent
    exact (Option.some.inj hcurrent).symm
  subst htext
  obtain ⟨hcount, rfl⟩ := editContent_ok hok
  have hfound : occurrences beginsChar (encode e.oldString) (encode text) = occurrences inText e.oldString text :=
    utf8Code.occurrences_flatMap e.oldString text
  refine ⟨encode text, hdisk, ?_, ?_⟩
  · rw [hfound]
    exact hcount
  · rw [hfound]
    exact congrArg some (utf8Code.replaced_flatMap e.oldString e.newString text _)

/-- The call is an edit that has written. -/
def Wrote (σ : FsState Path) (i : Nat) (e : EditJob Path) : Prop :=
  σ.calls i = some (.edit e, .written) ∨ σ.calls i = some (.edit e, .succeeded)

/-- The call that goes on keeps its job. -/
theorem advance_self (call : σ.calls i = some (job, stage)) :
    ∃ stage', (advance s σ i job stage).calls i = some (job, stage') := by
  unfold advance
  split
  · split
    · exact ⟨_, enter_self _⟩
    · split <;> exact ⟨_, enter_self _⟩
  · exact ⟨_, enter_self _⟩
  · split
    · exact ⟨_, enter_self _⟩
    · split <;> exact ⟨_, enter_self _⟩
  · exact ⟨_, enter_self _⟩
  · split <;> exact ⟨_, enter_self _⟩
  · exact ⟨_, enter_self _⟩
  · split <;> exact ⟨_, enter_self _⟩
  · exact ⟨_, enter_self _⟩
  · exact ⟨_, call⟩

/-- The others stay where they are. -/
theorem advance_of_ne {j : Nat} (h : j ≠ i) : (advance s σ i job stage).calls j = σ.calls j := by
  unfold advance
  split
  · split
    · exact enter_of_ne _ h
    · split <;> exact enter_of_ne _ h
  · exact enter_of_ne _ h
  · split
    · exact enter_of_ne _ h
    · split <;> exact enter_of_ne _ h
  · exact enter_of_ne _ h
  · split <;> exact enter_of_ne _ h
  · exact enter_of_ne _ h
  · split <;> exact enter_of_ne _ h
  · exact enter_of_ne _ h
  · rfl

/-- A call that has not written yet writes in the step that ends with its being past it. -/
theorem wrote_of_step {event : FsEvent Path} (hstep : FsStep s σ event τ) {e : EditJob Path} (hbefore : ¬ Wrote σ i e)
    (hafter : Wrote τ i e) : event = .advance i ∧ ∃ text new, σ.calls i = some (.edit e, .ready text) ∧
      editContent s e text = .ok new ∧ τ.disk e.path = some (encode new) := by
  have hkept : ∀ {τ : FsState Path}, Wrote τ i e → τ.calls i = σ.calls i → False := by
    intro τ hwrote hsame
    unfold Wrote at hwrote
    rw [hsame] at hwrote
    exact hbefore hwrote
  cases hstep with
  | command p bytes => exact (hkept hafter rfl).elim
  | begin j job fresh lock =>
    by_cases hj : i = j
    · subst hj
      unfold Wrote at hafter
      rw [enter_self] at hafter
      rcases hafter with h | h <;> cases h
    · exact (hkept hafter (enter_of_ne σ hj)).elim
  | fail j job stage left call going before unwritten =>
    by_cases hj : i = j
    · subst hj
      unfold Wrote at hafter
      rw [enter_self] at hafter
      rcases hafter with h | h <;> cases h
    · exact (hkept hafter (enter_of_ne _ hj)).elim
  | advance j job stage call going =>
    by_cases hj : i = j
    · subst hj
      refine ⟨rfl, ?_⟩
      obtain ⟨stage', hafter'⟩ := advance_self (s := s) call
      have hjob : job = .edit e := by
        rcases hafter with h | h <;> exact (Prod.mk.inj (Option.some.inj (hafter'.symm.trans h))).1
      subst hjob
      cases stage with
      | started =>
        unfold advance Wrote at hafter
        dsimp only at hafter
        split at hafter
        · rw [enter_self] at hafter
          rcases hafter with h | h <;> cases h
        · split at hafter <;> rw [enter_self] at hafter <;> rcases hafter with h | h <;> cases h
      | loaded text =>
        unfold advance Wrote at hafter
        dsimp only at hafter
        rw [enter_self] at hafter
        rcases hafter with h | h <;> cases h
      | ready text =>
        refine ⟨text, ?_⟩
        unfold advance Wrote at hafter
        dsimp only at hafter
        cases hok : editContent s e text with
        | error problem =>
          rw [hok] at hafter
          dsimp only at hafter
          rw [enter_self] at hafter
          rcases hafter with h | h <;> cases h
        | ok new =>
          refine ⟨new, call, rfl, ?_⟩
          unfold advance
          dsimp only
          rw [hok]
          exact Function.update_self _ _ _
      | written => exact absurd (.inl call) hbefore
      | succeeded => cases going
      | failed => cases going
    · exact (hkept hafter (advance_of_ne hj)).elim

/-- **Edits lose nothing**, in every run of careful steps: an edit that has written, or has gone on to report success,
    did so in a step that replaced in the bytes on disk what it was asked to. -/
theorem edits_replace_first {disk : Path → Option Bytes} {cache : Path → Option Text} {l : List (FsEvent Path)}
    (hcache : ∀ p text, cache p = some text → readText s p (disk p) = some text)
    (hrun : Run (Guarded (Careful s) (FsStep s)) { disk := disk, cache := cache } l σ) {e : EditJob Path}
    (hwrote : Wrote σ i e) :
    ∃ before after pre post, l = pre ++ .advance i :: post ∧
      Run (FsStep s) { disk := disk, cache := cache } pre before ∧ FsStep s before (.advance i) after ∧
      Run (FsStep s) after post σ ∧ ReplacesFirst e (before.disk e.path) (after.disk e.path) := by
  have hfresh : Fresh s { disk := disk, cache := cache } := by
    refine ⟨?_, fun p text h => .inl (hcache p text h), ?_, ?_⟩
    · rintro j k job job' ⟨stage, hcall, -⟩
      cases hcall
    · rintro e text ⟨j, hcall | hcall⟩ <;> cases hcall
    · intro j job hcall
      cases hcall
  have hnot : ¬ Wrote ({ disk := disk, cache := cache } : FsState Path) i e := by
    rintro (h | h) <;> cases h
  generalize ({ disk := disk, cache := cache } : FsState Path) = start at hrun hfresh hnot
  induction hrun with
  | nil σ => exact absurd hwrote hnot
  | @cons σ₀ σ₁ σ₂ event l hstep hrest ih =>
    by_cases hwritten : Wrote σ₁ i e
    · -- this is the step
      obtain ⟨rfl, text, new, hcall, hok, hdisk⟩ := wrote_of_step hstep.2 hnot hwritten
      refine ⟨σ₀, σ₁, [], l, rfl, .nil _, hstep.2, hrest.unguard, ?_⟩
      rw [hdisk]
      exact replacesFirst_of_current (hstep.1.2 e text hcall) (hfresh.worked e text ⟨i, .inr hcall⟩) hok
    · obtain ⟨before, after, pre, post, rfl, hpre, hat, hpost, hkept⟩ :=
        ih hwrote (hfresh.step hstep.1 hstep.2) hwritten
      exact ⟨before, after, event :: pre, post, rfl, .cons hstep.2 hpre, hat, hpost, hkept⟩

end Step

/-! ## One file -/

/-- Tools on one file that is no Python. -/
def ONE_FILE : FsSettings Unit where
  safe _ := .ok ()
  isPdf _ := false
  extractPdfText _ _ := []
  syntaxError _ _ := none
  rejectPeriodic _ _ := none

/-- Replaces one `a` by `b`. -/
def A_TO_B : EditJob Unit := { label := "f.txt", path := (), oldString := ['a'], newString := ['b'] }

/-- The file has an `a`, and the cache knows it. -/
def SEEDED : FsState Unit where
  disk _ := some (encode ['a'])
  cache _ := some ['a']

theorem seeded_fresh (p : Unit) (text : Text) (h : SEEDED.cache p = some text) :
    readText ONE_FILE p (SEEDED.disk p) = some text := by
  obtain rfl := Option.some.inj h
  exact congrArg some (readReplace_encode (by decide))

/-- The edit begins, and finds its text in the cache. -/
def READ : FsState Unit := (SEEDED.enter 0 (.edit A_TO_B) .started).enter 0 (.edit A_TO_B) (.ready ['a'])

theorem reads : Run (Guarded (Careful ONE_FILE) (FsStep ONE_FILE)) SEEDED [.begin 0 (.edit A_TO_B), .advance 0] READ := by
  refine .cons ⟨trivial, .begin 0 (.edit A_TO_B) rfl ?_⟩ (.single ⟨⟨?_, ?_⟩, ?_⟩)
  · rintro - ⟨i, job, stage, hcall, -⟩
    cases hcall
  · intro p text hcall
    rw [enter_self] at hcall
    cases hcall
  · intro e text hcall
    rw [enter_self] at hcall
    cases hcall
  · exact .advance 0 (.edit A_TO_B) .started (enter_self _) rfl

/-- The edit of the file as it is on this disk. -/
def WRITTEN (disk : Unit → Option Bytes) : FsState Unit :=
  (({ READ with disk := disk } : FsState Unit).writeDisk () (some (encode ['b']))).enter 0 (.edit A_TO_B) .written

theorem writes (disk : Unit → Option Bytes) :
    FsStep ONE_FILE { READ with disk := disk } (.advance 0) (WRITTEN disk) :=
  .advance 0 (.edit A_TO_B) (.ready ['a']) rfl rfl

/-- An edit with nobody around. -/
theorem lone_edit : ∃ before after pre post,
    ([.begin 0 (.edit A_TO_B), .advance 0] ++ [.advance 0] : List (FsEvent Unit)) = pre ++ .advance 0 :: post ∧
      Run (FsStep ONE_FILE) SEEDED pre before ∧ FsStep ONE_FILE before (.advance 0) after ∧
      Run (FsStep ONE_FILE) after post (WRITTEN READ.disk) ∧
      ReplacesFirst A_TO_B (before.disk ()) (after.disk ()) := by
  have hcareful : Careful ONE_FILE READ (.advance 0) := by
    constructor
    · intro p text hcall
      unfold READ at hcall
      rw [enter_self] at hcall
      cases hcall
    · intro e text _
      exact ⟨rfl, ['a'], rfl, by decide⟩
  exact edits_replace_first seeded_fresh (reads.snoc ⟨hcareful, writes READ.disk⟩) (.inl (enter_self _))

/-- A command changes the file between an edit's read and its write, and is undone. -/
theorem command_reverted :
    ¬ ∀ (s : FsSettings Unit) (start σ τ : FsState Unit) (l : List (FsEvent Unit)) (i : Nat) (e : EditJob Unit)
        (text : Text), start.calls = (fun _ => none) →
        (∀ p text, start.cache p = some text → readText s p (start.disk p) = some text) →
        Run (FsStep s) start l σ → σ.calls i = some (.edit e, .ready text) → FsStep s σ (.advance i) τ →
        τ.calls i = some (.edit e, .written) → ReplacesFirst e (σ.disk e.path) (τ.disk e.path) := by
  intro h
  have hrun : Run (FsStep ONE_FILE) SEEDED ([.begin 0 (.edit A_TO_B), .advance 0] ++ [.command () (some [0x61, 0x63])])
      { READ with disk := Function.update READ.disk () (some [0x61, 0x63]) } :=
    reads.unguard.snoc (.command () (some [0x61, 0x63]))
  have hcall : READ.calls 0 = some (.edit A_TO_B, .ready ['a']) := enter_self _
  obtain ⟨bytes, hbefore, -, hafter⟩ := h ONE_FILE SEEDED _ _ _ 0 A_TO_B ['a'] rfl seeded_fresh hrun hcall
    (writes _) (enter_self _)
  have hbytes : bytes = [0x61, 0x63] := by
    have hdisk := hbefore.symm.trans (Function.update_self () (some ([0x61, 0x63] : Bytes)) READ.disk)
    exact Option.some.inj hdisk
  subst hbytes
  -- the `c` is lost
  have hlost : some (encode ['b']) = some (replaced beginsChar (encode ['a']) (encode ['b'])
      (A_TO_B.times (occurrences beginsChar (encode ['a']) [0x61, 0x63])) [0x61, 0x63]) := hafter
  exact absurd hlost (by decide)

end Agents
end RobotsixMill
