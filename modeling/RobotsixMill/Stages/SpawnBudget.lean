import RobotsixMill.Lib.Runs
import RobotsixMill.Stages.Preflight

/-!
# `Stages.SpawnBudget` — the spawn counter, when the process can die

A dispatch of the implement stage writes two files, one after the other: the counter and the in-flight marker. The
process may die between any two of these writes; what it leaves is for the next preflight to interpret.

- `absorbWrites`, `countWrites` — the writes of a preflight in order (`absorbWrites_eq`, `countWrites_eq`);
- `Fate` — how far a dispatch gets;
- `spawn_budget_iff` — the counter counts the attempts that ended, exactly as long as no dispatch dies with one of
  the two files written and not the other.
-/

namespace RobotsixMill
namespace Stages
open RobotsixMill.Core Lib

/-! ## The writes of a dispatch -/

/-- One write, or one removal, of a file. -/
abbrev FileWrite := Artifacts → Artifacts

def applyWrites (writes : List FileWrite) (a : Artifacts) : Artifacts := writes.foldl (fun a write => write a) a

def writeCounter (text : String) : FileWrite := fun a => { a with implementSpawnCount := some text }

def appendAbort (abort : SpawnAbort) : FileWrite :=
  fun a => { a with implementSpawnAbortsJsonl := a.implementSpawnAbortsJsonl ++ [abort] }

/-- The writes of `detect_and_absorb_killed_spawn`. -/
def absorbWrites (now : DateTime) (a : Artifacts) : List FileWrite :=
  match a.implementSpawnStateJson with
  | .absent => []
  | .corrupt => [clearSpawnInFlight]
  | .ok st =>
    if st.state ≠ IN_FLIGHT then [clearSpawnInFlight]
    else
      let abort : SpawnAbort :=
        { startedAt := st.startedAt, spawnCount := st.spawnCount, detectedAt := now, counted := st.counted }
      (if st.counted then [writeCounter (correctedCounter a.implementSpawnCount)] else []) ++
        [appendAbort abort, clearSpawnInFlight]

/-- The writes at the end of a preflight that lets the attempt through. -/
def countWrites (now : DateTime) (retryAttempt : Int) (spawnCount : Int) : List FileWrite :=
  if retryAttempt = 0 then
    [writeCounter (toString (spawnCount + 1)), writeSpawnInFlight now (spawnCount + 1) true]
  else [writeSpawnInFlight now spawnCount false]

/-- **All of them** make up the recovery. -/
theorem absorbWrites_eq (now : DateTime) (a : Artifacts) :
    applyWrites (absorbWrites now a) a = (detectAndAbsorbKilledSpawn now a).1 := by
  unfold absorbWrites detectAndAbsorbKilledSpawn
  cases a.implementSpawnStateJson with
  | absent => rfl
  | corrupt => rfl
  | ok st =>
    dsimp only
    by_cases hstate : st.state = IN_FLIGHT
    · rw [if_neg (not_not_intro hstate), if_neg (not_not_intro hstate)]
      -- the counter is only written when the attempt had taken a slot
      cases st.counted <;> rfl
    · rw [if_pos hstate, if_pos hstate]
      rfl

theorem countWrites_eq (s : Settings) (now : DateTime) (t : Ticket) (l : Locals)
    (hcounts : s.implementMaxSpawnsPerTicket ≠ 0) :
    applyWrites (countWrites now t.retryAttempt l.spawnCount) l.artifacts = countSpawn s now t l := by
  unfold countWrites countSpawn
  rw [if_neg hcounts]
  split <;> rfl

/-! ## Dispatches -/

/-- Settings under which spawns are counted. -/
structure SpawnSettings where
  settings : Settings
  counted : settings.implementMaxSpawnsPerTicket ≠ 0

/-- How far a dispatch gets. -/
inductive Fate
  /-- A guard before the recovery reports, or the process dies before it. -/
  | blockedEarly
  /-- The process dies after some writes of the recovery. -/
  | killedAbsorbing (writes : Nat)
  /-- The limit or a later guard reports. -/
  | blocked
  /-- The process dies after some writes of the count. -/
  | killedCounting (writes : Nat)
  /-- The process dies before the run removes the marker. -/
  | killedRunning
  /-- The run reaches an outcome, or raises. -/
  | ended
deriving DecidableEq, Repr

/-- A dispatch of the stage. -/
structure SpawnDispatch where
  now : DateTime
  retryAttempt : Int
  fate : Fate

/-- The files, and the attempts since the reset that were no retry and ended. -/
structure SpawnLedger where
  artifacts : Artifacts
  ended : Nat

/-- The counter was just reset; a marker may be left over. -/
def SpawnLedger.reset (a : Artifacts) : SpawnLedger := ⟨{ a with implementSpawnCount := none }, 0⟩

/-- The files once a leftover marker is absorbed. -/
def recovered (now : DateTime) (a : Artifacts) : Artifacts := (detectAndAbsorbKilledSpawn now a).1

/-- The writes of a preflight that lets the attempt through, after its recovery. -/
def spawned (d : SpawnDispatch) (a : Artifacts) : List FileWrite :=
  countWrites d.now d.retryAttempt (readCounter (recovered d.now a).implementSpawnCount)

/-- The dispatch gets past the limit. -/
def Fate.passes : Fate → Bool
  | .killedCounting _ | .killedRunning | .ended => true
  | .blockedEarly | .killedAbsorbing _ | .blocked => false

/-- How far the dispatch gets on these files: at the limit, no further than to the block. -/
def SpawnDispatch.reaches (s : SpawnSettings) (d : SpawnDispatch) (a : Artifacts) : Fate :=
  if readCounter (recovered d.now a).implementSpawnCount < s.settings.implementMaxSpawnsPerTicket then d.fate
  else if d.fate.passes then .blocked
  else d.fate

/-- What a dispatch that gets this far makes of the counter, the marker and the abort log. -/
def SpawnDispatch.files (d : SpawnDispatch) (a : Artifacts) : Fate → Artifacts
  | .blockedEarly => a
  | .killedAbsorbing writes => applyWrites ((absorbWrites d.now a).take writes) a
  | .blocked => recovered d.now a
  | .killedCounting writes => applyWrites ((spawned d a).take writes) (recovered d.now a)
  | .killedRunning => applyWrites (spawned d a) (recovered d.now a)
  | .ended => clearSpawnInFlight (applyWrites (spawned d a) (recovered d.now a))

def spawnStep (s : SpawnSettings) (σ : SpawnLedger) (d : SpawnDispatch) : SpawnLedger :=
  { artifacts := d.files σ.artifacts (d.reaches s σ.artifacts)
    ended := σ.ended + if d.reaches s σ.artifacts = .ended ∧ d.retryAttempt = 0 then 1 else 0 }

/-! ## The counter -/

/-- A leftover marker that holds a slot. -/
def holdsSlot (a : Artifacts) : Bool :=
  match a.implementSpawnStateJson with
  | .ok st => decide (st.state = IN_FLIGHT) && st.counted
  | .absent | .corrupt => false

/-- The counter once the next preflight has absorbed a leftover marker. -/
def settledCount (a : Artifacts) : Int :=
  if holdsSlot a then max (readCounter a.implementSpawnCount - 1) 0 else readCounter a.implementSpawnCount

/-- The next preflight finds the attempts that ended, whenever it comes. -/
def Balanced (σ : SpawnLedger) : Prop :=
  ∀ now, readCounter (recovered now σ.artifacts).implementSpawnCount = σ.ended

theorem holdsSlot_of_absent {a : Artifacts} (h : a.implementSpawnStateJson = .absent) : holdsSlot a = false := by
  rw [holdsSlot, h]

theorem holdsSlot_of_ok {a : Artifacts} {st : SpawnState} (h : a.implementSpawnStateJson = .ok st) :
    holdsSlot a = (decide (st.state = IN_FLIGHT) && st.counted) := by
  rw [holdsSlot, h]

theorem settledCount_of_free {a : Artifacts} (h : holdsSlot a = false) :
    settledCount a = readCounter a.implementSpawnCount := by
  rw [settledCount, if_neg (by rw [h]; exact Bool.false_ne_true)]

theorem settledCount_of_held {a : Artifacts} (h : holdsSlot a = true) :
    settledCount a = max (readCounter a.implementSpawnCount - 1) 0 := by
  rw [settledCount, if_pos h]

theorem holdsSlot_congr {a b : Artifacts} (h : a.implementSpawnStateJson = b.implementSpawnStateJson) :
    holdsSlot a = holdsSlot b := by
  rw [holdsSlot, holdsSlot, h]

theorem settledCount_of_absent {a : Artifacts} (h : a.implementSpawnStateJson = .absent) :
    settledCount a = readCounter a.implementSpawnCount :=
  settledCount_of_free (holdsSlot_of_absent h)

/-- The recovery settles the count. -/
theorem readCounter_recovered (now : DateTime) (a : Artifacts) :
    readCounter (recovered now a).implementSpawnCount = settledCount a := by
  unfold recovered detectAndAbsorbKilledSpawn
  cases hmarker : a.implementSpawnStateJson with
  | absent => exact (settledCount_of_absent hmarker).symm
  | corrupt => exact (settledCount_of_free (by rw [holdsSlot, hmarker])).symm
  | ok st =>
    have hslot := holdsSlot_of_ok hmarker
    dsimp only
    by_cases hstate : st.state = IN_FLIGHT
    · rw [if_neg (not_not.2 hstate)]
      rw [decide_eq_true hstate, Bool.true_and] at hslot
      cases hcounted : st.counted with
      | true => exact (readCounter_corrected _).trans (settledCount_of_held (hslot.trans hcounted)).symm
      | false => exact (settledCount_of_free (hslot.trans hcounted)).symm
    · rw [if_pos hstate]
      rw [decide_eq_false hstate, Bool.false_and] at hslot
      exact (settledCount_of_free hslot).symm

theorem balanced_iff {σ : SpawnLedger} : Balanced σ ↔ settledCount σ.artifacts = σ.ended := by
  unfold Balanced
  simp only [readCounter_recovered]
  exact ⟨fun h => h 0, fun h _ => h⟩

/-- Nothing is left over behind the recovery. -/
theorem recovered_marker (now : DateTime) (a : Artifacts) : (recovered now a).implementSpawnStateJson = .absent := by
  obtain ⟨counter, aborts, heq, -⟩ := detectAndAbsorbKilledSpawn_spec now a
  rw [recovered, heq]

theorem settledCount_recovered (now : DateTime) (a : Artifacts) : settledCount (recovered now a) = settledCount a := by
  rw [settledCount_of_absent (recovered_marker now a), readCounter_recovered]

/-! ### A recovery that dies -/

theorem absorbWrites_held {a : Artifacts} (now : DateTime) (h : holdsSlot a = true) :
    ∃ abort, absorbWrites now a =
      [writeCounter (correctedCounter a.implementSpawnCount), appendAbort abort, clearSpawnInFlight] := by
  unfold absorbWrites
  cases hmarker : a.implementSpawnStateJson with
  | absent => rw [holdsSlot, hmarker] at h; cases h
  | corrupt => rw [holdsSlot, hmarker] at h; cases h
  | ok st =>
    rw [holdsSlot_of_ok hmarker, Bool.and_eq_true, decide_eq_true_iff] at h
    dsimp only
    rw [if_neg (not_not.2 h.1), if_pos h.2]
    exact ⟨_, rfl⟩

/-- Without a slot to give back, the recovery writes no counter. -/
theorem absorbWrites_free {a : Artifacts} (now : DateTime) (h : holdsSlot a = false) :
    ∀ write ∈ absorbWrites now a, ∀ b : Artifacts, (write b).implementSpawnCount = b.implementSpawnCount ∧
      (holdsSlot b = false → holdsSlot (write b) = false) := by
  have hclear : ∀ b : Artifacts, (clearSpawnInFlight b).implementSpawnCount = b.implementSpawnCount ∧
      (holdsSlot b = false → holdsSlot (clearSpawnInFlight b) = false) :=
    fun _ => ⟨rfl, fun _ => holdsSlot_of_absent rfl⟩
  intro write hmem
  unfold absorbWrites at hmem
  cases hmarker : a.implementSpawnStateJson with
  | absent =>
    rw [hmarker] at hmem
    exact absurd hmem List.not_mem_nil
  | corrupt =>
    rw [hmarker] at hmem
    rw [List.mem_singleton.1 hmem]
    exact hclear
  | ok st =>
    rw [holdsSlot_of_ok hmarker] at h
    rw [hmarker] at hmem
    dsimp only at hmem
    by_cases hstate : st.state = IN_FLIGHT
    · rw [decide_eq_true hstate, Bool.true_and] at h
      rw [if_neg (not_not.2 hstate), if_neg (by rw [h]; exact Bool.false_ne_true), List.nil_append] at hmem
      rcases List.mem_pair.1 hmem with rfl | rfl
      · exact fun _ => ⟨rfl, fun hb => (holdsSlot_congr rfl).trans hb⟩
      · exact hclear
    · rw [if_pos hstate] at hmem
      rw [List.mem_singleton.1 hmem]
      exact hclear

/-- A recovery that dies without a slot to give back. -/
theorem settledCount_dies_free {a : Artifacts} (now : DateTime) (h : holdsSlot a = false) (writes : Nat) :
    settledCount (applyWrites ((absorbWrites now a).take writes) a) = settledCount a := by
  have hkeeps : ∀ (l : List FileWrite) (b : Artifacts), (∀ write ∈ l, write ∈ absorbWrites now a) →
      holdsSlot b = false → settledCount (applyWrites l b) = settledCount b := by
    intro l
    induction l with
    | nil => exact fun _ _ _ => rfl
    | cons write l ih =>
      intro b hl hb
      obtain ⟨hcounter, hslot⟩ := absorbWrites_free now h write (hl write List.mem_cons_self) b
      have hrest := ih (write b) (fun w hw => hl w (List.mem_cons_of_mem _ hw)) (hslot hb)
      rw [settledCount_of_free hb, ← hcounter, ← settledCount_of_free (hslot hb)]
      exact hrest
  exact hkeeps _ a (fun _ => List.mem_of_mem_take) h

/-- One that dies with a slot to give back gives it back twice, when it dies before the marker is gone. -/
theorem settledCount_dies_held {a : Artifacts} (now : DateTime) (h : holdsSlot a = true) (writes : Nat) :
    settledCount (applyWrites ((absorbWrites now a).take writes) a) =
      if writes = 1 ∨ writes = 2 then max (settledCount a - 1) 0 else settledCount a := by
  obtain ⟨abort, hwrites⟩ := absorbWrites_held now h
  have hgiven := settledCount_of_held h
  have htwice {b : Artifacts} (hcounter : b.implementSpawnCount = some (correctedCounter a.implementSpawnCount))
      (hsame : b.implementSpawnStateJson = a.implementSpawnStateJson) :
      settledCount b = max (settledCount a - 1) 0 := by
    rw [settledCount_of_held ((holdsSlot_congr hsame).trans h), hcounter, readCounter_corrected, hgiven]
  rw [hwrites]
  match writes with
  | 0 => rw [if_neg (by omega)]; rfl
  | 1 => rw [if_pos (.inl rfl)]; exact htwice rfl rfl
  | 2 => rw [if_pos (.inr rfl)]; exact htwice rfl rfl
  | n + 3 =>
    rw [if_neg (by omega), List.take_of_length_le (by exact Nat.le_add_left 3 n)]
    exact (settledCount_of_absent rfl).trans ((readCounter_corrected _).trans hgiven.symm)

/-! ### A dispatch that is counted -/

/-- A dispatch that is let through and then dies gives its slot back. -/
theorem settledCount_spawned (d : SpawnDispatch) {a : Artifacts} (h : 0 ≤ settledCount a) :
    settledCount (applyWrites (spawned d a) (recovered d.now a)) = settledCount a := by
  have hcount := readCounter_recovered d.now a
  unfold spawned countWrites
  split
  · have hheld : ∀ b, holdsSlot (writeSpawnInFlight d.now (settledCount a + 1) true b) = true := fun _ => rfl
    rw [hcount]
    refine (settledCount_of_held (hheld _)).trans ?_
    show max (readCounter (some (toString (settledCount a + 1))) - 1) 0 = _
    rw [readCounter_toString]
    omega
  · have hfree : ∀ n b, holdsSlot (writeSpawnInFlight d.now n false b) = false := fun _ _ => rfl
    exact (settledCount_of_free (hfree _ _)).trans hcount

/-- One that ends keeps it, unless it is a retry. -/
theorem settledCount_ended (d : SpawnDispatch) (a : Artifacts) :
    settledCount (clearSpawnInFlight (applyWrites (spawned d a) (recovered d.now a))) =
      settledCount a + if d.retryAttempt = 0 then 1 else 0 := by
  have hcount := readCounter_recovered d.now a
  rw [settledCount_of_absent rfl]
  unfold spawned countWrites
  split
  · show readCounter (some (toString (_ + 1))) = _
    rw [readCounter_toString, hcount]
  · exact hcount.trans (Int.add_zero _).symm

/-- One that dies behind the counter and before the marker keeps it too. -/
theorem settledCount_dies_counting (d : SpawnDispatch) {a : Artifacts} (h : 0 ≤ settledCount a) (writes : Nat) :
    settledCount (applyWrites ((spawned d a).take writes) (recovered d.now a)) =
      settledCount a + if writes = 1 ∧ d.retryAttempt = 0 then 1 else 0 := by
  have hcount := readCounter_recovered d.now a
  by_cases hnone : writes = 0
  · rw [hnone, if_neg (by omega), Int.add_zero]
    exact settledCount_recovered d.now a
  by_cases hcut : writes = 1 ∧ d.retryAttempt = 0
  · obtain ⟨rfl, hretry⟩ := hcut
    rw [if_pos ⟨rfl, hretry⟩, spawned, countWrites, if_pos hretry]
    have hunmarked : ∀ text, settledCount (writeCounter text (recovered d.now a)) = readCounter (some text) :=
      fun _ => settledCount_of_absent (recovered_marker d.now a)
    refine (hunmarked _).trans ?_
    rw [readCounter_toString, hcount]
  · have hall : (spawned d a).length ≤ writes := by
      unfold spawned countWrites
      split <;> simp only [List.length_cons, List.length_nil] <;> omega
    rw [if_neg hcut, List.take_of_length_le hall, Int.add_zero]
    exact settledCount_spawned d h

/-! ## The budget -/

/-- The dispatch dies with the counter written and the marker not. -/
def diesBetweenCountAndMark (s : SpawnSettings) (d : SpawnDispatch) (a : Artifacts) : Prop :=
  d.reaches s a = .killedCounting 1 ∧ d.retryAttempt = 0

/-- It dies with a slot given back and the marker that held it still there, and another slot is left to give. -/
def diesBetweenReturnAndUnmark (s : SpawnSettings) (d : SpawnDispatch) (a : Artifacts) : Prop :=
  (d.reaches s a = .killedAbsorbing 1 ∨ d.reaches s a = .killedAbsorbing 2) ∧ holdsSlot a = true ∧
    2 ≤ readCounter a.implementSpawnCount

theorem settledCount_reset (a : Artifacts) : settledCount { a with implementSpawnCount := none } = 0 := by
  unfold settledCount
  split <;> rfl

theorem Balanced.reset (a : Artifacts) : Balanced (.reset a) :=
  balanced_iff.2 (settledCount_reset a)

/-- **What one dispatch does to the balance.** -/
theorem balanced_step {s : SpawnSettings} {σ : SpawnLedger} (hb : Balanced σ) (d : SpawnDispatch) :
    Balanced (spawnStep s σ d) ↔
      ¬ diesBetweenCountAndMark s d σ.artifacts ∧ ¬ diesBetweenReturnAndUnmark s d σ.artifacts := by
  rw [balanced_iff] at hb ⊢
  have hpos : 0 ≤ settledCount σ.artifacts := by omega
  unfold spawnStep diesBetweenCountAndMark diesBetweenReturnAndUnmark
  dsimp only
  generalize d.reaches s σ.artifacts = fate
  cases fate with
  | blockedEarly => simp [SpawnDispatch.files, hb]
  | blocked => simp [SpawnDispatch.files, settledCount_recovered, hb]
  | killedRunning => simp [SpawnDispatch.files, settledCount_spawned d hpos, hb]
  | ended =>
    simp only [SpawnDispatch.files, settledCount_ended, hb]
    by_cases hretry : d.retryAttempt = 0 <;> simp [hretry]
  | killedCounting writes =>
    simp only [SpawnDispatch.files, settledCount_dies_counting d hpos, hb]
    have hcounted : (σ.ended : Int) + 1 ≠ σ.ended := by omega
    by_cases hcut : writes = 1 ∧ d.retryAttempt = 0
    · simp [hcut, hcounted]
    · simp [hcut]
  | killedAbsorbing writes =>
    cases hslot : holdsSlot σ.artifacts with
    | false => simp [SpawnDispatch.files, settledCount_dies_free d.now hslot, hb]
    | true =>
      have hcounter := settledCount_of_held hslot
      simp only [SpawnDispatch.files, settledCount_dies_held d.now hslot]
      have hlast : max (settledCount σ.artifacts - 1) 0 = σ.ended ↔ readCounter σ.artifacts.implementSpawnCount < 2 := by
        omega
      by_cases hcut : writes = 1 ∨ writes = 2
      · simp [hcut, hlast]
      · simp [hcut, hb]

/-- **The spawn budget under crashes.** Once the next preflight has absorbed a leftover marker, the counter is the
    number of attempts that were no retry and ended, exactly as long as no dispatch dies between counter and marker,
    and none between the return of a slot and the removal of its marker while another slot is taken. -/
theorem spawn_budget_iff (s : SpawnSettings) (a : Artifacts) (l : List SpawnDispatch) (σ : SpawnLedger) :
    Run (Guarded (fun σ d => Balanced (spawnStep s σ d)) fun σ d σ' => spawnStep s σ d = σ') (.reset a) l σ ↔
      Run (Guarded (fun σ d => ¬ diesBetweenCountAndMark s d σ.artifacts ∧
          ¬ diesBetweenReturnAndUnmark s d σ.artifacts)
        fun σ d σ' => spawnStep s σ d = σ') (.reset a) l σ := by
  apply Run.guarded_congr (I := Balanced)
  · rintro σ d _ - hright rfl
    exact hright
  · exact fun σ d hb => balanced_step hb d
  · exact Balanced.reset a

/-- The settings as they ship. -/
def SpawnSettings.default : SpawnSettings := ⟨{}, by decide⟩

/-- A process dies behind the counter: nothing has ended, and the next preflight counts one. -/
theorem killed_spawn_counted :
    ¬ ∀ (s : SpawnSettings) (a : Artifacts) (l : List SpawnDispatch) (σ : SpawnLedger),
      Run (fun σ d σ' => spawnStep s σ d = σ') (.reset a) l σ → Balanced σ := by
  intro h
  have hrun := h .default {} [⟨0, 0, .killedCounting 1⟩] _ (Run.single rfl) 1
  exact absurd hrun (by decide +kernel)

/-- Two attempts end in a row of three; the third dies, and so does the recovery from it: one of the two is gone. -/
example :
    let attempts : List SpawnDispatch :=
      [⟨0, 0, .ended⟩, ⟨1, 0, .ended⟩, ⟨2, 0, .killedRunning⟩, ⟨3, 0, .killedAbsorbing 1⟩]
    let σ := attempts.foldl (spawnStep .default) (.reset {})
    settledCount σ.artifacts = 1 ∧ σ.ended = 2 := by
  decide +kernel

end Stages
end RobotsixMill
