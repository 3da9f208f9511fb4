import RobotsixMill.Core.EventHash
import RobotsixMill.Core.Workspace
import RobotsixMill.Core.Settings

/-!
# `Stages.SpawnState` — implement attempts killed before they could report

The in-flight marker `implement_spawn_state.json`: `writeSpawnInFlight` leaves it at the end of a
preflight, `clearSpawnInFlight` removes it when the attempt is over, and a marker still there at the next
preflight belongs to an attempt that died. `detectAndAbsorbKilledSpawn` logs that attempt, and hands back
the slot it had counted.

`readCounter_absorb_le` — absorbing never leaves a counter above what it was, zero aside.
-/

namespace RobotsixMill
namespace Stages
open RobotsixMill.Core Lib

/-- An attempt that has passed its preflight and not ended yet. -/
def IN_FLIGHT : String := "in_flight"

/-- `write_spawn_in_flight`. -/
def writeSpawnInFlight (now : DateTime) (spawnCount : Int) (counted : Bool) (a : Artifacts) :
    Artifacts :=
  let marker : SpawnState :=
    { state := IN_FLIGHT, startedAt := now, spawnCount := spawnCount, counted := counted }
  { a with implementSpawnStateJson := .ok marker }

/-- `clear_spawn_in_flight`. -/
def clearSpawnInFlight (a : Artifacts) : Artifacts := { a with implementSpawnStateJson := .absent }

/-- A counter one lower, and never negative, as it is written back. -/
def correctedCounter (file : Option String) : String :=
  toString (readCounter file - 1).toNat

/-- The line of a block note about a killed attempt. -/
def killNote (st : SpawnState) : String :=
  let startedAt := String.ofList (isoformat st.startedAt)
  if st.counted then
    s!"Previous spawn attempt (started at {startedAt}, spawn #{st.spawnCount}) was killed by " ++
      s!"process shutdown/restart before recording an outcome — {st.spawnCount} was not consumed."
  else
    s!"Previous spawn attempt (started at {startedAt}) was killed by process shutdown/restart " ++
      "before recording an outcome (retry, not counted)."

/-- `detect_and_absorb_killed_spawn`. A marker that is unreadable or of another state is only removed. -/
def detectAndAbsorbKilledSpawn (now : DateTime) (a : Artifacts) : Artifacts × Option String :=
  match a.implementSpawnStateJson with
  | .absent => (a, none)
  | .corrupt => (clearSpawnInFlight a, none)
  | .ok st =>
    if st.state ≠ IN_FLIGHT then (clearSpawnInFlight a, none)
    else
      let counter := if st.counted then some (correctedCounter a.implementSpawnCount)
        else a.implementSpawnCount
      let abort : SpawnAbort :=
        { startedAt := st.startedAt, spawnCount := st.spawnCount, detectedAt := now
          counted := st.counted }
      (clearSpawnInFlight
        { a with
          implementSpawnCount := counter
          implementSpawnAbortsJsonl := a.implementSpawnAbortsJsonl ++ [abort] },
        some (killNote st))

/-- The last `n` elements. -/
def lastN {α : Type} (n : Nat) (l : List α) : List α := l.drop (l.length - n)

/-- `read_spawn_aborts_tail`: the last five kills, the latest first. -/
def readSpawnAbortsTail (a : Artifacts) : Option String :=
  if a.implementSpawnAbortsJsonl = [] then none
  else
    some ("Spawn abort log (most recent first):" ++
      "".intercalate ((lastN 5 a.implementSpawnAbortsJsonl).reverse.map fun e =>
        let started := String.ofList (isoformat e.startedAt)
        let counted := if e.counted then "counted" else "not counted"
        s!"\n- started {started}, spawn #{e.spawnCount}, {counted}"))

/-! ## The counter afterwards -/

theorem readCounter_corrected (file : Option String) :
    readCounter (some (correctedCounter file)) = max (readCounter file - 1) 0 := by
  simp only [correctedCounter]
  rw [readCounter, parseInt_toString, Option.getD_some]
  omega

/-- Absorbing writes the counter, the marker and the abort log, and lowers the counter if it changes it. -/
theorem detectAndAbsorbKilledSpawn_spec (now : DateTime) (a : Artifacts) :
    ∃ counter aborts, (detectAndAbsorbKilledSpawn now a).1 =
        { a with
          implementSpawnCount := counter
          implementSpawnStateJson := .absent
          implementSpawnAbortsJsonl := aborts } ∧
      (counter = a.implementSpawnCount ∨ counter = some (correctedCounter a.implementSpawnCount)) := by
  unfold detectAndAbsorbKilledSpawn
  cases hs : a.implementSpawnStateJson with
  | absent =>
    refine ⟨a.implementSpawnCount, a.implementSpawnAbortsJsonl, ?_, .inl rfl⟩
    show a = _
    rw [← hs]
  | corrupt => exact ⟨a.implementSpawnCount, a.implementSpawnAbortsJsonl, rfl, .inl rfl⟩
  | ok st =>
    by_cases hst : st.state = IN_FLIGHT
    · simp only [hst, ne_eq, not_true, if_false]
      refine ⟨_, _, rfl, ?_⟩
      by_cases hc : st.counted = true
      · exact .inr (if_pos hc)
      · exact .inl (if_neg hc)
    · simp only [ne_eq, hst, not_false_eq_true, if_true]
      exact ⟨a.implementSpawnCount, a.implementSpawnAbortsJsonl, rfl, .inl rfl⟩

/-- **Absorbing a killed attempt raises no counter.** -/
theorem readCounter_absorb_le (now : DateTime) (a : Artifacts) :
    readCounter (detectAndAbsorbKilledSpawn now a).1.implementSpawnCount ≤
      max (readCounter a.implementSpawnCount) 0 := by
  obtain ⟨counter, aborts, heq, rfl | rfl⟩ := detectAndAbsorbKilledSpawn_spec now a
  · rw [heq]
    show readCounter a.implementSpawnCount ≤ _
    omega
  · rw [heq]
    show readCounter (some (correctedCounter a.implementSpawnCount)) ≤ _
    rw [readCounter_corrected]
    omega

end Stages
end RobotsixMill
