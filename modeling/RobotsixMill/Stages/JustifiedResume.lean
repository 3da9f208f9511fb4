import RobotsixMill.Stages.Preflight
import RobotsixMill.Service.Runs

/-!
# `Stages.JustifiedResume` — an operator's note gets a ticket past the implement guards

Five guards of the preflight remember earlier attempts: the spawn limit, the cycle limit, the stale-spec
guard, the stall guard and the zero-diff guard. Their memory is spread over the artifacts and the row.
`resume_blocked` with a note forgets as much of it as the next preflight would trip over.

- `GuardsClear`: the artifacts in which none of the four file-based guards reports;
- `resumeArtifacts_guardsClear`: a resume with a note leaves them so;
- `keeps_guardsClear`: the guards of the chain keep them so while they pass;
- `justified_resume_passes_guards`: the next preflight ends in none of the five guards.
-/

namespace RobotsixMill
namespace Stages
open RobotsixMill.Core Lib Service

/-- The guards that remember earlier attempts. -/
def ATTEMPT_GUARDS : List PreflightGuard := [.spawnLimit, .cycleLimit, .staleSpec, .stall, .zeroDiff]

/-- **Nothing for the file-based guards to find.** -/
structure GuardsClear (s : Settings) (a : Artifacts) : Prop where
  spawns : s.implementMaxSpawnsPerTicket ≠ 0 →
    readCounter a.implementSpawnCount < s.implementMaxSpawnsPerTicket
  implementMd : a.implementMd = none
  stall : ∀ st, a.implementStallStateJson = .ok st → st.stallCount = 0
  zeroDiff : s.implementZeroDiffAbortThreshold ≠ 0 →
    readCounter a.implementZeroDiffCount < s.implementZeroDiffAbortThreshold

/-! ## What the resume leaves behind -/

section Resume

variable {s : Settings} {fp note : String} {a : Artifacts}

theorem not_atCeiling {file : Option String} {ceiling : Nat} (h : atCeiling file ceiling = false)
    (hc : ceiling ≠ 0) : readCounter file < ceiling := by
  simp only [atCeiling, Bool.and_eq_false_iff, decide_eq_false_iff_not] at h
  omega

/-- With a note there is no recurring-exhaustion hold. -/
theorem resumePlan_spawnReset (hnote : isBlank note = false) :
    (resumePlan s fp .ready note a).spawnReset =
      atCeiling a.implementSpawnCount s.implementMaxSpawnsPerTicket := by
  unfold resumePlan
  cases readSpawnExhaustionMarker a with
  | none => simp
  | some marker => simp [hnote]

theorem resumeArtifacts_implementSpawnCount (plan : ResumePlan) :
    (resumeArtifacts s plan .ready note a).implementSpawnCount =
      if plan.spawnReset then none else a.implementSpawnCount := by
  unfold resumeArtifacts
  cases plan.spawnReset <;> cases plan.zeroDiffReset <;> rfl

theorem resumeArtifacts_implementMd (plan : ResumePlan) :
    (resumeArtifacts s plan .ready note a).implementMd = none := by
  unfold resumeArtifacts
  cases plan.spawnReset <;> cases plan.zeroDiffReset <;> rfl

theorem resumeArtifacts_implementZeroDiffCount (plan : ResumePlan) :
    (resumeArtifacts s plan .ready note a).implementZeroDiffCount =
      if plan.zeroDiffReset then some "0" else a.implementZeroDiffCount := by
  unfold resumeArtifacts
  cases plan.spawnReset <;> cases plan.zeroDiffReset <;> rfl

/-- Without an `implement.md`, extracting the stall state changes nothing. -/
theorem persistStallStateFromImplementMd_of_no_md (h : a.implementMd = none) :
    persistStallStateFromImplementMd a = a := by
  have hfile : persistedStallState a false = a.implementStallStateJson := by
    unfold persistedStallState
    rw [h]
    cases a.implementStallStateJson <;> rfl
  unfold persistStallStateFromImplementMd
  rw [hfile]

/-- The stall file is the one the override left: the second extraction finds no `implement.md`. -/
theorem resumeArtifacts_implementStallStateJson (s : Settings) (plan : ResumePlan) (note : String)
    (a : Artifacts) :
    ∃ a₁, (resumeArtifacts s plan .ready note a).implementStallStateJson =
      persistedStallState a₁ (!isBlank note) := by
  let a₁ : Artifacts := if plan.zeroDiffReset then
      { (resetTrippedCiFixGuards s a).1 with
        implementZeroDiffCount := some "0", implementZeroDiffPaused := false }
    else (resetTrippedCiFixGuards s a).1
  let cleared : Artifacts :=
    { clearStaleImplementGuard a₁ (!isBlank note) with implementConversationState := none }
  have hsecond : persistStallStateFromImplementMd cleared = cleared :=
    persistStallStateFromImplementMd_of_no_md rfl
  refine ⟨a₁, ?_⟩
  unfold resumeArtifacts
  cases plan.spawnReset with
  | true => exact congrArg Artifacts.implementStallStateJson hsecond
  | false => exact congrArg Artifacts.implementStallStateJson hsecond

/-- **A resume with a note leaves the file-based guards nothing to report.** -/
theorem resumeArtifacts_guardsClear (hnote : isBlank note = false) :
    GuardsClear s (resumeArtifacts s (resumePlan s fp .ready note a) .ready note a) where
  spawns hlimit := by
    rw [resumeArtifacts_implementSpawnCount, resumePlan_spawnReset hnote]
    cases htrip : atCeiling a.implementSpawnCount s.implementMaxSpawnsPerTicket with
    | true =>
      show (0 : Int) < s.implementMaxSpawnsPerTicket
      omega
    | false => exact not_atCeiling htrip hlimit
  implementMd := resumeArtifacts_implementMd _
  stall st hst := by
    obtain ⟨a₁, ha₁⟩ :=
      resumeArtifacts_implementStallStateJson s (resumePlan s fp .ready note a) note a
    rw [ha₁, hnote] at hst
    exact persistedStallState_reset a₁ st hst
  zeroDiff hthreshold := by
    rw [resumeArtifacts_implementZeroDiffCount]
    have hreset : (resumePlan s fp .ready note a).zeroDiffReset =
        atCeiling a.implementZeroDiffCount s.implementZeroDiffAbortThreshold := by
      simp [resumePlan]
    rw [hreset]
    cases htrip : atCeiling a.implementZeroDiffCount s.implementZeroDiffAbortThreshold with
    | true =>
      have hzero : readCounter (some "0") = 0 := by decide
      show readCounter (some "0") < _
      rw [hzero]
      omega
    | false => exact not_atCeiling htrip hthreshold

end Resume

/-! ## What the guards do to clear artifacts -/

section Chain

variable {s : Settings} {ctx : PreflightContext} {l : Locals} {a b : Artifacts}

/-- Only four files count. -/
theorem GuardsClear.congr (h : GuardsClear s a)
    (hspawn : b.implementSpawnCount = a.implementSpawnCount) (hmd : b.implementMd = a.implementMd)
    (hstall : b.implementStallStateJson = a.implementStallStateJson)
    (hzero : b.implementZeroDiffCount = a.implementZeroDiffCount) : GuardsClear s b where
  spawns := by
    rw [hspawn]
    exact h.spawns
  implementMd := hmd.trans h.implementMd
  stall := by
    rw [hstall]
    exact h.stall
  zeroDiff := by
    rw [hzero]
    exact h.zeroDiff

theorem consumeInWorkspaceOverride_eq (sha : String → String) (comments : List Comment)
    (a : Artifacts) :
    ∃ note, (consumeInWorkspaceOverride sha comments a).1 =
      { a with externalScopeOverrideConsumed := note } := by
  unfold consumeInWorkspaceOverride
  cases latestOperatorNote comments with
  | none => exact ⟨a.externalScopeOverrideConsumed, rfl⟩
  | some note =>
    dsimp only
    split
    · exact ⟨a.externalScopeOverrideConsumed, rfl⟩
    · split
      · exact ⟨a.externalScopeOverrideConsumed, rfl⟩
      · exact ⟨_, rfl⟩

/-- A pass through the external-scope gate at most uses up an operator note. -/
theorem guardsClear_externalScope {sha : String → String} {spec : String} {comments : List Comment}
    (h : GuardsClear s l.artifacts)
    (hpass : (externalScopeGuard ctx sha spec comments l).2 = none) :
    GuardsClear s (externalScopeGuard ctx sha spec comments l).1.artifacts := by
  unfold externalScopeGuard at hpass ⊢
  cases hrepo : ctx.repoConfig with
  | none => exact h
  | some repo =>
    simp only [hrepo] at hpass ⊢
    split
    · exact h
    · rename_i hgate
      rw [if_neg hgate] at hpass
      obtain ⟨note, hnote⟩ := consumeInWorkspaceOverride_eq sha comments l.artifacts
      cases hconsume : consumeInWorkspaceOverride sha comments l.artifacts with
      | mk a' used =>
        rw [hconsume] at hnote hpass
        cases used with
        | true =>
          show GuardsClear s a'
          rw [show a' = _ from hnote]
          exact h.congr rfl rfl rfl rfl
        | false => cases hpass

/-- Within the budget, absorbing a killed attempt stays within it. -/
theorem readCounter_absorb_lt (now : DateTime) (hlimit : s.implementMaxSpawnsPerTicket ≠ 0)
    (h : GuardsClear s a) :
    readCounter (detectAndAbsorbKilledSpawn now a).1.implementSpawnCount <
      s.implementMaxSpawnsPerTicket := by
  have hle := readCounter_absorb_le now a
  have hlt := h.spawns hlimit
  omega

/-- The spawn limit lets clear artifacts pass, and only absorbs a killed attempt. -/
theorem spawnLimitGuard_of_clear (now : DateTime) (fp : String) (h : GuardsClear s l.artifacts) :
    (spawnLimitGuard s ctx now fp l).2 = none ∧
      GuardsClear s (spawnLimitGuard s ctx now fp l).1.artifacts := by
  unfold spawnLimitGuard
  by_cases hlimit : s.implementMaxSpawnsPerTicket = 0
  · rw [if_pos hlimit]
    exact ⟨rfl, h⟩
  · rw [if_neg hlimit]
    have hlt := readCounter_absorb_lt now hlimit h
    dsimp only
    rw [if_pos hlt]
    refine ⟨rfl, ?_⟩
    obtain ⟨counter, aborts, heq, -⟩ := detectAndAbsorbKilledSpawn_spec now l.artifacts
    refine ⟨fun _ => hlt, ?_, ?_, ?_⟩
    · show (detectAndAbsorbKilledSpawn now l.artifacts).1.implementMd = none
      rw [heq]
      exact h.implementMd
    · show ∀ st, (detectAndAbsorbKilledSpawn now l.artifacts).1.implementStallStateJson = .ok st → _
      rw [heq]
      exact h.stall
    · show _ → readCounter (detectAndAbsorbKilledSpawn now l.artifacts).1.implementZeroDiffCount < _
      rw [heq]
      exact h.zeroDiff

theorem staleSpecGuard_of_clear (fp : String) (h : GuardsClear s l.artifacts) :
    staleSpecGuard fp l = none := by
  unfold staleSpecGuard
  rw [h.implementMd]

theorem stallGuard_of_clear (h : GuardsClear s l.artifacts) : stallGuard s l = none := by
  have hcount : stallCount l.artifacts = 0 := by
    unfold stallCount
    rw [h.implementMd]
    cases hfile : l.artifacts.implementStallStateJson with
    | absent => rfl
    | corrupt => rfl
    | ok st => simpa using h.stall st hfile
  unfold stallGuard
  rw [hcount]
  rfl

theorem zeroDiffGuard_of_clear (h : GuardsClear s l.artifacts) : zeroDiffGuard s l = (l, none) := by
  unfold zeroDiffGuard
  dsimp only
  refine if_pos ?_
  by_cases hthreshold : s.implementZeroDiffAbortThreshold = 0
  · exact .inl hthreshold
  · exact .inr (h.zeroDiff hthreshold)

variable {env : Env} {svc : BoardId} {k : Key} {t : Ticket} {σ : Mill}

/-- **Every guard that passes leaves the artifacts clear.** -/
theorem keeps_guardsClear :
    ∀ g ∈ preflightGuards env svc ctx k t σ,
      Guard.Keeps (fun l => GuardsClear env.settings l.artifacts) g := by
  let Inv : Locals → Prop := fun l => GuardsClear env.settings l.artifacts
  have hread : ∀ (tag : PreflightGuard) (report : Locals → Option Outcome),
      Guard.Keeps Inv (Guard.reading tag report) := fun tag report => Guard.keeps_reading tag report
  simp only [preflightGuards, List.forall_mem_cons]
  refine ⟨hread _ _, hread _ _, hread _ _, ?_, hread _ _, ?_, hread _ _, hread _ _, hread _ _, ?_,
    hread _ _, hread _ _, hread _ _, hread _ _, fun g hg => absurd hg List.not_mem_nil⟩
  · exact fun l hl hpass => guardsClear_externalScope hl hpass
  · exact fun l hl _ => (spawnLimitGuard_of_clear _ _ hl).2
  · intro l hl _
    show GuardsClear env.settings (zeroDiffGuard env.settings l).1.artifacts
    rw [zeroDiffGuard_of_clear hl]
    exact hl

/-- **On clear artifacts, and below the cycle limit, the attempt guards are silent.** -/
theorem silent_of_attemptGuard (hcycles : cycleLimitGuard env.settings t = none) :
    ∀ g ∈ preflightGuards env svc ctx k t σ, g.tag ∈ ATTEMPT_GUARDS →
      Guard.Silent (fun l => GuardsClear env.settings l.artifacts) g := by
  let Inv : Locals → Prop := fun l => GuardsClear env.settings l.artifacts
  have hother : ∀ (tag : PreflightGuard) {check : Locals → Locals × Option Outcome},
      tag ∉ ATTEMPT_GUARDS → tag ∈ ATTEMPT_GUARDS → Guard.Silent Inv ⟨tag, check⟩ :=
    fun _ _ hnot hin => absurd hin hnot
  simp only [preflightGuards, List.forall_mem_cons]
  refine ⟨hother .epic (by decide), hother .deployFreshness (by decide),
    hother .emptySpec (by decide), hother .externalScope (by decide), hother .wrongRepo (by decide),
    fun _ => ?_, fun _ => ?_, fun _ => ?_, fun _ => ?_, fun _ => ?_,
    hother .agentDefinition (by decide), hother .skillFiles (by decide),
    hother .languageInstructions (by decide), hother .workspaceDir (by decide),
    fun g hg => absurd hg List.not_mem_nil⟩
  · exact fun l hl => (spawnLimitGuard_of_clear _ _ hl).1
  · exact fun _ _ => hcycles
  · exact fun l hl => staleSpecGuard_of_clear _ hl
  · exact fun l hl => stallGuard_of_clear hl
  · intro l hl
    show (zeroDiffGuard env.settings l).2 = none
    rw [zeroDiffGuard_of_clear hl]

/-- A preflight's outcome comes from its chain. -/
theorem hit_of_runPreflightChecks {tag : PreflightGuard} {o : Outcome}
    (h : (runPreflightChecks env svc ctx k t σ).2 = .ok (some (tag, o))) :
    (Guard.runGuards (preflightGuards env svc ctx k t σ)
      { artifacts := (σ.workspace k).artifacts }).2 = some (tag, o) := by
  unfold runPreflightChecks at h
  cases hrun : Guard.runGuards (preflightGuards env svc ctx k t σ)
      { artifacts := (σ.workspace k).artifacts } with
  | mk l hit =>
    rw [hrun] at h
    cases hit with
    | none => cases h
    | some found =>
      obtain ⟨tag', outcome⟩ := found
      dsimp only at h ⊢
      by_cases hz : tag' = .zeroDiff
      · rw [if_pos hz] at h
        split at h
        · cases h
        · cases h
          rfl
      · rw [if_neg hz] at h
        cases h
        rfl

end Chain

/-! ## The next preflight -/

/-- The cycle counter a resume to `ready` leaves is below its limit. -/
theorem cycleLimitGuard_of_resume {s : Settings} {t t' : Ticket}
    (h : t'.implementCycles = if cyclesReset s .ready t then 0 else t.implementCycles) :
    cycleLimitGuard s t' = none := by
  unfold cycleLimitGuard
  refine if_neg ?_
  rintro ⟨hpos, hle⟩
  rw [h] at hle
  by_cases hreset : cyclesReset s .ready t = true
  · rw [if_pos hreset] at hle
    omega
  · rw [if_neg hreset] at hle
    exact hreset (by simp [cyclesReset, hpos, hle])

/-- What a resume to `ready` commits. -/
theorem resumeBlocked_ready {env : Env} {svc : BoardId} {tid : TicketId} {note : String} {σ : Mill}
    {k : Key} {r : TicketRecord} (hf : fetch env svc σ tid = .ok (k, r))
    (hfrom : r.ticket.blockedFrom = some .ready)
    (hok : (resumeBlocked env svc tid note σ).2 = .ok ()) :
    (∃ eventNote cid, (resumeBlocked env svc tid note σ).1.records.get k =
      some (resumeRecord env.settings tid (σ.now env) cid note eventNote r)) ∧
    ∃ fp, ((resumeBlocked env svc tid note σ).1.workspace k).artifacts =
      resumeArtifacts env.settings
        (resumePlan env.settings fp .ready (strip note) (σ.workspace k).artifacts) .ready (strip note)
        (σ.workspace k).artifacts := by
  unfold resumeBlocked at hok ⊢
  simp only [hf] at hok ⊢
  cases hr : resumeRefusal tid r.ticket with
  | some e =>
    rw [hr] at hok
    cases hok
  | none =>
    simp only [hfrom, Option.getD_some]
    refine ⟨⟨_, _, Table.get_put_self ..⟩, computeSpecFingerprint env svc σ k r.ticket, ?_⟩
    simp [Mill.workspace, Mill.editArtifacts, Mill.editWorkspace]

/-- **A justified resume is never a silent no-op for implement.** After a ticket blocked from `ready` is
    resumed with a note, the next preflight on the row and the artifacts the resume left ends in none of
    the guards that remember earlier attempts, whatever else has happened on the mill. -/
theorem justified_resume_passes_guards {env : Env} {svc : BoardId} {tid : TicketId} {note : String}
    {σ : Mill} {k : Key} {r : TicketRecord} (hf : fetch env svc σ tid = .ok (k, r))
    (hfrom : r.ticket.blockedFrom = some .ready) (hnote : isBlank note = false)
    (hok : (resumeBlocked env svc tid note σ).2 = .ok ()) {σ' : Mill}
    (hrow : σ'.records.get k = (resumeBlocked env svc tid note σ).1.records.get k)
    (hdir : (σ'.workspace k).artifacts =
      ((resumeBlocked env svc tid note σ).1.workspace k).artifacts)
    (svc' : BoardId) (ctx : PreflightContext) {r' : TicketRecord}
    (hget : σ'.records.get k = some r') :
    ∀ tag ∈ ATTEMPT_GUARDS, ∀ o,
      (runPreflightChecks env svc' ctx k r'.ticket σ').2 ≠ .ok (some (tag, o)) := by
  obtain ⟨⟨eventNote, cid, hrec⟩, fp, hart⟩ := resumeBlocked_ready hf hfrom hok
  have hr' : r' = resumeRecord env.settings tid (σ.now env) cid note eventNote r := by
    rw [hrow, hrec] at hget
    exact (Option.some.inj hget).symm
  have hcycles : cycleLimitGuard env.settings r'.ticket = none := by
    refine cycleLimitGuard_of_resume (t := r.ticket) ?_
    rw [hr']
    simp [resumeRecord, hfrom]
  have hclear : GuardsClear env.settings (σ'.workspace k).artifacts := by
    rw [hdir, hart]
    exact resumeArtifacts_guardsClear (isBlank_strip hnote)
  intro tag htag o hpre
  have hhit := hit_of_runPreflightChecks hpre
  refine Guard.not_hit_of_runGuards keeps_guardsClear hclear ?_ hhit
  intro g hg hgt
  exact silent_of_attemptGuard hcycles g hg (by rw [hgt]; exact htag)

/-- A ticket that has used up its spawns, its stalls and its zero-diff passes. -/
def exhaustedTicket : Mill :=
  (runOps .standalone .empty
    [.create "board" { id := "t-1", title := "ticket", initialState := some .ready },
      .transition "board" "t-1" .blocked (some "implement spawn limit reached") none]).editArtifacts
    ("board", "t-1") fun _ =>
      { implementMd := some "BLOCKED — resumable\nspec-fingerprint: e3b0c44298fc1c14\nstall-count: 2\n"
        implementSpawnCount := some "3"
        implementZeroDiffCount := some "2" }

theorem justified_resume_passes_guards_exhausted :
    ∃ r', (resumeBlocked .standalone "board" "t-1" "key added" exhaustedTicket).1.records.get
        ("board", "t-1") = some r' ∧
      ∀ ctx, ∀ tag ∈ ATTEMPT_GUARDS, ∀ o,
        (runPreflightChecks .standalone "board" ctx ("board", "t-1") r'.ticket
          (resumeBlocked .standalone "board" "t-1" "key added" exhaustedTicket).1).2 ≠
            .ok (some (tag, o)) := by
  obtain ⟨r, hf⟩ : ∃ r, fetch .standalone "board" exhaustedTicket "t-1" =
      .ok (("board", "t-1"), r) := ⟨_, rfl⟩
  obtain ⟨r', hget⟩ : ∃ r', (resumeBlocked .standalone "board" "t-1" "key added"
      exhaustedTicket).1.records.get ("board", "t-1") = some r' := ⟨_, rfl⟩
  refine ⟨r', hget, fun ctx => ?_⟩
  exact justified_resume_passes_guards hf (by cases hf; rfl) (by decide) (by decide +kernel) rfl rfl
    "board" ctx hget

end Stages
end RobotsixMill
