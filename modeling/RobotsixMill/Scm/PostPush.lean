import RobotsixMill.Scm.Git
import RobotsixMill.Stages.Rebase

/-!
# `Scm.PostPush` — the check after a push

After the rebase agent or the ci-fix agent has pushed, `post_push_check` fetches the branch and its target
and judges from what is there now: has the push landed, and is every commit of the branch ahead of the
target an automation's? It never learns what the branch carried before the push.

- `postPushCheck` — the check;
- `Judges` — what its verdict is to say: `pass` only if no human commit was lost, `foreignDivergence` never
  for a human commit the workspace started from;
- `readsForeign_iff_of_plain` — where names and addresses have no separators in them, the check sees a human
  commit exactly if there is one ahead of the target;
- `judges_iff` — of which commits it judges right.
-/

namespace RobotsixMill
namespace Scm
open Lib Stages

/-- What one check finds. -/
structure PushCheck where
  /-- Both fetches go through. -/
  fetched : Bool := true
  /-- `head_sha`; `none` is the error. -/
  head : Option Sha
  /-- `origin/<branch>`, after the fetch. -/
  remote : Option Sha
  /-- `origin/<target>`, after the fetch. -/
  target : Sha
  /-- `git log` answers. -/
  logged : Bool := true
deriving DecidableEq, Repr

variable (g : Git)

/-- Some commit ahead of the target does not read as an automation's; a log that fails has none. -/
def PushCheck.readsForeign (ctx : PushCheck) (branch : Sha) : Bool :=
  (if ctx.logged then branchAncestry g branch ctx.target else []).any fun c =>
    !bothAutomation c.authorEmail c.committerEmail

/-- `post_push_check`. -/
def postPushCheck (ctx : PushCheck) : PostPushResult :=
  if ctx.fetched = false then .unavailable
  else match ctx.head with
    | none => .unavailable
    | some localHead =>
      match ctx.remote with
      | none => .notLanded
      | some remote =>
        if localHead ≠ remote then .notLanded
        else if ctx.readsForeign g remote then .foreignDivergence
        else .pass

/-! ## What it is to say -/

/-- The workspace, fast-forwarded onto `workspace`, started from this commit, or from the one it makes again. -/
def StartedFrom (workspace c : Sha) : Prop := ∃ c₀ ∈ g.dag.history workspace, c = c₀ ∨ g.replays c c₀

/-- A human commit ahead of the target that the workspace started from. -/
def Kept (workspace target after c : Sha) : Prop :=
  c ∈ g.dag.range target after ∧ g.isHuman c = true ∧ StartedFrom g workspace c

/-- A human commit ahead of the target that the workspace did not start from. -/
def Intrudes (workspace target after c : Sha) : Prop :=
  c ∈ g.dag.range target after ∧ g.isHuman c = true ∧ ¬ StartedFrom g workspace c

/-- The branch has lost no human commit. -/
def KeepsHuman (before after : Sha) : Prop :=
  ∀ c ∈ g.dag.history before, g.isHuman c = true → g.carries after c

/-- The verdict on a push that turned the branch at `before` into what is there now. -/
structure Judges (ctx : PushCheck) (before workspace : Sha) : Prop where
  pass : postPushCheck g ctx = .pass → ∀ after, ctx.remote = some after → KeepsHuman g before after
  /-- It is not for a kept commit that a push is called foreign. -/
  foreign : postPushCheck g ctx = .foreignDivergence → ∀ after, ctx.remote = some after →
    (∃ c, Kept g workspace ctx.target after c) → ∃ c, Intrudes g workspace ctx.target after c

/-- The push has landed, and both fetches went through. -/
structure Landed (ctx : PushCheck) (after : Sha) : Prop where
  fetched : ctx.fetched = true
  head : ctx.head = some after
  remote : ctx.remote = some after

variable {g} {ctx : PushCheck}

/-- On a push that has landed the verdict is what the log reads as. -/
theorem postPushCheck_of_landed {after : Sha} (h : Landed ctx after) :
    postPushCheck g ctx = if ctx.readsForeign g after then .foreignDivergence else .pass := by
  unfold postPushCheck
  rw [if_neg (by simp [h.fetched]), h.head, h.remote]
  simp

/-- Otherwise there is no verdict on the commits. -/
theorem postPushCheck_of_not_landed (h : ¬ ∃ after, Landed ctx after) :
    postPushCheck g ctx = .unavailable ∨ postPushCheck g ctx = .notLanded := by
  unfold postPushCheck
  cases hfetched : ctx.fetched with
  | false => exact .inl rfl
  | true =>
      rw [if_neg (by decide)]
      cases hhead : ctx.head with
      | none => exact .inl rfl
      | some localHead =>
          cases hremote : ctx.remote with
          | none => exact .inr rfl
          | some remote =>
              dsimp only
              by_cases heq : localHead = remote
              · rw [heq] at hhead
                exact absurd ⟨remote, hfetched, hhead, hremote⟩ h
              · rw [if_pos heq]
                exact .inr rfl

/-! ## When it judges right -/

/-- Where names and addresses have no separators in them, the log reads foreign exactly if a person had a hand in a
    commit ahead of the target. -/
theorem readsForeign_iff_of_plain {after : Sha} (hlogged : ctx.logged = true)
    (hplain : ∀ c ∈ g.dag.range ctx.target after, g.Plain c) :
    ctx.readsForeign g after = true ↔ ∃ c ∈ g.dag.range ctx.target after, g.isHuman c = true := by
  have hemails : ∀ l : List LoggedCommit, (l.any fun c => !bothAutomation c.authorEmail c.committerEmail) =
      (l.map LoggedCommit.emails).any fun e => !bothAutomation e.1 e.2 := fun l => by
    rw [List.any_map]
    rfl
  rw [PushCheck.readsForeign, if_pos hlogged, hemails, emails_branchAncestry hplain, List.any_map, List.any_eq_true]
  rfl

/-- What the commits have to be like: where all of them ahead of the target are an automation's, the branch has lost no
    human commit; where some are a person's, the workspace did not start from all of these. -/
structure Fair (g : Git) (target before workspace after : Sha) : Prop where
  silent : (∀ c ∈ g.dag.range target after, g.isHuman c = false) → KeepsHuman g before after
  loud : (∃ c ∈ g.dag.range target after, g.isHuman c = true) → ∃ c, Intrudes g workspace target after c

/-- A human commit ahead of the target is kept, or it intrudes. -/
theorem kept_or_intrudes {target after workspace c : Sha} (hrange : c ∈ g.dag.range target after)
    (hhuman : g.isHuman c = true) : Kept g workspace target after c ∨ Intrudes g workspace target after c := by
  by_cases hstarted : StartedFrom g workspace c
  · exact .inl ⟨hrange, hhuman, hstarted⟩
  · exact .inr ⟨hrange, hhuman, hstarted⟩

/-- On a push that has landed, the verdict is right exactly if the commits are so. -/
theorem judges_iff_of_landed {before workspace after : Sha} (hlanded : Landed ctx after) (hlogged : ctx.logged = true)
    (hplain : ∀ c ∈ g.dag.range ctx.target after, g.Plain c) :
    Judges g ctx before workspace ↔ Fair g ctx.target before workspace after := by
  have hcheck := postPushCheck_of_landed (g := g) hlanded
  have hreads := readsForeign_iff_of_plain hlogged hplain
  have hremote : ∀ {after'}, ctx.remote = some after' → after' = after := fun h =>
    Option.some.inj (h.symm.trans hlanded.remote)
  by_cases hforeign : ctx.readsForeign g after = true
  · rw [if_pos hforeign] at hcheck
    obtain ⟨c, hrange, hhuman⟩ := hreads.1 hforeign
    constructor
    · intro h
      refine ⟨fun hnone => ?_, fun _ => ?_⟩
      · rw [hnone c hrange] at hhuman
        cases hhuman
      · have hcase : Kept g workspace ctx.target after c ∨ Intrudes g workspace ctx.target after c :=
          kept_or_intrudes hrange hhuman
        rcases hcase with hkept | hintrudes
        · exact h.foreign hcheck after hlanded.remote ⟨c, hkept⟩
        · exact ⟨c, hintrudes⟩
    · intro h
      refine ⟨fun hpass => ?_, fun _ after' hafter _ => ?_⟩
      · rw [hcheck] at hpass
        cases hpass
      · rw [hremote hafter]
        exact h.loud ⟨c, hrange, hhuman⟩
  · rw [if_neg hforeign] at hcheck
    have hnone : ∀ c ∈ g.dag.range ctx.target after, g.isHuman c = false := fun c hrange =>
      Bool.eq_false_iff.2 fun hhuman => hforeign (hreads.2 ⟨c, hrange, hhuman⟩)
    constructor
    · intro h
      refine ⟨fun _ => h.pass hcheck after hlanded.remote, fun hsome => ?_⟩
      exact absurd (hreads.2 hsome) hforeign
    · intro h
      refine ⟨fun _ after' hafter => ?_, fun heq => ?_⟩
      · rw [hremote hafter]
        exact h.silent hnone
      · rw [hcheck] at heq
        cases heq

/-- **The check judges right** exactly if the commits are fair, on a push that has landed; it is asked that the log
    answers, and that names and addresses have no separators in them. -/
theorem judges_iff (g : Git) (ctx : PushCheck) (before workspace : Sha) (hlogged : ctx.logged = true)
    (hplain : ∀ after, Landed ctx after → ∀ c ∈ g.dag.range ctx.target after, g.Plain c) :
    Judges g ctx before workspace ↔ ∀ after, Landed ctx after → Fair g ctx.target before workspace after := by
  by_cases hlanded : ∃ after, Landed ctx after
  · obtain ⟨after, hlanded⟩ := hlanded
    rw [judges_iff_of_landed hlanded hlogged (hplain after hlanded)]
    refine ⟨fun h after' hlanded' => ?_, fun h => h after hlanded⟩
    rwa [Option.some.inj (hlanded'.remote.symm.trans hlanded.remote)]
  · refine iff_of_true ?_ fun after h => absurd ⟨after, h⟩ hlanded
    rcases postPushCheck_of_not_landed (g := g) hlanded with hcheck | hcheck <;>
      exact ⟨fun heq => (by rw [hcheck] at heq; cases heq), fun heq => (by rw [hcheck] at heq; cases heq)⟩

theorem forked_plain : ∀ c ∈ ["t", "h", "m", "k"], forked.Plain c := by
  have hsha : ∀ c ∈ ["t", "h", "m", "k"],
      (c.toList.all fun ch => decide (isPySpace ch = false ∧ ch ≠ '|')) = true := by decide +kernel
  intro c hc
  have hplain : ∀ ch ∈ c.toList, isPySpace ch = false ∧ ch ≠ '|' := fun ch hch =>
    of_decide_eq_true (List.all_eq_true.1 (hsha c hc) ch hch)
  simp only [List.mem_cons, List.not_mem_nil, or_false] at hc
  rcases hc with rfl | rfl | rfl | rfl <;>
    exact ⟨by decide, hplain, by decide +kernel, by decide +kernel, by decide +kernel, by decide +kernel,
      by decide +kernel⟩

/-- A push onto a person's commit that the workspace, at `m`, knew nothing of is rightly reported. -/
theorem judges_iff_foreign :
    postPushCheck forked { head := some "k", remote := some "k", target := "t" } = .foreignDivergence ∧
      Judges forked { head := some "k", remote := some "k", target := "t" } "h" "m" := by
  have hrange : forked.dag.range "t" "k" = ["k", "h"] := by decide +kernel
  have hknown : ∀ after, Landed { head := some "k", remote := some "k", target := "t" } after → after = "k" :=
    fun after h => (Option.some.inj h.remote).symm
  refine ⟨by decide +kernel, (judges_iff forked _ "h" "m" rfl ?_).2 fun after hlanded => ?_⟩
  · intro after hlanded c hc
    obtain rfl := hknown after hlanded
    rw [hrange] at hc
    exact forked_plain c (by rcases List.mem_pair.1 hc with rfl | rfl <;> decide)
  · obtain rfl := hknown after hlanded
    refine ⟨fun hnone => ?_, fun _ => ⟨"h", ?_, by decide +kernel, ?_⟩⟩
    · have hh := hnone "h" (by rw [hrange]; decide)
      exact absurd hh (by decide +kernel)
    · rw [hrange]
      decide
    · -- the workspace has `m` and `t`, and neither makes the change of `h`
      rintro ⟨c, hc, hfrom⟩
      rw [forked_history.2.1] at hc
      rcases List.mem_pair.1 hc with rfl | rfl <;> rcases hfrom with heq | hreplays
      · exact absurd heq (by decide)
      · exact absurd hreplays.1 (by decide +kernel)
      · exact absurd heq (by decide)
      · exact absurd hreplays.1 (by decide +kernel)

/-! ## Two pushes -/

/-- A push of `m` over `h` loses a human commit and passes; a push of `k`, onto `h`, keeps it and is reported
    as foreign. -/
theorem post_push_misjudges :
    (postPushCheck forked { head := some "m", remote := some "m", target := "t" } = .pass ∧
      ¬ Judges forked { head := some "m", remote := some "m", target := "t" } "h" "h") ∧
    (postPushCheck forked { head := some "k", remote := some "k", target := "t" } = .foreignDivergence ∧
      ¬ Judges forked { head := some "k", remote := some "k", target := "t" } "h" "h") := by
  obtain ⟨hh, hm, hk⟩ := forked_history
  have hpass : postPushCheck forked { head := some "m", remote := some "m", target := "t" } = .pass := by
    decide +kernel
  have hforeign : postPushCheck forked { head := some "k", remote := some "k", target := "t" } =
      .foreignDivergence := by
    decide +kernel
  refine ⟨⟨hpass, fun hjudges => ?_⟩, hforeign, fun hjudges => ?_⟩
  · -- `m` and `t` are the mill's, and neither makes the change of `h`
    have hcarries := hjudges.pass hpass "m" rfl "h" (by simp [hh]) (by decide +kernel)
    rcases hcarries with hmem | ⟨c, hc, hreplays⟩
    · simp [hm] at hmem
    · rw [hm] at hc
      have hpatch := hreplays.1
      rcases List.mem_pair.1 hc with rfl | rfl <;> simp [forked] at hpatch
  · -- the only human commit ahead of `t` is `h`, which the workspace started from
    have hkept : Kept forked "h" "t" "k" "h" :=
      ⟨CommitDag.mem_range.2 ⟨by simp [hk], by decide +kernel⟩, by decide +kernel, "h",
        CommitDag.self_mem_history "h", .inl rfl⟩
    obtain ⟨c, hrange, hhuman, hnew⟩ := hjudges.foreign hforeign "k" rfl ⟨"h", hkept⟩
    have hc := (CommitDag.mem_range.1 hrange).1
    rw [hk] at hc
    simp only [List.mem_cons, List.not_mem_nil, or_false] at hc
    rcases hc with rfl | rfl | rfl
    · exact absurd hhuman (by decide +kernel)
    · exact hnew ⟨"h", CommitDag.self_mem_history "h", .inl rfl⟩
    · exact absurd hhuman (by decide +kernel)

end Scm
end RobotsixMill
