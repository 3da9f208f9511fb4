import RobotsixMill.Stages.NoChange

/-!
# `Stages.EmptyDiffEvidence` — an empty diff closes a ticket on evidence

The guards of the empty diff were added one at a time, each on the path where a ticket had been closed wrongly.
`Evidence` is what they are after together. No path asks for all of it: the declared no-change does not look
for ignored edits, a fresh run looks at neither the review nor the kind of the ticket, a resumed run at neither
of them nor the citations, and the backstop of a review round only at the output of one `git rev-list`.

- `closes_declared`, `closes_fresh`, `closes_resumed`, `closes_backstop` — when a path closes a ticket;
- `empty_diff_closes_on_evidence` — the paths close tickets on evidence exactly if, whenever their own guards
  let a ticket through, the evidence they do not ask for is there.
-/

namespace RobotsixMill
namespace Stages
open RobotsixMill.Core Lib

/-! ## The evidence -/

/-- Git counts the commits beyond `target`, and there are none. -/
def TicketRepo.ReportsNoCommits (r : TicketRepo) (target : String) : Prop :=
  (r.revList target).returncode = 0 ∧ ∃ n : Int, parseInt (strip (r.revList target).stdout) = some n ∧ n ≤ 0

/-- A reviewer's comment stands in an open thread. -/
def OpenDirective (comments : List Comment) : Prop :=
  ∃ c ∈ comments, c.author = "review" ∧
    ∃ top ∈ comments, top.parentId = none ∧ top.closedAt = none ∧ (c = top ∨ c.parentId = some top.id)

namespace Situation

/-- The repositories of the ticket. -/
def repos (s : Situation) : List TicketRepo := s.primary :: s.otherRoots

/-- **Positive evidence** that nothing is to be done. -/
structure Evidence (s : Situation) (run : AgentRun) : Prop where
  clean : ∀ r ∈ s.repos, r.hasChanges = some false
  noCommits : ∀ r ∈ s.repos, r.ReportsNoCommits (effectiveTargetBranch s.forgeTargetBranch r.config)
  edits : run.messages.editCalls = [] ∨ editsFormatterReverted s.clone run.messages = some true
  tracked : NoIgnoredEdits s.clone run.messages
  spec : specDemandsCodeChange s.spec = false
  cited : s.unverifiedShas (run.noChangeRationale ++ "\n" ++ run.summary) = []
  directives : ¬ OpenDirective s.comments
  notCi : isCiFailureTicket s.ticket = false

/-- Where the decision is made: before the agent runs, or on what it left. -/
inductive PassEntry
  | reviewRound
  | afterRun (run : AgentRun)

/-- What the agent has left by then. -/
def PassEntry.run : PassEntry → AgentRun
  | .reviewRound => {}
  | .afterRun run => run

def PassEntry.result (s : Situation) (resuming : Bool) : PassEntry → PassResult
  | .reviewRound => s.reviewRoundBackstop resuming
  | .afterRun run => s.noChangeCheck run resuming

/-- The decision is `done`. -/
def PassResult.Closes (result : PassResult) : Prop :=
  ∃ outcome, result = .returned outcome ∧ outcome.nextState = .done

/-! ## The condition -/

/-- The repositories with a target of their own in another repository have no commits beyond it either. -/
def NoneBeyondCrossTargets (s : Situation) : Prop :=
  ∀ r ∈ s.repos, ∀ base, r.config.bind BranchConfig.crossRepoBase = some base → r.ReportsNoCommits base

/-- The backstop closes only with all of the evidence there is before a run. -/
def BackstopCondition (s : Situation) (resuming : Bool) : Prop :=
  let target := effectiveTargetBranch s.forgeTargetBranch s.primary.config
  resuming = true → 0 < s.ticket.reviewRounds → s.primary.revListTimesOut target = false →
    s.aheadCount target = 0 →
      (∀ r ∈ s.repos, r.hasChanges = some false) ∧
      (∀ r ∈ s.repos, r.ReportsNoCommits (effectiveTargetBranch s.forgeTargetBranch r.config)) ∧
      specDemandsCodeChange s.spec = false ∧ ¬ OpenDirective s.comments ∧ isCiFailureTicket s.ticket = false

/-- A declared no-change that comes through its guards: no ignored edit, and no directive the context of the run
    has lost. -/
def DeclaredCondition (s : Situation) (run : AgentRun) : Prop :=
  s.editClaimContradiction run = false → specDemandsCodeChange s.spec = false →
    s.unverifiedShas (run.noChangeRationale ++ "\n" ++ run.summary) = [] →
    hasOutstandingReviewDirectives run = false → isCiFailureTicket s.ticket = false →
      s.NoneBeyondCrossTargets ∧ NoIgnoredEdits s.clone run.messages ∧ ¬ OpenDirective s.comments

/-- A fresh run that comes through its guards: no ignored edit its detector does not see, no citation beside its
    summary, no directive, no CI failure. -/
def FreshCondition (s : Situation) (run : AgentRun) : Prop :=
  claimedGitignoredEdits s.clone run.messages = [] → s.editClaimContradiction run = false →
    specDemandsCodeChange s.spec = false → s.unverifiedShas (noChangeSummary run) = [] →
      s.NoneBeyondCrossTargets ∧ NoIgnoredEdits s.clone run.messages ∧
        s.unverifiedShas (run.noChangeRationale ++ "\n" ++ run.summary) = [] ∧
        ¬ OpenDirective s.comments ∧ isCiFailureTicket s.ticket = false

/-- A resumed run that comes through its guards: no ignored edit, no citation, no directive, no CI failure. -/
def ResumedCondition (s : Situation) (run : AgentRun) : Prop :=
  s.editClaimContradiction run = false → specDemandsCodeChange s.spec = false →
    s.NoneBeyondCrossTargets ∧ NoIgnoredEdits s.clone run.messages ∧
      s.unverifiedShas (run.noChangeRationale ++ "\n" ++ run.summary) = [] ∧
      ¬ OpenDirective s.comments ∧ isCiFailureTicket s.ticket = false

/-- The condition on a decision, path by path. -/
def EvidenceCondition (s : Situation) (resuming : Bool) : PassEntry → Prop
  | .reviewRound => s.BackstopCondition resuming
  | .afterRun run => s.anyRepoHasChanges = some false →
    if declaresNoChange run = true then s.DeclaredCondition run
    else if resuming = false then s.FreshCondition run
    else s.ResumedCondition run

/-! ## What an empty diff means -/

variable {s : Situation} {run : AgentRun}

theorem changedOrAhead_eq_false {r : TicketRepo} {target : String} (h : r.changedOrAhead target = some false) :
    r.hasChanges = some false ∧ r.ReportsNoCommits target := by
  unfold TicketRepo.changedOrAhead at h
  obtain ⟨changed, hchanged, hrest⟩ := Option.bind_eq_some_iff.1 h
  cases changed with
  | true => cases hrest
  | false =>
    refine ⟨hchanged, ?_⟩
    rw [if_neg Bool.false_ne_true] at hrest
    unfold TicketRepo.branchIsAheadOfMain at hrest
    cases hfetch : r.fetch target with
    | raised =>
      rw [hfetch] at hrest
      cases hrest
    | failed =>
      rw [hfetch] at hrest
      cases hrest
    | ok =>
      rw [hfetch] at hrest
      dsimp only at hrest
      by_cases hrc : (r.revList target).returncode = 0
      · rw [if_neg (not_not.2 hrc)] at hrest
        cases hn : parseInt (strip (r.revList target).stdout) with
        | none =>
          rw [hn] at hrest
          cases hrest
        | some n =>
          rw [hn] at hrest
          refine ⟨hrc, n, hn, ?_⟩
          have hle : decide (0 < n) = false := Option.some.inj hrest
          exact not_lt.1 (of_decide_eq_false hle)
      · rw [if_pos hrc] at hrest
        cases hrest

theorem anyOtherHasChanges_eq_false {l : List TicketRepo} (h : s.anyOtherHasChanges l = some false) :
    ∀ r ∈ l, r.changedOrAhead (targetBranchFor s.forgeTargetBranch r.config) = some false := by
  induction l with
  | nil => exact fun r hr => (by cases hr)
  | cons r l ih =>
    unfold anyOtherHasChanges at h
    obtain ⟨found, hfound, hrest⟩ := Option.bind_eq_some_iff.1 h
    cases found with
    | true => cases hrest
    | false =>
      intro r' hr'
      rcases List.mem_cons.1 hr' with rfl | hr'
      · exact hfound
      · exact ih hrest r' hr'

/-- **Git reported the empty diff**: every tree is clean, and no branch is ahead of the target it was compared
    with. -/
theorem emptyDiff_reported (h : s.anyRepoHasChanges = some false) :
    ∀ r ∈ s.repos, r.hasChanges = some false ∧
      r.ReportsNoCommits (targetBranchFor s.forgeTargetBranch r.config) := by
  unfold anyRepoHasChanges at h
  obtain ⟨found, hfound, hrest⟩ := Option.bind_eq_some_iff.1 h
  cases found with
  | true => cases hrest
  | false =>
    intro r hr
    rcases List.mem_cons.1 hr with rfl | hr
    · exact changedOrAhead_eq_false hfound
    · exact changedOrAhead_eq_false (anyOtherHasChanges_eq_false hrest r hr)

/-- The configured target differs from the compared one only in another repository. -/
theorem noCommits_iff (h : s.anyRepoHasChanges = some false) :
    (∀ r ∈ s.repos, r.ReportsNoCommits (effectiveTargetBranch s.forgeTargetBranch r.config)) ↔
      s.NoneBeyondCrossTargets := by
  constructor
  · intro hall r hr base hbase
    have hnone := hall r hr
    unfold effectiveTargetBranch at hnone
    rw [hbase] at hnone
    exact hnone
  · intro hcross r hr
    unfold effectiveTargetBranch
    cases hbase : r.config.bind BranchConfig.crossRepoBase with
    | some base => exact hcross r hr base hbase
    | none => exact (emptyDiff_reported h r hr).2

/-- The guard of the claimed edits. -/
theorem editClaimContradiction_eq_false :
    s.editClaimContradiction run = false ↔
      run.messages.editCalls = [] ∨ editsFormatterReverted s.clone run.messages = some true := by
  unfold editClaimContradiction
  rw [Bool.and_eq_false_iff, Bool.not_eq_false', List.isEmpty_iff, detectEditClaimContradiction_eq_nil,
    decide_eq_false_iff_not, not_not]

/-! ## When a path closes -/

theorem not_closes_block {note : String} : ¬ (PassResult.returned (.block note)).Closes := by
  rintro ⟨outcome, heq, hdone⟩
  obtain rfl := PassResult.returned.inj heq
  cases hdone

theorem closes_done (note : String) : (PassResult.returned (done note)).Closes := ⟨_, rfl, rfl⟩

theorem closes_declared : (PassResult.returned (s.declaredNoChange run)).Closes ↔
    s.editClaimContradiction run = false ∧ specDemandsCodeChange s.spec = false ∧
      s.unverifiedShas (run.noChangeRationale ++ "\n" ++ run.summary) = [] ∧
      hasOutstandingReviewDirectives run = false ∧ isCiFailureTicket s.ticket = false := by
  unfold declaredNoChange
  cases hedits : s.editClaimContradiction run with
  | true => exact iff_of_false not_closes_block fun h => (by cases h.1)
  | false =>
    cases hspec : specDemandsCodeChange s.spec with
    | true => exact iff_of_false not_closes_block fun h => (by cases h.2.1)
    | false =>
      by_cases hcited : s.unverifiedShas (run.noChangeRationale ++ "\n" ++ run.summary) = []
      · cases hreview : hasOutstandingReviewDirectives run with
        | true =>
          rw [if_neg Bool.false_ne_true, if_neg Bool.false_ne_true, if_neg (not_not.2 hcited)]
          exact iff_of_false not_closes_block fun h => (by cases h.2.2.2.1)
        | false =>
          rw [if_neg Bool.false_ne_true, if_neg Bool.false_ne_true, if_neg (not_not.2 hcited)]
          cases isCiFailureTicket s.ticket with
          | true => exact iff_of_false not_closes_block fun h => (by cases h.2.2.2.2)
          | false => exact iff_of_true (closes_done _) ⟨rfl, rfl, hcited, rfl, rfl⟩
      · rw [if_neg Bool.false_ne_true, if_neg Bool.false_ne_true, if_pos hcited]
        exact iff_of_false not_closes_block fun h => hcited h.2.2.1

theorem closes_fresh : (PassResult.returned (s.freshRun run)).Closes ↔
    claimedGitignoredEdits s.clone run.messages = [] ∧ s.editClaimContradiction run = false ∧
      specDemandsCodeChange s.spec = false ∧ s.unverifiedShas (noChangeSummary run) = [] := by
  unfold freshRun
  dsimp only
  by_cases hignored : claimedGitignoredEdits s.clone run.messages = []
  · rw [if_neg (not_not.2 hignored)]
    cases s.editClaimContradiction run with
    | true => exact iff_of_false not_closes_block fun h => (by cases h.2.1)
    | false =>
      cases specDemandsCodeChange s.spec with
      | true => exact iff_of_false not_closes_block fun h => (by cases h.2.2.1)
      | false =>
        rw [if_neg Bool.false_ne_true, if_neg Bool.false_ne_true]
        by_cases hcited : s.unverifiedShas (noChangeSummary run) = []
        · rw [if_neg (not_not.2 hcited)]
          exact iff_of_true (closes_done _) ⟨hignored, rfl, rfl, hcited⟩
        · rw [if_pos hcited]
          exact iff_of_false not_closes_block fun h => hcited h.2.2.2
  · rw [if_pos hignored]
    exact iff_of_false not_closes_block fun h => hignored h.1

theorem closes_resumed : (PassResult.returned (s.resumedRun run)).Closes ↔
    s.editClaimContradiction run = false ∧ specDemandsCodeChange s.spec = false := by
  unfold resumedRun
  cases s.editClaimContradiction run with
  | true => exact iff_of_false not_closes_block fun h => (by cases h.1)
  | false =>
    cases specDemandsCodeChange s.spec with
    | true => exact iff_of_false not_closes_block fun h => (by cases h.2)
    | false => exact iff_of_true (closes_done _) ⟨rfl, rfl⟩

theorem closes_backstop {resuming : Bool} : (s.reviewRoundBackstop resuming).Closes ↔
    resuming = true ∧ 0 < s.ticket.reviewRounds ∧
      s.primary.revListTimesOut (effectiveTargetBranch s.forgeTargetBranch s.primary.config) = false ∧
      s.aheadCount (effectiveTargetBranch s.forgeTargetBranch s.primary.config) = 0 := by
  unfold reviewRoundBackstop
  dsimp only
  by_cases hround : resuming = true ∧ 0 < s.ticket.reviewRounds
  · obtain ⟨hresuming, hrounds⟩ := hround
    rw [if_neg (by simp [hresuming, hrounds])]
    cases s.primary.revListTimesOut (effectiveTargetBranch s.forgeTargetBranch s.primary.config) with
    | true =>
      refine iff_of_false ?_ fun h => (by cases h.2.2.1)
      rintro ⟨outcome, heq, -⟩
      cases heq
    | false =>
      rw [if_neg Bool.false_ne_true]
      by_cases hahead : s.aheadCount (effectiveTargetBranch s.forgeTargetBranch s.primary.config) = 0
      · rw [if_pos hahead]
        exact iff_of_true (closes_done _) ⟨hresuming, hrounds, rfl, hahead⟩
      · rw [if_neg hahead]
        refine iff_of_false ?_ fun h => hahead h.2.2.2
        rintro ⟨outcome, heq, -⟩
        cases heq
  · have hskip : (!(resuming && decide (0 < s.ticket.reviewRounds))) = true := by
      rw [Bool.not_eq_true', ← Bool.not_eq_true, Bool.and_eq_true, decide_eq_true_iff]
      exact hround
    rw [if_pos hskip]
    refine iff_of_false ?_ fun h => hround ⟨h.1, h.2.1⟩
    rintro ⟨outcome, heq, -⟩
    cases heq

/-- The guard of a branch that is ahead only blocks. -/
theorem aheadOutcome_blocks {resuming : Bool} {outcome : StageOutcome}
    (h : s.aheadOutcome run resuming = some (some outcome)) : outcome.nextState = .blocked := by
  obtain ⟨clean, -, hout⟩ := Option.map_eq_some_iff.1 h
  dsimp only at hout
  split_ifs at hout
  obtain rfl := Option.some.inj hout
  rfl

/-- With changes, or where git raises, nothing is closed. -/
theorem emptyDiff_of_closes {resuming : Bool} (h : (s.noChangeCheck run resuming).Closes) :
    s.anyRepoHasChanges = some false := by
  obtain ⟨outcome, heq, hdone⟩ := h
  unfold noChangeCheck at heq
  cases hany : s.anyRepoHasChanges with
  | none =>
    rw [hany] at heq
    cases heq
  | some found =>
    cases found with
    | false => rfl
    | true =>
      rw [hany] at heq
      dsimp only at heq
      cases hahead : s.aheadOutcome run resuming with
      | none =>
        rw [hahead] at heq
        cases heq
      | some blocked =>
        cases blocked with
        | none =>
          rw [hahead] at heq
          cases heq
        | some blocked =>
          rw [hahead] at heq
          obtain rfl := PassResult.returned.inj heq
          rw [aheadOutcome_blocks hahead] at hdone
          cases hdone

/-- Which path decides an empty diff. -/
theorem noChangeCheck_empty {resuming : Bool} (h : s.anyRepoHasChanges = some false) :
    s.noChangeCheck run resuming =
      if declaresNoChange run = true then .returned (s.declaredNoChange run)
      else if resuming = false then .returned (s.freshRun run)
      else .returned (s.resumedRun run) := by
  unfold noChangeCheck
  rw [h]
  cases resuming <;> rfl

/-! ## The evidence of a path -/

/-- Of an empty diff, this much of the evidence is not yet known. -/
theorem evidence_iff (h : s.anyRepoHasChanges = some false) : s.Evidence run ↔
    s.NoneBeyondCrossTargets ∧ s.editClaimContradiction run = false ∧ NoIgnoredEdits s.clone run.messages ∧
      specDemandsCodeChange s.spec = false ∧
      s.unverifiedShas (run.noChangeRationale ++ "\n" ++ run.summary) = [] ∧
      ¬ OpenDirective s.comments ∧ isCiFailureTicket s.ticket = false := by
  constructor
  · intro ev
    exact ⟨(noCommits_iff h).1 ev.noCommits, editClaimContradiction_eq_false.2 ev.edits, ev.tracked, ev.spec,
      ev.cited, ev.directives, ev.notCi⟩
  · rintro ⟨hcross, hedits, htracked, hspec, hcited, hdirectives, hci⟩
    exact {
      clean := fun r hr => (emptyDiff_reported h r hr).1
      noCommits := (noCommits_iff h).2 hcross
      edits := editClaimContradiction_eq_false.1 hedits
      tracked := htracked
      spec := hspec
      cited := hcited
      directives := hdirectives
      notCi := hci }

/-- A declared no-change lacks what its guards do not ask for. -/
theorem declared_evidence (h : s.anyRepoHasChanges = some false) :
    ((PassResult.returned (s.declaredNoChange run)).Closes → s.Evidence run) ↔ s.DeclaredCondition run := by
  rw [closes_declared, evidence_iff h]
  constructor
  · intro hev hedits hspec hcited hreview hci
    obtain ⟨hcross, -, htracked, -, -, hdirectives, -⟩ := hev ⟨hedits, hspec, hcited, hreview, hci⟩
    exact ⟨hcross, htracked, hdirectives⟩
  · rintro hcond ⟨hedits, hspec, hcited, hreview, hci⟩
    obtain ⟨hcross, htracked, hdirectives⟩ := hcond hedits hspec hcited hreview hci
    exact ⟨hcross, hedits, htracked, hspec, hcited, hdirectives, hci⟩

theorem fresh_evidence (h : s.anyRepoHasChanges = some false) :
    ((PassResult.returned (s.freshRun run)).Closes → s.Evidence run) ↔ s.FreshCondition run := by
  rw [closes_fresh, evidence_iff h]
  constructor
  · intro hev hignored hedits hspec hsummary
    obtain ⟨hcross, -, htracked, -, hcited, hdirectives, hci⟩ := hev ⟨hignored, hedits, hspec, hsummary⟩
    exact ⟨hcross, htracked, hcited, hdirectives, hci⟩
  · rintro hcond ⟨hignored, hedits, hspec, hsummary⟩
    obtain ⟨hcross, htracked, hcited, hdirectives, hci⟩ := hcond hignored hedits hspec hsummary
    exact ⟨hcross, hedits, htracked, hspec, hcited, hdirectives, hci⟩

theorem resumed_evidence (h : s.anyRepoHasChanges = some false) :
    ((PassResult.returned (s.resumedRun run)).Closes → s.Evidence run) ↔ s.ResumedCondition run := by
  rw [closes_resumed, evidence_iff h]
  constructor
  · intro hev hedits hspec
    obtain ⟨hcross, -, htracked, -, hcited, hdirectives, hci⟩ := hev ⟨hedits, hspec⟩
    exact ⟨hcross, htracked, hcited, hdirectives, hci⟩
  · rintro hcond ⟨hedits, hspec⟩
    obtain ⟨hcross, htracked, hcited, hdirectives, hci⟩ := hcond hedits hspec
    exact ⟨hcross, hedits, htracked, hspec, hcited, hdirectives, hci⟩

/-- Before a run there is nothing to say of its edits and texts. -/
theorem evidence_no_run : s.Evidence {} ↔
    (∀ r ∈ s.repos, r.hasChanges = some false) ∧
      (∀ r ∈ s.repos, r.ReportsNoCommits (effectiveTargetBranch s.forgeTargetBranch r.config)) ∧
      specDemandsCodeChange s.spec = false ∧ ¬ OpenDirective s.comments ∧ isCiFailureTicket s.ticket = false := by
  constructor
  · intro ev
    exact ⟨ev.clean, ev.noCommits, ev.spec, ev.directives, ev.notCi⟩
  · rintro ⟨hclean, hcommits, hspec, hdirectives, hci⟩
    exact {
      clean := hclean
      noCommits := hcommits
      edits := .inl rfl
      tracked := fun raw hraw => (by cases hraw)
      spec := hspec
      cited := by
        unfold unverifiedShas
        rw [if_neg]
        exact Bool.false_ne_true
      directives := hdirectives
      notCi := hci }

theorem backstop_evidence {resuming : Bool} :
    ((s.reviewRoundBackstop resuming).Closes → s.Evidence {}) ↔ s.BackstopCondition resuming := by
  rw [closes_backstop, evidence_no_run]
  constructor
  · intro hev hresuming hrounds htimeout hahead
    exact hev ⟨hresuming, hrounds, htimeout, hahead⟩
  · rintro hcond ⟨hresuming, hrounds, htimeout, hahead⟩
    exact hcond hresuming hrounds htimeout hahead

/-- **An empty diff closes a ticket on positive evidence** exactly if the path that decides it has, past its own
    guards, the evidence it does not ask for. -/
theorem empty_diff_closes_on_evidence (s : Situation) (resuming : Bool) (e : PassEntry) :
    ((e.result s resuming).Closes → s.Evidence e.run) ↔ s.EvidenceCondition resuming e := by
  cases e with
  | reviewRound => exact backstop_evidence
  | afterRun run =>
    unfold PassEntry.result PassEntry.run EvidenceCondition
    dsimp only
    constructor
    · intro hev hempty
      rw [noChangeCheck_empty hempty] at hev
      split_ifs at hev ⊢
      · exact (declared_evidence hempty).1 hev
      · exact (fresh_evidence hempty).1 hev
      · exact (resumed_evidence hempty).1 hev
    · intro hcond hcloses
      have hempty := emptyDiff_of_closes hcloses
      have hpath := hcond hempty
      rw [noChangeCheck_empty hempty] at hcloses
      split_ifs at hcloses hpath
      · exact (declared_evidence hempty).2 hpath hcloses
      · exact (fresh_evidence hempty).2 hpath hcloses
      · exact (resumed_evidence hempty).2 hpath hcloses

/-! ### Two ways past the guards -/

/-- Back from one review, in a clone where `git rev-list` fails. -/
def lostTarget : Situation where
  ticket := { title := "Log the build", state := .ready, reviewRounds := 1, createdAt := 0, updatedAt := 0 }
  spec := ""
  comments := []
  primary := {
    path := "repo"
    status := some ""
    fetch := fun _ => .ok
    revList := fun _ => { returncode := 128, stdout := "" } }
  clone := {
    files := fun _ => none
    resolve := some
    statusOf := fun _ => some ""
    format := fun _ tree => tree
    relative := some
    pathExists := fun _ => false
    checkIgnore := fun _ => some 1
    gitignored := fun _ => false }
  catFile := fun _ => none
  isAncestor := fun _ => none
  isWordChar := Char.isAlphanum
  isDecimal := Char.isDigit
  status_eq := rfl

/-- A fresh run in a clone that ignores its `build.log`. -/
def ignoredLog : Situation := { lostTarget with
  primary := { lostTarget.primary with revList := fun _ => { returncode := 0, stdout := "0\n" } }
  clone := { lostTarget.clone with
    pathExists := fun p => decide (p = "build.log")
    checkIgnore := fun p => some (if p = "build.log" then 0 else 1)
    gitignored := fun p => decide (p = "build.log") } }

/-- It writes the log; the arguments of the call are kept as a JSON text. -/
def logWritten : AgentRun where
  messages := .list [some [some {
    partKind := "tool-call"
    toolName := "write_file"
    args := .text (some fun name =>
      if name = "path" then some "build.log" else if name = "content" then some "ok" else none) }]]

/-- **A failed `rev-list` counts as no commits**, and a JSON text of arguments hides an ignored edit. -/
theorem empty_diff_closed_without_evidence :
    ((PassEntry.reviewRound.result lostTarget true).Closes ∧ ¬ lostTarget.Evidence {}) ∧
      (((PassEntry.afterRun logWritten).result ignoredLog false).Closes ∧ ¬ ignoredLog.Evidence logWritten) := by
  refine ⟨⟨?_, fun ev => ?_⟩, ⟨?_, fun ev => ?_⟩⟩
  · exact (closes_backstop (s := lostTarget)).2 ⟨rfl, by decide, rfl, by decide⟩
  · obtain ⟨hrc, -⟩ := ev.noCommits lostTarget.primary List.mem_cons_self
    cases hrc
  · show (ignoredLog.noChangeCheck logWritten false).Closes
    rw [noChangeCheck_empty (by decide +kernel)]
    -- the summary cites no commit
    have hcited : citedShas ignoredLog.isWordChar (noChangeSummary logWritten) = [] := by
      unfold citedShas wordRuns lower
      rw [String.toList_ofList]
      decide +kernel
    have hshas : ignoredLog.unverifiedShas (noChangeSummary logWritten) = [] := by
      unfold unverifiedShas
      rw [hcited, List.filter_nil, ite_self]
    exact closes_fresh.2 ⟨by decide +kernel, by decide +kernel, by decide +kernel, hshas⟩
  · have hraw : "build.log" ∈ editedRawpaths logWritten.messages := by decide +kernel
    cases ev.tracked "build.log" hraw "build.log" rfl

end Situation
end Stages
end RobotsixMill
