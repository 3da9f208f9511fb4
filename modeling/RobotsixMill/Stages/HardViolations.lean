import RobotsixMill.Stages.ReviewRouting

/-!
# `Stages.HardViolations` — is a hard violation ever waved through?

A pin of a commit that does not exist, or that is older than the operator allows, becomes an ask like any other. It
stops the ticket at the round cap, when the findings repeat, and when some ask is in the ticket's scope. When all asks
are out of scope the ticket is approved: the pin's file is in the diff, which counts as addressed, and an ask that
does not count as addressed becomes a ticket of its own.

- `violation_stops_iff` — exactly when the violation stops the ticket;
- `unscoped_pin_stopped`, `workflow_pin_waved_through` — a pass where it does, and one where it does not.
-/

namespace RobotsixMill
namespace Stages
open RobotsixMill.Core Lib

/-- The asks that the two checks of a pass add. -/
def ReviewPass.violations (p : ReviewPass) : List ReviewAsk :=
  violationAsks p.verifyActionSha p.shaIsOlderThan p.actionRefs p.reusableWorkflowRefs p.approval

/-- The verdict of a pass after the two checks. -/
def ReviewPass.checked (p : ReviewPass) (v : ReviewVerdict) : ReviewVerdict :=
  checkPins p.verifyActionSha p.shaIsOlderThan p.actionRefs p.reusableWorkflowRefs p.approval v

/-- A pass ends with the ticket at the implementer's, or at a human's, or it raises. -/
def HaltsTicket (result : ReviewResult) : Prop :=
  ∀ outcome, result = .ok outcome → outcome.nextState ∈ [.ready, .awaitingUserReply, .blocked]

/-- A pass that raises on this ask, once it is found out of scope. -/
def RaisesOn (p : ReviewPass) (a : ReviewAsk) : Prop :=
  a.description = "" ∨
    (askRoute p.verifyClaim p.fileMap p.modifiedPaths a = .spawned ∧
      ∃ title, followUpTitle a = some title ∧ p.accepts title (followUpBody p.toReviewContext a) = false)

variable {sha256 : String → String} {p : ReviewPass} {st st' : ReviewState} {v : ReviewVerdict} {inputHash : String}

theorem requestChanges_checked (v : ReviewVerdict) :
    (p.checked v).requestChanges = p.violations ++ v.requestChanges := requestChanges_checkPins

/-- A violation has a title, so the round cap asks the operator about it. -/
theorem roundCapDirectives_ne_nil (h : p.violations ≠ []) :
    (roundCapDirectives p.toReviewContext (p.checked v)).1.isEmpty = false := by
  obtain ⟨a, as, hviolations⟩ := List.exists_cons_of_ne_nil h
  have hmem : a ∈ p.violations := by
    rw [hviolations]
    exact List.mem_cons_self
  have htitle := title_of_mem_violationAsks hmem
  have hin : a ∈ (roundCapDirectives p.toReviewContext (p.checked v)).1 := by
    show a ∈ List.filter _ _
    rw [List.mem_filter, requestChanges_checked, htitle]
    exact ⟨List.mem_append_left _ hmem, rfl⟩
  rw [← Bool.not_eq_true, List.isEmpty_iff]
  exact List.ne_nil_of_mem hin

/-- With every ask out of scope, the pass raises on an ask or can route them all. -/
theorem routable_iff_of_outOfScope
    (hout : ∀ a ∈ v.requestChanges, askRoute p.verifyClaim p.fileMap p.modifiedPaths a ≠ .inScope) :
    Routable p.toReviewContext v ↔ ∀ a ∈ v.requestChanges, ¬ RaisesOn p a := by
  constructor
  · intro h a ha hraises
    cases hroute : askRoute p.verifyClaim p.fileMap p.modifiedPaths a with
    | inScope => exact hout a ha hroute
    | addressed =>
        obtain hempty | ⟨hspawned, -⟩ := hraises
        · exact h.addressed a (mem_alreadyAddressed.2 ⟨ha, hroute⟩) hempty
        · rw [hroute] at hspawned
          cases hspawned
    | spawned =>
        have hcan := h.spawned a (mem_stillOutOfScope.2 ⟨ha, hroute⟩)
        obtain hempty | ⟨-, title, htitle, hrefused⟩ := hraises
        · exact hcan.1 hempty
        · rw [hcan.2 title htitle] at hrefused
          cases hrefused
  · intro h
    constructor
    · intro a ha hempty
      exact h a (mem_alreadyAddressed.1 ha).1 (Or.inl hempty)
    · intro a ha
      obtain ⟨hmem, hroute⟩ := mem_stillOutOfScope.1 ha
      refine ⟨fun hempty => h a hmem (Or.inl hempty), fun title htitle => ?_⟩
      by_contra hrefused
      exact h a hmem (Or.inr ⟨hroute, title, htitle, by simpa using hrefused⟩)

/-- What is routed stops the ticket if it has an ask in scope or raises. -/
theorem routeVerdict_stops_iff (hsome : v.requestChanges ≠ []) :
    HaltsTicket (routeVerdict p.toReviewContext inputHash v st).1 ↔
      (∃ a ∈ v.requestChanges, p.fileMap.all (fun m => askInScope m a) = true) ∨ ∃ a ∈ v.requestChanges, RaisesOn p a := by
  have hscope : (∃ a ∈ v.requestChanges, p.fileMap.all (fun m => askInScope m a) = true) ↔
      (p.asksOf v).inScope ≠ [] := by
    rw [ne_eq, List.eq_nil_iff_forall_not_mem, ReviewContext.asksOf]
    simp only [mem_inScope, askRoute_eq_inScope_iff, not_forall, not_not]
  rw [hscope]
  by_cases hin : (p.asksOf v).inScope = []
  · have hout : ∀ a ∈ v.requestChanges, askRoute p.verifyClaim p.fileMap p.modifiedPaths a ≠ .inScope := by
      intro a ha hroute
      have hmem := mem_inScope.2 ⟨ha, hroute⟩
      rw [ReviewContext.asksOf] at hin
      rw [hin] at hmem
      exact List.not_mem_nil hmem
    have hroutable := routable_iff_of_outOfScope hout
    constructor
    · intro hstops
      refine Or.inr ?_
      by_contra hnone
      have hok : Routable p.toReviewContext v := hroutable.2 fun a ha hraises => hnone ⟨a, ha, hraises⟩
      obtain ⟨st', -, heq⟩ := routeVerdict_ok hok inputHash st
      obtain ⟨outcome, houtcome⟩ := settleAsks_ok hin inputHash v st'
      rw [heq] at hstops
      have hstate := routeVerdict_state ((congrArg Prod.fst heq).trans houtcome)
      obtain ⟨-, hne | hnil⟩ | ⟨hdoc, -, -⟩ := hstate
      · exact hne hin
      · exact hsome hnil
      · have hmem := hstops outcome houtcome
        rw [hdoc] at hmem
        revert hmem
        decide
    · rintro (hne | ⟨a, ha, hraises⟩)
      · exact absurd hin hne
      · obtain ⟨e, he⟩ := routeVerdict_raises (fun hok => hroutable.1 hok a ha hraises) inputHash st
        intro outcome houtcome
        rw [he] at houtcome
        cases houtcome
  · refine ⟨fun _ => Or.inl hin, fun _ outcome houtcome => ?_⟩
    obtain ⟨hready, -⟩ | ⟨-, hnil, -⟩ := routeVerdict_state houtcome
    · rw [hready]
      decide
    · exact absurd hnil hin

theorem judge_stops_iff (hviolation : p.violations ≠ []) :
    HaltsTicket (judge sha256 p inputHash v st).1 ↔
      p.reviewMaxRounds ≤ st.reviewRounds + 1 ∨
      converges sha256 st (p.violations ++ v.requestChanges) = true ∨
      (∃ a ∈ p.violations ++ v.requestChanges, p.fileMap.all (fun m => askInScope m a) = true) ∨
      (∃ a ∈ p.violations ++ v.requestChanges, RaisesOn p a) := by
  have hverdict : (p.checked v).verdict = .requestChanges := verdict_checkPins hviolation
  have hsome : (p.checked v).requestChanges ≠ [] := by
    rw [requestChanges_checked]
    exact List.append_ne_nil_of_left_ne_nil hviolation _
  rw [judge, handleReviewVerdict, ← ReviewPass.checked, hverdict, ← requestChanges_checked]
  dsimp only
  by_cases hcap : p.reviewMaxRounds ≤ st.reviewRounds + 1
  · refine ⟨fun _ => Or.inl hcap, fun _ outcome houtcome => ?_⟩
    rw [handleRequestChanges_cap hcap] at houtcome
    obtain rfl := Except.ok.inj houtcome
    rw [handleRoundCap_state, roundCapDirectives_ne_nil hviolation, Bool.false_and]
    decide
  · cases hconv : converges sha256 st (p.checked v).requestChanges with
    | true =>
        refine ⟨fun _ => Or.inr (Or.inl rfl), fun _ outcome houtcome => ?_⟩
        rw [handleRequestChanges_converged hcap hconv] at houtcome
        obtain rfl := Except.ok.inj houtcome
        decide
    | false =>
        rw [handleRequestChanges_routed hcap hconv, routeVerdict_stops_iff hsome]
        simp [hcap]

/-- **When a violation stops the ticket.** The review pass does not approve exactly if the round is the last one, the
    findings are those of the round before, some ask of the verdict is in the ticket's scope, or the pass raises. -/
theorem violation_stops_iff (hjudges : Judges sha256 p st v inputHash st') (hviolation : p.violations ≠ []) :
    HaltsTicket (reviewRun sha256 p st).1 ↔
      p.reviewMaxRounds ≤ st.reviewRounds + 1 ∨
      converges sha256 st (p.violations ++ v.requestChanges) = true ∨
      (∃ a ∈ p.violations ++ v.requestChanges, p.fileMap.all (fun m => askInScope m a) = true) ∨
      (∃ a ∈ p.violations ++ v.requestChanges, RaisesOn p a) := by
  rw [reviewRun_judges hjudges]
  -- only the record of a question may have changed before the verdict is judged
  obtain ⟨marker, rfl⟩ := hjudges.state
  exact judge_stops_iff hviolation

/-! ## A workflow outside the file map -/

/-- A commit id that upstream does not have. -/
def missingSha : String := "0123456789abcdef0123456789abcdef01234567"

/-- The branch changes a file of the map and pins a missing commit in a workflow; the agent approves. -/
def workflowPinPass : ReviewPass where
  reviewMaxRounds := 3
  ticketId := "t-1"
  fileMap := some ["src/app.py"]
  modifiedPaths := ["src/app.py", ".github/workflows/ci.yml"]
  verifyClaim _ _ := false
  comments := []
  accepts _ _ := true
  followUpId _ := "t-2"
  hasClone := true
  diff := .ok "+++ b/.github/workflows/ci.yml\n+    uses: actions/checkout@0123456789abcdef0123456789abcdef01234567"
  spec := "Update the app."
  headSha := "c0ffee"
  reviewerFingerprint := ""
  actionRefs := [⟨".github/workflows/ci.yml", "actions/checkout", missingSha, ""⟩]
  reusableWorkflowRefs := []
  approval := none
  requestsChange _ := false
  verifyActionSha _ _ := some false
  shaIsOlderThan _ _ _ := none
  agent := .verdict { verdict := .approve, comments := "Looks good." }

/-- The same on a ticket without a file map. -/
def unscopedPinPass : ReviewPass := { workflowPinPass with fileMap := none }

theorem unscoped_pin_stopped : HaltsTicket (reviewRun id unscopedPinPass {}).1 := by
  have hjudges : Judges id unscopedPinPass {} { verdict := .approve, comments := "Looks good." } _ {} :=
    ⟨rfl, ⟨_, rfl, by decide, rfl, rfl⟩, rfl, rfl⟩
  apply (violation_stops_iff hjudges (by decide)).2
  exact Or.inr (Or.inr (Or.inl ⟨_, List.mem_cons_self, rfl⟩))

theorem workflow_pin_waved_through : ¬ ∀ (sha256 : String → String) (p : ReviewPass) (st st' : ReviewState)
    (v : ReviewVerdict) (inputHash : String), Judges sha256 p st v inputHash st' → p.violations ≠ [] →
    HaltsTicket (reviewRun sha256 p st).1 := by
  intro h
  have hjudges : Judges id workflowPinPass {} { verdict := .approve, comments := "Looks good." } _ {} :=
    ⟨rfl, ⟨_, rfl, by decide, rfl, rfl⟩, rfl, rfl⟩
  have hviolation : workflowPinPass.violations ≠ [] := by decide
  have hstops := h _ _ _ _ _ _ hjudges hviolation
  rw [reviewRun_judges hjudges] at hstops
  obtain hcap | hconverges | hscope | ⟨a, ha, hempty | ⟨-, _, -, hrefused⟩⟩ := (judge_stops_iff hviolation).1 hstops
  · revert hcap
    decide
  · cases hconverges
  · revert hscope
    decide
  · revert a
    decide
  · cases hrefused

end Stages
end RobotsixMill
