import RobotsixMill.Stages.MergeStage

/-!
# `Stages.MergeAttempt` — what a poll looks at, and what it asks the forge to merge

Three polls of the merge stage merge a pull request: that of a ticket in `implement_complete`, of one that
waits for a human, and of one that waits for its checks. Each looks at the open pull request and at its
checks, if nothing ends the poll before, and merges what is green and eligible.

- `checksSeen` — the pull request and the checks a poll compares;
- `asksMerge` — the pull request it asks the forge to merge;
- `runSingleRepo_answering`, `runSingleRepo_asked` — only then does the forge's answer to a merge matter, and what
  it makes of the poll.
-/

namespace RobotsixMill
namespace Stages
open RobotsixMill.Core Lib Service

/-- The pull request, if it is open. -/
def openPr (answer : Answer PrStatus) : Option PrStatus :=
  match answer with
  | .found pr => if pr.merged = true ∨ pr.state = "closed" then none else some pr
  | _ => none

/-- The checks, if the forge has any. -/
def checksOf (answer : Answer CiStatus) : Option CiStatus :=
  match answer with
  | .found status => some status
  | _ => none

theorem openPr_eq_some {answer : Answer PrStatus} {pr : PrStatus} :
    openPr answer = some pr ↔ answer = .found pr ∧ pr.merged = false ∧ pr.state ≠ "closed" := by
  unfold openPr
  cases answer with
  | raised => simp
  | nothing => simp
  | found pr' =>
    dsimp only
    by_cases hover : pr'.merged = true ∨ pr'.state = "closed"
    · rw [if_pos hover]
      constructor
      · intro h
        cases h
      · rintro ⟨heq, hmerged, hclosed⟩
        obtain rfl : pr' = pr := Answer.found.inj heq
        rcases hover with h | h
        · rw [hmerged] at h
          cases h
        · exact absurd h hclosed
    · rw [if_neg hover]
      obtain ⟨hmerged, hclosed⟩ := not_or.1 hover
      constructor
      · intro h
        obtain rfl : pr' = pr := Option.some.inj h
        exact ⟨rfl, Bool.eq_false_of_not_eq_true hmerged, hclosed⟩
      · rintro ⟨heq, -, -⟩
        rw [Answer.found.inj heq]

theorem checksOf_eq_some {answer : Answer CiStatus} {status : CiStatus} :
    checksOf answer = some status ↔ answer = .found status := by
  cases answer <;> simp [checksOf]

section Views

variable (s : Settings) (tid : TicketId) (t : Ticket) (ctx : ApprovalContext) (a : Artifacts)

/-- What stops a poll between an open pull request and its checks. -/
def stopsBeforeChecks (pr : PrStatus) : Bool :=
  match t.state with
  | .implementComplete => decide (pr.mergeable = some false) || ctx.skipCi
  | .waitingAutoMerge =>
    ctx.ineligible.isSome || decide (pr.mergeable = some false) ||
      (reviewChangesRequestedOutcome s ctx.review pr.sha a).2.isSome
  | .humanMrApproval =>
    steadyStateFresh ctx a pr || (reviewChangesRequestedOutcome s ctx.review pr.sha a).2.isSome ||
      decide (pr.mergeable = some false) || ctx.skipCi
  | _ => true

/-- The pull request and the checks the poll compares. -/
def checksSeen : Option (PrStatus × CiStatus) :=
  if t.state = .implementComplete ∧ ctx.rateLimited then none
  else
    (openPr ctx.prStatus).bind fun pr =>
      if stopsBeforeChecks s t ctx a pr then none else (checksOf ctx.checkStatus).map fun status => (pr, status)

/-- The gates let the poll merge. -/
def gatesOpen : Bool :=
  ctx.ineligible.isNone ||
    (decide (t.state = .humanMrApproval) && (trySkipSensitivePathForApprovedDiff ctx a).2)

/-- The pull request the poll asks the forge to merge. -/
def asksMerge : Option PrStatus :=
  (checksSeen s t ctx a).bind fun seen =>
    if ciTrulyGreen seen.2.conclusion seen.1 ∧ gatesOpen t ctx a then some seen.1 else none

end Views

/-! ## What ends a poll before its checks -/

section Before

variable {s : Settings} {t : Ticket} {poll : PollContext} {ctx : ApprovalContext} {a : Artifacts} {pr : PrStatus}

/-- The review is read whatever the artifacts. -/
theorem reviewChangesRequestedOutcome_snd (review : Answer ReviewStatus) (prHeadSha : String)
    (b : Artifacts) :
    (reviewChangesRequestedOutcome s review prHeadSha b).2 =
      (reviewChangesRequestedOutcome s review prHeadSha a).2 := by
  unfold reviewChangesRequestedOutcome
  split
  · rfl
  · rfl
  · dsimp only
    split
    · rfl
    · split
      · rfl
      · rfl

/-- A review that asks for nothing leaves the artifacts alone. -/
theorem quiet_of_silent {review : Answer ReviewStatus} {prHeadSha : String}
    (h : (reviewChangesRequestedOutcome s review prHeadSha a).2 = none) (b : Artifacts) :
    reviewChangesRequestedOutcome s review prHeadSha b = (b, none) := by
  rw [← reviewChangesRequestedOutcome_snd review prHeadSha b] at h
  obtain ⟨-, feedback, note, heq⟩ | ⟨-, heq⟩ := reviewChangesRequestedOutcome_spec s review prHeadSha b
  · rw [heq] at h
    cases h
  · exact heq

/-- Green checks do not fail. -/
theorem not_failure_of_green {conclusion : Option String} (h : ciTrulyGreen conclusion pr = true) :
    conclusion ≠ some "failure" := by
  intro hfail
  rw [hfail] at h
  simp [ciTrulyGreen] at h

/-- The preamble passes on exactly an open pull request. -/
theorem checkPrBaseline_open (h : openPr poll.prStatus = some pr) (branch : String) (sameState : State) :
    checkPrBaseline s t poll branch sameState a = ({ a with prMissingPollsTxt := some "0" }, .ok pr) := by
  obtain ⟨hfound, hmerged, hclosed⟩ := openPr_eq_some.1 h
  unfold checkPrBaseline
  rw [hfound]
  dsimp only
  rw [if_neg (by simp [hmerged]), if_neg hclosed]

theorem checkPrBaseline_not_open (h : openPr poll.prStatus = none) (branch : String) (sameState : State) :
    ∃ outcome, (checkPrBaseline s t poll branch sameState a).2 = .error outcome := by
  cases hres : (checkPrBaseline s t poll branch sameState a).2 with
  | error outcome => exact ⟨outcome, rfl⟩
  | ok pr =>
    unfold checkPrBaseline at hres
    cases hfound : poll.prStatus with
    | raised =>
      rw [hfound] at hres
      cases hres
    | nothing =>
      rw [hfound] at hres
      dsimp only at hres
      repeat' split at hres
      all_goals cases hres
    | found pr' =>
      rw [hfound] at hres h
      dsimp only [openPr] at hres h
      by_cases hmerged : pr'.merged = true
      · rw [if_pos hmerged] at hres
        cases hres
      · by_cases hclosed : pr'.state = "closed"
        · rw [if_neg hmerged, if_pos hclosed] at hres
          split at hres
          · cases hres
          · cases hres
        · rw [if_neg (not_or.2 ⟨hmerged, hclosed⟩)] at h
          cases h

theorem checkPrBaselineVerifying_open (h : openPr ctx.prStatus = some pr) (branch : String) (sameState : State) :
    checkPrBaselineVerifying s t ctx branch sameState a = ({ a with prMissingPollsTxt := some "0" }, .ok pr) := by
  obtain ⟨hfound, hmerged, -⟩ := openPr_eq_some.1 h
  unfold checkPrBaselineVerifying
  rw [hfound]
  dsimp only
  rw [if_neg (fun hand => by rw [hmerged] at hand; cases hand.1)]
  exact checkPrBaseline_open h branch sameState

theorem checkPrBaselineVerifying_not_open (h : openPr ctx.prStatus = none) (branch : String)
    (sameState : State) :
    ∃ outcome, (checkPrBaselineVerifying s t ctx branch sameState a).2 = .error outcome := by
  unfold checkPrBaselineVerifying
  split
  · split
    · exact ⟨_, rfl⟩
    · exact checkPrBaseline_not_open h branch sameState
  · exact checkPrBaseline_not_open h branch sameState

end Before

/-! ## A poll that does not merge -/

section Unasked

variable {s : Settings} {tid : TicketId} {t : Ticket} {ctx : ApprovalContext} {a : Artifacts}

/-- The same poll with another answer to the merge. -/
def ApprovalContext.answering (ctx : ApprovalContext) (m : MergeResult) : ApprovalContext := { ctx with mergePr := m }

/-- Green and eligible is what a poll merges. -/
theorem not_green_or_shut {pr : PrStatus} {status : CiStatus} (hseen : checksSeen s t ctx a = some (pr, status))
    (h : asksMerge s t ctx a = none) :
    ciTrulyGreen status.conclusion pr = false ∨ gatesOpen t ctx a = false := by
  unfold asksMerge at h
  rw [hseen, Option.bind_some] at h
  by_cases hgreen : ciTrulyGreen status.conclusion pr = true
  · by_cases hgates : gatesOpen t ctx a = true
    · rw [if_pos ⟨hgreen, hgates⟩] at h
      cases h
    · exact .inr (Bool.eq_false_of_not_eq_true hgates)
  · exact .inl (Bool.eq_false_of_not_eq_true hgreen)

/-- The skip reads the stored hash only. -/
theorem trySkip_snd (a b : Artifacts) (h : b.approvedDiffHashTxt = a.approvedDiffHashTxt) :
    (trySkipSensitivePathForApprovedDiff ctx b).2 = (trySkipSensitivePathForApprovedDiff ctx a).2 := by
  unfold trySkipSensitivePathForApprovedDiff
  rw [h]
  split
  · rfl
  · split
    · rfl
    · split
      · rfl
      · split
        · rfl
        · rfl
        · split
          · rfl
          · rfl

/-- What the poll of `implement_complete` sees. -/
theorem checksSeen_implementComplete (hstate : t.state = .implementComplete) {pr : PrStatus} {status : CiStatus} :
    checksSeen s t ctx a = some (pr, status) ↔ SeesChecks ctx.toPollContext pr status := by
  unfold checksSeen stopsBeforeChecks
  rw [hstate]
  constructor
  · intro h
    by_cases hlimit : ctx.rateLimited = true
    · rw [if_pos ⟨rfl, hlimit⟩] at h
      cases h
    · rw [if_neg (fun hand => hlimit hand.2), Option.bind_eq_some_iff] at h
      obtain ⟨pr', hopen, h⟩ := h
      dsimp only at h
      split at h
      · cases h
      · rename_i hgo
        obtain ⟨status', hstatus, heq⟩ := Option.map_eq_some_iff.1 h
        cases heq
        obtain ⟨hfound, hmerged, hclosed⟩ := openPr_eq_some.1 hopen
        obtain ⟨hmergeable, hskip⟩ : pr.mergeable ≠ some false ∧ ctx.skipCi = false := by simpa using hgo
        exact ⟨⟨Bool.eq_false_of_not_eq_true hlimit, hfound, hmerged, hclosed⟩, hmergeable, hskip,
          checksOf_eq_some.1 hstatus⟩
  · intro h
    rw [if_neg (fun hand => by rw [h.polled] at hand; cases hand.2),
      openPr_eq_some.2 ⟨h.found, h.notMerged, h.notClosed⟩, Option.bind_some]
    dsimp only
    rw [if_neg (by simp [h.notConflicting, h.gated]), checksOf_eq_some.2 h.checks]
    rfl

theorem pollImplementComplete_answering (hstate : t.state = .implementComplete)
    (h : asksMerge s t ctx a = none) (m : MergeResult) :
    pollImplementComplete s tid t (ctx.answering m).toPollContext a =
      pollImplementComplete s tid t ctx.toPollContext a := by
  by_cases hchecks : ∃ pr status, SeesChecks ctx.toPollContext pr status
  · obtain ⟨pr, status, hsees⟩ := hchecks
    have hsees' : SeesChecks (ctx.answering m).toPollContext pr status :=
      ⟨⟨hsees.polled, hsees.found, hsees.notMerged, hsees.notClosed⟩, hsees.notConflicting, hsees.gated,
        hsees.checks⟩
    rw [pollImplementComplete_of_seesChecks s tid t _ hsees', pollImplementComplete_of_seesChecks s tid t _ hsees]
    have hmerge : ciTrulyGreen status.conclusion pr = true →
        mergeOrPromoteWhenGreen (ctx.answering m).toPollContext pr (atChecks a) =
          mergeOrPromoteWhenGreen ctx.toPollContext pr (atChecks a) := by
      intro hgreen
      have hseen := (checksSeen_implementComplete (s := s) (a := a) hstate).2 hsees
      rcases not_green_or_shut hseen h with hred | hshut
      · rw [hred] at hgreen
        cases hgreen
      · obtain ⟨reason, hreason⟩ : ∃ reason, ctx.ineligible = some reason := by
          apply Option.isSome_iff_exists.1
          simpa [gatesOpen, hstate] using hshut
        have hreason' : (ctx.answering m).ineligible = some reason := hreason
        unfold mergeOrPromoteWhenGreen
        rw [hreason, hreason']
    by_cases hgreen : ciTrulyGreen status.conclusion pr = true
    · rw [hmerge hgreen]
      rfl
    · rw [if_neg hgreen, if_neg hgreen]
      rfl
  · -- the poll ends before it has a conclusion
    unfold pollImplementComplete
    by_cases hlimit : ctx.rateLimited = true
    · exact (if_pos hlimit).trans (if_pos hlimit).symm
    refine (if_neg hlimit).trans (Eq.trans ?_ (if_neg hlimit).symm)
    have hbase : checkPrBaseline s t (ctx.answering m).toPollContext (branchOf s tid t) .implementComplete a =
        checkPrBaseline s t ctx.toPollContext (branchOf s tid t) .implementComplete a := rfl
    dsimp only
    rw [hbase]
    cases hopen : openPr ctx.prStatus with
    | none =>
      obtain ⟨outcome, hout⟩ := checkPrBaseline_not_open (s := s) (t := t) (a := a) hopen (branchOf s tid t)
        .implementComplete
      cases hres : checkPrBaseline s t ctx.toPollContext (branchOf s tid t) .implementComplete a with
      | mk b res =>
        rw [hres] at hout
        obtain rfl : res = .error outcome := hout
        rfl
    | some pr =>
      rw [checkPrBaseline_open hopen]
      dsimp only
      by_cases hconflict : pr.mergeable = some false
      · rw [if_pos hconflict, if_pos hconflict]
      rw [if_neg hconflict, if_neg hconflict]
      by_cases hskip : ctx.skipCi = true
      · exact (if_pos hskip).trans (if_pos hskip).symm
      refine (if_neg hskip).trans (Eq.trans ?_ (if_neg hskip).symm)
      have hsame : (ctx.answering m).checkStatus = ctx.checkStatus := rfl
      rw [hsame]
      cases hcheck : ctx.checkStatus with
      | raised => rfl
      | nothing => rfl
      | found status =>
        obtain ⟨hfound, hmerged, hclosed⟩ := openPr_eq_some.1 hopen
        exact absurd ⟨pr, status, ⟨Bool.eq_false_of_not_eq_true hlimit, hfound, hmerged, hclosed⟩, hconflict,
          Bool.eq_false_of_not_eq_true hskip, hcheck⟩ hchecks

/-- The preamble passes an open pull request on, or ends the poll. -/
theorem handleHumanMrApproval_answering (hstate : t.state = .humanMrApproval)
    (h : asksMerge s t ctx a = none) (m : MergeResult) :
    handleHumanMrApproval s tid t (ctx.answering m) a = handleHumanMrApproval s tid t ctx a := by
  unfold handleHumanMrApproval
  have hbase : checkPrBaseline s t (ctx.answering m).toPollContext (branchOf s tid t) .humanMrApproval a =
      checkPrBaseline s t ctx.toPollContext (branchOf s tid t) .humanMrApproval a := rfl
  rw [hbase]
  cases hopen : openPr ctx.prStatus with
  | none =>
    obtain ⟨outcome, hout⟩ := checkPrBaseline_not_open (s := s) (t := t) (a := a) hopen (branchOf s tid t)
      .humanMrApproval
    cases hres : checkPrBaseline s t ctx.toPollContext (branchOf s tid t) .humanMrApproval a with
    | mk b res =>
      rw [hres] at hout
      obtain rfl : res = .error outcome := hout
      rfl
  | some pr =>
    rw [checkPrBaseline_open hopen]
    dsimp only
    have hsteady (b : Artifacts) : steadyStateFresh (ctx.answering m) b pr = steadyStateFresh ctx b pr := rfl
    have hreview : (ctx.answering m).review = ctx.review := rfl
    rw [hsteady, hreview]
    by_cases hfresh : steadyStateFresh ctx { a with prMissingPollsTxt := some "0" } pr = true
    · rw [if_pos hfresh, if_pos hfresh]
    rw [if_neg hfresh, if_neg hfresh]
    obtain ⟨-, feedback, note, heq⟩ | ⟨hquiet, heq⟩ := reviewChangesRequestedOutcome_spec s ctx.review pr.sha
      { a with prMissingPollsTxt := some "0" }
    · rw [heq]
    rw [heq]
    dsimp only
    by_cases hconflict : pr.mergeable = some false
    · rw [if_pos hconflict, if_pos hconflict]
      rfl
    rw [if_neg hconflict, if_neg hconflict]
    unfold handleApprovalChecks
    by_cases hskip : ctx.skipCi = true
    · exact (if_pos hskip).trans (if_pos hskip).symm
    refine (if_neg hskip).trans (Eq.trans ?_ (if_neg hskip).symm)
    have hsame : (ctx.answering m).checkStatus = ctx.checkStatus := rfl
    rw [hsame]
    cases hcheck : ctx.checkStatus with
    | raised => rfl
    | nothing => rfl
    | found status =>
      have hsilent : (reviewChangesRequestedOutcome s ctx.review pr.sha a).2 = none := by
        rw [← reviewChangesRequestedOutcome_snd ctx.review pr.sha { a with prMissingPollsTxt := some "0" }, heq]
      have hseen : checksSeen s t ctx a = some (pr, status) := by
        have hstale : steadyStateFresh ctx a pr = false := Bool.eq_false_of_not_eq_true hfresh
        unfold checksSeen stopsBeforeChecks
        rw [hstate, if_neg (fun hand => by cases hand.1), hopen, Option.bind_some, hsilent, hstale]
        dsimp only
        rw [if_neg (by simp [hconflict, hskip]), hcheck]
        rfl
      have hmerge : ciTrulyGreen status.conclusion pr = true →
          handleGreenApproval (ctx.answering m) pr (atChecks a) = handleGreenApproval ctx pr (atChecks a) := by
        intro hgreen
        rcases not_green_or_shut hseen h with hred | hshut
        · rw [hred] at hgreen
          cases hgreen
        · obtain ⟨⟨reason, hreason⟩, hskipped⟩ : (∃ reason, ctx.ineligible = some reason) ∧
              (trySkipSensitivePathForApprovedDiff ctx a).2 = false := by
            rw [← Option.isSome_iff_exists]
            simpa [gatesOpen, hstate] using hshut
          have hsame' : (ctx.answering m).ineligible = ctx.ineligible := rfl
          have hskip' (b : Artifacts) : trySkipSensitivePathForApprovedDiff (ctx.answering m) b =
              trySkipSensitivePathForApprovedDiff ctx b := rfl
          unfold handleGreenApproval
          rw [hsame', hreason]
          dsimp only
          rw [hskip']
          have hskipped' : (trySkipSensitivePathForApprovedDiff ctx (atChecks a)).2 = false :=
            (trySkip_snd a (atChecks a) rfl).trans hskipped
          cases hres : trySkipSensitivePathForApprovedDiff ctx (atChecks a) with
          | mk b skips =>
            rw [hres] at hskipped'
            obtain rfl : skips = false := hskipped'
            rfl
      dsimp only
      by_cases hfail : status.conclusion = some "failure"
      · rw [if_pos hfail, if_pos hfail]
      rw [if_neg hfail, if_neg hfail]
      by_cases hgreen : ciTrulyGreen status.conclusion pr = true
      · rw [if_pos hgreen, if_pos hgreen]
        exact hmerge hgreen
      · rw [if_neg hgreen, if_neg hgreen]
        rfl

theorem pollWaitingAutoMerge_answering (hstate : t.state = .waitingAutoMerge)
    (h : asksMerge s t ctx a = none) (m : MergeResult) :
    pollWaitingAutoMerge s tid t (ctx.answering m) a = pollWaitingAutoMerge s tid t ctx a := by
  unfold pollWaitingAutoMerge
  have hbase : checkPrBaselineVerifying s t (ctx.answering m) (branchOf s tid t) .waitingAutoMerge a =
      checkPrBaselineVerifying s t ctx (branchOf s tid t) .waitingAutoMerge a := rfl
  rw [hbase]
  cases hopen : openPr ctx.prStatus with
  | none =>
    obtain ⟨outcome, hout⟩ := checkPrBaselineVerifying_not_open (s := s) (t := t) (a := a) hopen
      (branchOf s tid t) .waitingAutoMerge
    cases hres : checkPrBaselineVerifying s t ctx (branchOf s tid t) .waitingAutoMerge a with
    | mk b res =>
      rw [hres] at hout
      obtain rfl : res = .error outcome := hout
      rfl
  | some pr =>
    rw [checkPrBaselineVerifying_open hopen]
    dsimp only
    have hsame : (ctx.answering m).ineligible = ctx.ineligible := rfl
    rw [hsame]
    cases hineligible : ctx.ineligible with
    | some reason => rfl
    | none =>
      dsimp only
      by_cases hconflict : pr.mergeable = some false
      · rw [if_pos hconflict, if_pos hconflict]
        rfl
      rw [if_neg hconflict, if_neg hconflict]
      have hreview : (ctx.answering m).review = ctx.review := rfl
      rw [hreview]
      obtain ⟨-, feedback, note, heq⟩ | ⟨hquiet, heq⟩ := reviewChangesRequestedOutcome_spec s ctx.review pr.sha
        { a with prMissingPollsTxt := some "0" }
      · rw [heq]
      rw [heq]
      dsimp only
      unfold handleWaitingChecks
      have hsame' : (ctx.answering m).checkStatus = ctx.checkStatus := rfl
      rw [hsame']
      cases hcheck : ctx.checkStatus with
      | raised => rfl
      | nothing => rfl
      | found status =>
        have hsilent : (reviewChangesRequestedOutcome s ctx.review pr.sha a).2 = none := by
          rw [← reviewChangesRequestedOutcome_snd ctx.review pr.sha { a with prMissingPollsTxt := some "0" }, heq]
        have hseen : checksSeen s t ctx a = some (pr, status) := by
          unfold checksSeen stopsBeforeChecks
          rw [hstate, if_neg (fun hand => by cases hand.1), hopen, Option.bind_some, hsilent, hineligible]
          dsimp only
          rw [if_neg (by simp [hconflict]), hcheck]
          rfl
        have hred : ciTrulyGreen status.conclusion pr = false := by
          rcases not_green_or_shut hseen h with hred | hshut
          · exact hred
          · rw [gatesOpen, hineligible] at hshut
            cases hshut
        dsimp only
        by_cases hfail : status.conclusion = some "failure"
        · rw [if_pos hfail, if_pos hfail]
        rw [if_neg hfail, if_neg hfail, hred, if_neg Bool.false_ne_true, if_neg Bool.false_ne_true]
        rfl

/-- **A poll that asks for no merge does the same whatever the forge would have answered.** -/
theorem runSingleRepo_answering {ctx : MergeStageContext} (hstate : STAGE_FOR_STATE t.state = some "merge")
    (h : asksMerge s t ctx.approval a = none) (m : MergeResult) :
    runSingleRepo s tid t { ctx with approval := ctx.approval.answering m } a = runSingleRepo s tid t ctx a := by
  unfold runSingleRepo
  rcases mergeStage_states hstate with hst | hst | hst | hst | hst
  · rw [hst]
    exact pollImplementComplete_answering hst h m
  · rw [hst]
    exact handleHumanMrApproval_answering hst h m
  · rw [hst]
    exact pollWaitingAutoMerge_answering hst h m
  · rw [hst]
  · rw [hst]

end Unasked

/-! ## A poll that merges -/

section Asked

variable {s : Settings} {tid : TicketId} {t : Ticket} {ctx : ApprovalContext} {a : Artifacts} {pr : PrStatus}

/-- It has seen green checks of the pull request, and open gates. -/
theorem asksMerge_eq_some : asksMerge s t ctx a = some pr ↔
    ∃ status, checksSeen s t ctx a = some (pr, status) ∧ ciTrulyGreen status.conclusion pr = true ∧
      gatesOpen t ctx a = true := by
  unfold asksMerge
  rw [Option.bind_eq_some_iff]
  constructor
  · rintro ⟨⟨pr', status⟩, hseen, h⟩
    split at h
    · rename_i hgo
      obtain rfl : pr' = pr := Option.some.inj h
      exact ⟨status, hseen, hgo.1, hgo.2⟩
    · cases h
  · rintro ⟨status, hseen, hgreen, hgates⟩
    exact ⟨(pr, status), hseen, if_pos ⟨hgreen, hgates⟩⟩

/-- The parts of what a poll sees. -/
theorem checksSeen_eq_some {status : CiStatus} : checksSeen s t ctx a = some (pr, status) ↔
    ¬ (t.state = .implementComplete ∧ ctx.rateLimited = true) ∧ openPr ctx.prStatus = some pr ∧
      stopsBeforeChecks s t ctx a pr = false ∧ ctx.checkStatus = .found status := by
  unfold checksSeen
  by_cases hlimit : t.state = .implementComplete ∧ ctx.rateLimited = true
  · rw [if_pos hlimit]
    constructor
    · intro h
      cases h
    · rintro ⟨hgo, -⟩
      exact absurd hlimit hgo
  · rw [if_neg hlimit, Option.bind_eq_some_iff]
    constructor
    · rintro ⟨pr', hopen, h⟩
      split at h
      · cases h
      · rename_i hgo
        obtain ⟨status', hstatus, heq⟩ := Option.map_eq_some_iff.1 h
        cases heq
        exact ⟨hlimit, hopen, Bool.eq_false_of_not_eq_true hgo, checksOf_eq_some.1 hstatus⟩
    · rintro ⟨-, hopen, hgo, hcheck⟩
      refine ⟨pr, hopen, ?_⟩
      rw [if_neg (by simp [hgo]), checksOf_eq_some.2 hcheck]
      rfl

/-- What the forge's answer to a merge makes of the poll. -/
structure MergeOutcome (ctx : ApprovalContext) (a : Artifacts) (res : Artifacts × StageOutcome) : Prop where
  merged : ctx.mergePr = .merged → ctx.mergeConfirmed = true → res.2.nextState = .done
  rejected : ∀ reason retryable, ctx.mergePr = .rejected reason retryable →
    ∃ b sameState, sameState ≠ .blocked ∧ b.mergeRetryAttemptsTxt = a.mergeRetryAttemptsTxt ∧
      res = mergeRejectionOutcome reason retryable sameState b

theorem tryAutoMerge_outcome (a b : Artifacts) (hretry : b.mergeRetryAttemptsTxt = a.mergeRetryAttemptsTxt)
    (pr : PrStatus) {mergeFailSameState : State} (hsame : mergeFailSameState ≠ .blocked) (verifyFailState : State) :
    MergeOutcome ctx a (tryAutoMerge ctx pr mergeFailSameState verifyFailState b) := by
  unfold tryAutoMerge
  refine ⟨?_, ?_⟩
  · intro hmerged hconfirmed
    rw [hmerged]
    dsimp only
    rw [if_pos hconfirmed]
  · intro reason retryable hrejected
    rw [hrejected]
    exact ⟨b, mergeFailSameState, hsame, hretry, rfl⟩

theorem trySkip_retry (b : Artifacts) :
    (trySkipSensitivePathForApprovedDiff ctx b).1.mergeRetryAttemptsTxt = b.mergeRetryAttemptsTxt := by
  cases skipCase ctx b with
  | held result => rw [result]
  | stored hash onlyPaths current same result => rw [result]
  | approved hash rs onlyPaths current other review state result => rw [result]

theorem pollImplementComplete_asked (hstate : t.state = .implementComplete)
    (h : asksMerge s t ctx a = some pr) :
    MergeOutcome ctx a (pollImplementComplete s tid t ctx.toPollContext a) := by
  obtain ⟨status, hseen, hgreen, hgates⟩ := asksMerge_eq_some.1 h
  have hsees := (checksSeen_implementComplete hstate).1 hseen
  have heligible : ctx.ineligible = none := by simpa [gatesOpen, hstate] using hgates
  have hfail := not_failure_of_green hgreen
  rw [pollImplementComplete_of_seesChecks s tid t _ hsees, if_neg hfail, if_pos hgreen]
  unfold mergeOrPromoteWhenGreen
  rw [heligible]
  dsimp only
  refine ⟨?_, ?_⟩
  · intro hmerged hconfirmed
    rw [hmerged]
    dsimp only
    rw [if_pos hconfirmed]
  · intro reason retryable hrejected
    rw [hrejected]
    refine ⟨_, .implementComplete, by decide, ?_, rfl⟩
    rfl

theorem handleGreenApproval_asked (hstate : t.state = .humanMrApproval) (hgates : gatesOpen t ctx a = true) :
    MergeOutcome ctx a (handleGreenApproval ctx pr (atChecks a)) := by
  have hmerge (b : Artifacts) (hretry : b.mergeRetryAttemptsTxt = a.mergeRetryAttemptsTxt) :
      MergeOutcome ctx a (tryAutoMerge ctx pr .implementComplete .humanMrApproval b) :=
    tryAutoMerge_outcome a b hretry pr (by decide) .humanMrApproval
  unfold handleGreenApproval
  cases hineligible : ctx.ineligible with
  | none => exact hmerge (atChecks a) rfl
  | some reason =>
    have hskips : (trySkipSensitivePathForApprovedDiff ctx (atChecks a)).2 = true := by
      rw [trySkip_snd a (atChecks a) rfl]
      simpa [gatesOpen, hineligible, hstate] using hgates
    have hretry := @trySkip_retry ctx (atChecks a)
    dsimp only
    cases hres : trySkipSensitivePathForApprovedDiff ctx (atChecks a) with
    | mk b skips =>
      rw [hres] at hskips hretry
      obtain rfl : skips = true := hskips
      exact hmerge b hretry

theorem handleHumanMrApproval_asked (hstate : t.state = .humanMrApproval) (h : asksMerge s t ctx a = some pr) :
    MergeOutcome ctx a (handleHumanMrApproval s tid t ctx a) := by
  obtain ⟨status, hseen, hgreen, hgates⟩ := asksMerge_eq_some.1 h
  obtain ⟨-, hopen, hgo, hcheck⟩ := checksSeen_eq_some.1 hseen
  have hfail := not_failure_of_green hgreen
  obtain ⟨hfresh, hsilent, hmergeable, hskip⟩ : steadyStateFresh ctx a pr = false ∧
      (reviewChangesRequestedOutcome s ctx.review pr.sha a).2 = none ∧ pr.mergeable ≠ some false ∧
      ctx.skipCi = false := by
    unfold stopsBeforeChecks at hgo
    rw [hstate] at hgo
    simpa [and_assoc] using hgo
  have hquiet := quiet_of_silent hsilent { a with prMissingPollsTxt := some "0" }
  have hstale : steadyStateFresh ctx { a with prMissingPollsTxt := some "0" } pr = false := hfresh
  unfold handleHumanMrApproval
  rw [checkPrBaseline_open hopen]
  dsimp only
  rw [hstale, if_neg Bool.false_ne_true, hquiet]
  dsimp only
  rw [if_neg hmergeable]
  unfold handleApprovalChecks
  rw [hskip, if_neg Bool.false_ne_true, hcheck]
  dsimp only
  rw [if_neg hfail, if_pos hgreen]
  exact handleGreenApproval_asked hstate hgates

theorem pollWaitingAutoMerge_asked (hstate : t.state = .waitingAutoMerge) (h : asksMerge s t ctx a = some pr) :
    MergeOutcome ctx a (pollWaitingAutoMerge s tid t ctx a) := by
  obtain ⟨status, hseen, hgreen, hgates⟩ := asksMerge_eq_some.1 h
  obtain ⟨-, hopen, hgo, hcheck⟩ := checksSeen_eq_some.1 hseen
  have hfail := not_failure_of_green hgreen
  obtain ⟨heligible, hmergeable, hsilent⟩ : ctx.ineligible = none ∧ pr.mergeable ≠ some false ∧
      (reviewChangesRequestedOutcome s ctx.review pr.sha a).2 = none := by
    unfold stopsBeforeChecks at hgo
    rw [hstate] at hgo
    simpa [and_assoc] using hgo
  have hquiet := quiet_of_silent hsilent { a with prMissingPollsTxt := some "0" }
  unfold pollWaitingAutoMerge
  rw [checkPrBaselineVerifying_open hopen]
  dsimp only
  rw [heligible]
  dsimp only
  rw [if_neg hmergeable, hquiet]
  dsimp only
  unfold handleWaitingChecks
  rw [hcheck]
  dsimp only
  rw [if_neg hfail, if_pos hgreen]
  exact tryAutoMerge_outcome a { a with prMissingPollsTxt := some "0" } rfl pr (by decide) .implementComplete

/-- **A poll that asks for a merge does what the forge's answer to it says.** -/
theorem runSingleRepo_asked {ctx : MergeStageContext} (h : asksMerge s t ctx.approval a = some pr) :
    MergeOutcome ctx.approval a (runSingleRepo s tid t ctx a) := by
  obtain ⟨status, hseen, -⟩ := asksMerge_eq_some.1 h
  obtain ⟨-, -, hgo, -⟩ := checksSeen_eq_some.1 hseen
  unfold runSingleRepo
  cases hstate : t.state with
  | implementComplete => exact pollImplementComplete_asked hstate h
  | humanMrApproval => exact handleHumanMrApproval_asked hstate h
  | waitingAutoMerge => exact pollWaitingAutoMerge_asked hstate h
  | _ =>
    unfold stopsBeforeChecks at hgo
    rw [hstate] at hgo
    cases hgo

end Asked

end Stages
end RobotsixMill
