import RobotsixMill.Stages.MultiRepo

/-!
# `Stages.MergeStage` — the merge stage as a whole

`MergeStage.run` sees every ticket in one of five states. A ticket whose pull requests are listed in
`pr_urls.json` is polled by `_run_multi_repo` whatever its state; any other by the handler of its state.
What the worker does with an outcome depends on the state the ticket is in: a next state that is neither that
state nor a legal move from it is dropped.

The handlers of the states were written for one state each, `_run_multi_repo` was not: it finishes a ticket
that is being revised or rebased, which the table of transitions does not allow.

- `mergeStageRun` — the dispatch;
- `applies_iff_not_overruns` — the outcomes the worker can apply.
-/

namespace RobotsixMill
namespace Stages
open RobotsixMill.Core Lib Service

/-- What one run of the stage finds around it. -/
structure MergeStageContext where
  /-- `forge_kind` is not `none`. -/
  forgeConfigured : Bool := true
  /-- The error of `github_token`. -/
  tokenError : Option String := none
  /-- The error of `_load_pr_urls` on a manifest it cannot read. -/
  manifestError : String := ""
  approval : ApprovalContext := {}
  rebase : RebaseContext := {}
  revision : RevisionContext := {}
  multiRepo : MultiRepoContext := {}

section Run

variable (s : Settings) (tid : TicketId) (t : Ticket) (ctx : MergeStageContext)

/-- `MergeStage.run` on a ticket with one pull request. -/
def runSingleRepo (a : Artifacts) : Artifacts × StageOutcome :=
  match t.state with
  | .implementComplete => pollImplementComplete s tid t ctx.approval.toPollContext a
  | .rebasing => runRebase s ctx.rebase a
  | .addressingReview => runReviewRevision s ctx.revision a
  | .waitingAutoMerge => pollWaitingAutoMerge s tid t ctx.approval a
  | _ => handleHumanMrApproval s tid t ctx.approval a

/-- `MergeStage.run`. -/
def mergeStageRun (a : Artifacts) : Artifacts × StageOutcome :=
  if ctx.forgeConfigured = false then (a, .block "forge not configured")
  else
    match ctx.tokenError with
    | some e => (a, .block s!"forge auth not configured: {e}")
    | none =>
      match a.prUrlsJson with
      | .corrupt => (a, .block s!"pr_urls.json corrupted — resumable: {ctx.manifestError}")
      | .ok [] => (a, .block "pr_urls.json corrupted — resumable: empty manifest")
      | .ok entries => runMultiRepo s t ctx.multiRepo entries a
      | .absent => runSingleRepo s tid t ctx a

/-! ## One pull request -/

theorem handleCiFailureRoute_moves (poll : PollContext) (status : CiStatus) (a : Artifacts) :
    (handleCiFailureRoute s tid t poll status a).2.nextState ∈ allowedFrom .implementComplete := by
  unfold handleCiFailureRoute
  dsimp only
  split
  · simp [allowedFrom, TRANSITIONS]
  · split
    · simp [allowedFrom, TRANSITIONS]
    · split
      · simp [allowedFrom, TRANSITIONS]
      · split
        · rename_i b outcome hpp
          -- the detector of alternations blocks
          obtain ⟨-, ⟨hnone, -⟩ | ⟨-, -, note, hsome⟩⟩ := checkPingPong_spec s tid "ci_fix"
            { a with autoFixCyclesTxt := some (toString (readCounter a.autoFixCyclesTxt + 1)) }
          · rw [hpp] at hnone
            cases hnone
          · rw [hpp] at hsome
            cases hsome
            simp [allowedFrom, TRANSITIONS]
        · simp [allowedFrom, TRANSITIONS]

theorem mergeOrPromoteWhenGreen_moves (poll : PollContext) (pr : PrStatus) (a : Artifacts) :
    (mergeOrPromoteWhenGreen poll pr a).2.nextState ∈ allowedFrom .implementComplete := by
  unfold mergeOrPromoteWhenGreen
  dsimp only
  split
  · simp [allowedFrom, TRANSITIONS]
  · split
    · split
      · simp [allowedFrom, TRANSITIONS]
      · simp [allowedFrom, TRANSITIONS]
    · rename_i reason retryable _
      have hsub : ∀ st ∈ [State.implementComplete, .blocked], st ∈ allowedFrom .implementComplete := by decide
      exact hsub _ (mergeRejectionOutcome_moves reason retryable .implementComplete _)

/-- Where a result leads that may leave the poll to go on. -/
def LeadsInto (dsts : List State) (res : Artifacts × Option StageOutcome) : Prop :=
  ∀ outcome, res.2 = some outcome → outcome.nextState ∈ dsts

theorem LeadsInto.none {dsts : List State} {a : Artifacts} : LeadsInto dsts (a, none) :=
  fun _ heq => by cases heq

theorem LeadsInto.some {dsts : List State} {a : Artifacts} {outcome : StageOutcome}
    (h : outcome.nextState ∈ dsts) : LeadsInto dsts (a, some outcome) :=
  fun _ heq => Option.some.inj heq ▸ h

theorem checkEmptyRollup_moves (poll : PollContext) (pr : PrStatus) (branch : String) (status : CiStatus)
    (a : Artifacts) :
    LeadsInto [.implementComplete, .blocked] (checkEmptyRollup s poll pr branch status a) := by
  unfold checkEmptyRollup
  dsimp only
  split
  · exact .some (.head _)
  · exact .some (.tail _ (.head _))
  · split
    · exact .none
    · split
      · exact .none
      · split
        · exact .some (.tail _ (.head _))
        · split
          · exact .some (.head _)
          · exact .some (.tail _ (.head _))

/-- The bound on green polls goes on polling, or blocks. -/
theorem checkGreenUnpromotable_moves (poll : PollContext) (pr : PrStatus) (branch : String)
    (status : CiStatus) (a : Artifacts) :
    LeadsInto [.implementComplete, .blocked] (checkGreenUnpromotable s poll pr branch status a) := by
  unfold checkGreenUnpromotable
  split
  · exact .none
  · split
    · exact checkEmptyRollup_moves s poll pr branch status a
    · split
      · exact .none
      · dsimp only
        split
        · exact .none
        · exact .some (.tail _ (.head _))

theorem pollImplementComplete_moves (poll : PollContext) (a : Artifacts) :
    (pollImplementComplete s tid t poll a).2.nextState ∈ allowedFrom .implementComplete := by
  have hsub : ∀ st ∈ [State.implementComplete, .blocked, .done], st ∈ allowedFrom .implementComplete := by
    decide
  have hsub' : ∀ st ∈ [State.implementComplete, .blocked], st ∈ allowedFrom .implementComplete := by decide
  unfold pollImplementComplete
  dsimp only
  split
  · simp [allowedFrom, TRANSITIONS]
  · split
    · rename_i b outcome hbase
      exact hsub _ (checkPrBaseline_moves s t poll _ .implementComplete a outcome (by rw [hbase]))
    · split
      · simp [allowedFrom, TRANSITIONS]
      · split
        · simp [allowedFrom, TRANSITIONS]
        · split
          · simp [allowedFrom, TRANSITIONS]
          · simp [allowedFrom, TRANSITIONS]
          · split
            · exact handleCiFailureRoute_moves s tid t poll _ _
            · split
              · exact mergeOrPromoteWhenGreen_moves poll _ _
              · split
                · simp [allowedFrom, TRANSITIONS]
                · split
                  · rename_i b outcome hstuck
                    exact hsub' _ (checkGreenUnpromotable_moves s poll _ _ _ _ outcome (by rw [hstuck]))
                  · simp [allowedFrom, TRANSITIONS]

theorem afterVerifiedPush_moves (rebase : RebaseContext) (attempt : Int) (a : Artifacts) :
    (afterVerifiedPush s rebase attempt a).2.nextState ∈ allowedFrom .rebasing := by
  unfold afterVerifiedPush
  dsimp only
  split
  · simp [allowedFrom, TRANSITIONS]
  · split
    · split
      · split
        · simp [allowedFrom, TRANSITIONS]
        · simp [allowedFrom, TRANSITIONS]
      · simp [allowedFrom, TRANSITIONS]
    · split
      · simp [allowedFrom, TRANSITIONS]
      · split
        · simp [allowedFrom, TRANSITIONS]
        · simp [allowedFrom, TRANSITIONS]

theorem runRebase_moves (rebase : RebaseContext) (a : Artifacts) :
    (runRebase s rebase a).2.nextState ∈ allowedFrom .rebasing := by
  unfold runRebase
  split
  · simp [allowedFrom, TRANSITIONS]
  · unfold handleConflict
    dsimp only
    split
    · simp [allowedFrom, TRANSITIONS]
    · split
      · simp [allowedFrom, TRANSITIONS]
      · split
        · unfold handleRebaseSuccess
          dsimp only
          split
          · split
            · simp [allowedFrom, TRANSITIONS]
            · exact afterVerifiedPush_moves s rebase _ _
            · exact afterVerifiedPush_moves s rebase _ _
          · simp [allowedFrom, TRANSITIONS]
          · simp [allowedFrom, TRANSITIONS]
          · simp [allowedFrom, TRANSITIONS]
        · unfold handleRebaseFailure
          split
          · simp [allowedFrom, TRANSITIONS]
          · simp [allowedFrom, TRANSITIONS]

/-- The states the merge stage works on. -/
theorem mergeStage_states {st : State} (h : STAGE_FOR_STATE st = some "merge") :
    st = .implementComplete ∨ st = .humanMrApproval ∨ st = .waitingAutoMerge ∨ st = .rebasing ∨
      st = .addressingReview := by
  cases st <;> simp [STAGE_FOR_STATE] at h ⊢

/-- **The handlers of the states make legal moves only.** -/
theorem runSingleRepo_moves (hstate : STAGE_FOR_STATE t.state = some "merge") (a : Artifacts) :
    (runSingleRepo s tid t ctx a).2.nextState ∈ allowedFrom t.state := by
  unfold runSingleRepo
  rcases mergeStage_states hstate with h | h | h | h | h
  · rw [h]
    exact pollImplementComplete_moves s tid t _ a
  · rw [h]
    exact handleHumanMrApproval_moves s tid t _ a
  · rw [h]
    exact pollWaitingAutoMerge_moves s tid t _ a
  · rw [h]
    exact runRebase_moves s _ a
  · rw [h]
    have hsub : ∀ st ∈ [State.addressingReview, .humanMrApproval, .blocked],
        st ∈ allowedFrom .addressingReview := by decide
    exact hsub _ (runReviewRevision_moves s ctx.revision a)

/-! ## Several pull requests -/

/-- A poll of the manifest goes beyond what the state of the ticket allows: it finds everything merged while
    the ticket is being rebased or revised, or changes requested while it is being rebased. -/
structure Overruns (a : Artifacts) (entries : List PrEntry) : Prop where
  configured : ctx.forgeConfigured = true ∧ ctx.tokenError = none
  manifest : a.prUrlsJson = .ok entries
  asks : AsksAll ctx.multiRepo entries
  shown : ((t.state = .rebasing ∨ t.state = .addressingReview) ∧ AllMerged (answered ctx.multiRepo entries)) ∨
    (t.state = .rebasing ∧ GreenWithRequest s (answered ctx.multiRepo entries))

/-- The merge stage blocks from every state it works on, and gives every ticket back to a human. -/
theorem blocked_allowed {st : State} (hstate : STAGE_FOR_STATE st = some "merge") :
    .blocked ∈ allowedFrom st ∧ .humanMrApproval ∈ allowedFrom st := by
  rcases mergeStage_states hstate with h | h | h | h | h
  all_goals
    rw [h]
    decide

theorem done_allowed_iff {st : State} (hstate : STAGE_FOR_STATE st = some "merge") :
    .done ∈ allowedFrom st ↔ ¬ (st = .rebasing ∨ st = .addressingReview) := by
  rcases mergeStage_states hstate with h | h | h | h | h
  all_goals
    rw [h]
    decide

theorem addressingReview_allowed_iff {st : State} (hstate : STAGE_FOR_STATE st = some "merge") :
    .addressingReview ∈ allowedFrom st ↔ st ≠ .rebasing := by
  rcases mergeStage_states hstate with h | h | h | h | h
  all_goals
    rw [h]
    decide

/-- **An outcome of the merge stage can be applied exactly if no poll of the manifest overruns the state.** -/
theorem applies_iff_not_overruns (hstate : STAGE_FOR_STATE t.state = some "merge") (a : Artifacts) :
    (mergeStageRun s tid t ctx a).2.Applies t.state t.blockedFrom t.pausedFrom ↔
      ¬ ∃ entries, Overruns s t ctx a entries := by
  have hactive : t.state ≠ .blocked ∧ t.state ≠ .awaitingUserReply := by
    rcases mergeStage_states hstate with h | h | h | h | h
    all_goals
      rw [h]
      decide
  rw [applies_iff hactive.1 hactive.2]
  obtain ⟨hblocked, hhuman⟩ := blocked_allowed hstate
  constructor
  · rintro hmem ⟨entries, hover⟩
    have hentries : entries ≠ [] := by
      rintro rfl
      rcases hover.shown with ⟨-, hmerged⟩ | ⟨-, -, x, hx, -⟩
      · exact hmerged.1 rfl
      · exact absurd hx List.not_mem_nil
    have hrun : mergeStageRun s tid t ctx a = runMultiRepo s t ctx.multiRepo entries a := by
      unfold mergeStageRun
      rw [if_neg (by simp [hover.configured.1]), hover.configured.2]
      dsimp only
      rw [hover.manifest]
      cases entries with
      | nil => exact absurd rfl hentries
      | cons e rest => rfl
    rw [hrun] at hmem
    rcases hover.shown with ⟨hlate, hmerged⟩ | ⟨hrebasing, hrequest⟩
    · rw [runMultiRepo_of_allMerged s t _ hover.asks hmerged] at hmem
      exact (done_allowed_iff hstate).1 hmem hlate
    · rw [runMultiRepo_of_request s t _ hover.asks hrequest] at hmem
      exact (addressingReview_allowed_iff hstate).1 hmem hrebasing
  · intro hnot
    unfold mergeStageRun
    split
    · exact hblocked
    · rename_i hforge
      split
      · exact hblocked
      · rename_i htoken
        split
        · exact hblocked
        · exact hblocked
        · rename_i entries _ hmanifest
          have hover (hasks : AsksAll ctx.multiRepo entries) :=
            fun hshown => hnot ⟨entries, ⟨Bool.eq_true_of_not_eq_false hforge, htoken⟩, hmanifest, hasks, hshown⟩
          have hmove := runMultiRepo_move s t ctx.multiRepo entries a
          generalize (runMultiRepo s t ctx.multiRepo entries a).2.nextState = next at hmove
          cases hmove with
          | stays => exact .head _
          | blocked => exact hblocked
          | done hasks hmerged =>
            apply (done_allowed_iff hstate).2
            intro hlate
            exact hover hasks (.inl ⟨hlate, hmerged⟩)
          | revised hasks hrequest =>
            apply (addressingReview_allowed_iff hstate).2
            intro hrebasing
            exact hover hasks (.inr ⟨hrebasing, hrequest⟩)
          | held => exact hhuman
        · exact runSingleRepo_moves s tid t ctx hstate a

end Run

/-! ## A merged ticket that cannot be finished -/

/-- A ticket of several repositories, once changes were requested of one of its pull requests. -/
def REVISED_TICKET : Ticket := { title := "t", state := .addressingReview, createdAt := 0, updatedAt := 0 }

def MANIFEST : Artifacts := { prUrlsJson := .ok [{ repoId := "lib", branch := "mill/T" }] }

/-- A human merges the pull request all the same. -/
def MERGED_POLL : MergeStageContext where
  multiRepo := { repos := fun _ => { prStatus := .found { state := "closed", merged := true } } }

/-- The one pull request of a ticket that waits for a human, merged. -/
def MERGED_APPROVAL : MergeStageContext where
  approval := { prStatus := .found { state := "closed", merged := true } }

/-- The merge of a single pull request is applied. -/
theorem merged_approval_applies :
    (mergeStageRun {} "T" { REVISED_TICKET with state := .humanMrApproval } MERGED_APPROVAL {}).2.Applies
      .humanMrApproval none none := by
  apply (applies_iff_not_overruns {} "T" { REVISED_TICKET with state := .humanMrApproval } MERGED_APPROVAL
    rfl {}).2
  rintro ⟨entries, hover⟩
  cases hover.manifest

/-- That of a ticket which is being revised is dropped. -/
theorem merged_while_revised_dropped :
    ¬ ∀ (s : Settings) (tid : TicketId) (t : Ticket) (ctx : MergeStageContext) (a : Artifacts),
      STAGE_FOR_STATE t.state = some "merge" →
        (mergeStageRun s tid t ctx a).2.Applies t.state t.blockedFrom t.pausedFrom := by
  intro h
  have happlies := h {} "T" REVISED_TICKET MERGED_POLL MANIFEST rfl
  rw [applies_iff (by decide) (by decide)] at happlies
  have hdone : (mergeStageRun {} "T" REVISED_TICKET MERGED_POLL MANIFEST).2.nextState = .done := rfl
  rw [hdone] at happlies
  revert happlies
  decide

end Stages
end RobotsixMill
