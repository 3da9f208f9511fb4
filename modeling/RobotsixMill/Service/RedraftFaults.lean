import RobotsixMill.Service.Runs

/-!
# `Service.RedraftFaults` — a redraft that raises

`redraft` rewrites `description.md`, deletes the clone and the artifacts, and only then reads the repos config and the
session cost and commits. When one of its calls raises, the session rolls the rows back and the files stay as they are
by then. `redraftWith` is `redraft` with calls on the files and the session that may raise (`redraftWith_none`).

- `Untouched` — the tickets and their files are as they were;
- `redraft_atomic_iff` — a redraft that raises has left everything untouched, and can be retried, exactly when it raised
  before the description was written or there was nothing to fold in and nothing to delete.
-/

namespace RobotsixMill
namespace Service
open RobotsixMill.Core Lib

/-- The calls that may raise besides the reads of the repos config and of the session cost. -/
inductive RedraftPoint
  /-- Reading the description and the comments. -/
  | reading
  /-- Deleting the comments and the history, up to the first flush. -/
  | deleting
  /-- The second flush and the new event. -/
  | inserting
  | committing
deriving DecidableEq, Repr

/-- What each of these calls raises, if anything. -/
abbrev RedraftFaults := RedraftPoint → Option ServiceError

/-- `redraft`; rows are written by the commit only. -/
def redraftWith (env : Env) (svc : BoardId) (fault : RedraftFaults) (tid : TicketId) (body : String) (σ : Mill) :
    Result Unit :=
  match fetch env svc σ tid with
  | .error e => (σ, .error e)
  | .ok (k, r) =>
    match redraftRefusal tid r.ticket with
    | some e => (σ, .error e)
    | none =>
      match fault .reading with
      | some e => (σ, .error e)
      | none =>
        -- from here on the files change, whatever becomes of the rows
        let written := σ.editWorkspace k fun ws =>
          { ws with description := some (redraftDescription body ws.readDescription r.comments) }
        match fault .deleting with
        | some e => (written, .error e)
        | none =>
          let pruned := written.editWorkspace k fun ws => { pruneClone ws with artifacts := {} }
          if env.repos.isNone then (pruned, .error (.externalError "repos config unavailable"))
          else
            match env.sessionCost σ.ticks tid with
            | none => (pruned, .error (.externalError "session cost unavailable"))
            | some cost =>
              match fault .inserting with
              | some e => (pruned, .error e)
              | none =>
                match fault .committing with
                | some e => (pruned, .error e)
                | none => ((pruned.putRecord k (redraftRecord tid (σ.now env) body cost r)).tick, .ok ())

/-- The tickets, their comments and events, and the files of every ticket are as they were. -/
structure Untouched (σ σ' : Mill) : Prop where
  records : σ'.records = σ.records
  workspace : ∀ k, σ'.workspace k = σ.workspace k

/-- If the redraft raises, it has left everything untouched, and trying it again leaves the description that it would
    have left without the first try. -/
def RedraftAtomic (env : Env) (svc : BoardId) (fault : RedraftFaults) (tid : TicketId) (body : String) (σ : Mill) :
    Prop :=
  ∀ e, (redraftWith env svc fault tid body σ).2 = .error e →
    Untouched σ (redraftWith env svc fault tid body σ).1 ∧
      ∀ env' fault' k,
        ((redraftWith env' svc fault' tid body (redraftWith env svc fault tid body σ).1).1.workspace k).description =
          ((redraftWith env' svc fault' tid body σ).1.workspace k).description

/-- There is a description, and nothing to fold into it. -/
def NothingToFold (body : String) (r : TicketRecord) (ws : Workspace) : Prop :=
  isBlank body = true ∧ r.comments = [] ∧ ws.description.isSome = true

/-- There is neither a clone nor an artifact. -/
def NothingToDelete (ws : Workspace) : Prop := ws.repo = false ∧ ws.artifacts = {}

/-- Does a call behind the deletion of the clone raise? -/
def raisesLate (env : Env) (fault : RedraftFaults) (tid : TicketId) (σ : Mill) : Bool :=
  env.repos.isNone || (env.sessionCost σ.ticks tid).isNone || (fault .inserting).isSome || (fault .committing).isSome

/-- What raises, raises before the description is written, or finds nothing to fold and, if it comes late, nothing to
    delete. -/
def FaultHarmless (env : Env) (svc : BoardId) (fault : RedraftFaults) (tid : TicketId) (body : String) (σ : Mill) :
    Prop :=
  ∀ k r, fetch env svc σ tid = .ok (k, r) → redraftRefusal tid r.ticket = none → fault .reading = none →
    ((fault .deleting).isSome = true → NothingToFold body r (σ.workspace k)) ∧
    (fault .deleting = none → raisesLate env fault tid σ = true →
      NothingToFold body r (σ.workspace k) ∧ NothingToDelete (σ.workspace k))

section Files

variable {σ σ' : Mill} {k : Key} {f g : Workspace → Workspace}

theorem editWorkspace_editWorkspace :
    (σ.editWorkspace k f).editWorkspace k g = σ.editWorkspace k fun ws => g (f ws) := by
  unfold Mill.editWorkspace Mill.workspace
  simp

theorem workspace_editWorkspace_self : (σ.editWorkspace k f).workspace k = f (σ.workspace k) := by
  show ((Function.update σ.workspaces k (some (f (σ.workspace k)))) k).getD {} = _
  rw [Function.update_self, Option.getD_some]

theorem workspace_editWorkspace_of_ne {k' : Key} (h : k' ≠ k) :
    (σ.editWorkspace k f).workspace k' = σ.workspace k' := by
  show ((Function.update σ.workspaces k (some (f (σ.workspace k)))) k').getD {} = _
  rw [Function.update_of_ne h]
  rfl

theorem Untouched.refl (σ : Mill) : Untouched σ σ := ⟨rfl, fun _ => rfl⟩

theorem untouched_editWorkspace_iff : Untouched σ (σ.editWorkspace k f) ↔ f (σ.workspace k) = σ.workspace k := by
  constructor
  · intro h
    exact workspace_editWorkspace_self.symm.trans (h.workspace k)
  · intro h
    refine ⟨rfl, fun k' => ?_⟩
    by_cases hk : k' = k
    · rw [hk, workspace_editWorkspace_self, h]
    · exact workspace_editWorkspace_of_ne hk

end Files

/-- A redraft with no call that raises is the redraft. -/
theorem redraftWith_none (env : Env) (svc : BoardId) (tid : TicketId) (body : String) (σ : Mill) :
    redraftWith env svc (fun _ => none) tid body σ = redraft env svc tid body σ := by
  unfold redraftWith redraft
  cases fetch env svc σ tid with
  | error e => rfl
  | ok found =>
    obtain ⟨k, r⟩ := found
    dsimp only
    cases redraftRefusal tid r.ticket with
    | some e => rfl
    | none =>
      dsimp only
      rw [editWorkspace_editWorkspace]
      rfl

/-! ## What a redraft leaves -/

/-- The folded text is the original only when nothing is folded in. -/
theorem redraftDescription_eq_iff {body original : String} {comments : List Comment} :
    redraftDescription body original comments = original ↔ isBlank body = true ∧ comments = [] := by
  unfold redraftDescription
  dsimp only
  constructor
  · intro h
    by_contra hnot
    have hfolded : ¬((if isBlank body then [] else [body]) ++
        (comments.insertionSort fun a b => a.createdAt ≤ b.createdAt).map fun c =>
          s!"**{c.author}** — {String.ofList (isoformat c.createdAt)}:\n{c.body}") = [] := by
      intro hnil
      obtain ⟨hbody, hcomments⟩ := List.append_eq_nil_iff.1 hnil
      refine hnot ⟨?_, ?_⟩
      · by_contra hblank
        rw [if_neg hblank] at hbody
        cases hbody
      · have hperm := List.perm_insertionSort (fun a b : Comment => a.createdAt ≤ b.createdAt) comments
        rw [List.map_eq_nil_iff.1 hcomments] at hperm
        exact hperm.nil_eq.symm
    rw [if_neg hfolded] at h
    -- something is folded in, so the text is longer by a heading at least
    have hlength := congrArg String.length h
    have hheading : 0 < "\n\n---\n## Folded-in on redraft\n".length := by decide
    rw [String.length_append] at hlength
    have htext : (s!"{original}\n\n---\n## Folded-in on redraft\n").length =
        original.length + "\n\n---\n## Folded-in on redraft\n".length := String.length_append ..
    omega
  · rintro ⟨hblank, rfl⟩
    rw [if_pos hblank]
    rfl

section Outcome

variable {env : Env} {svc : BoardId} {fault : RedraftFaults} {tid : TicketId} {body : String} {σ : Mill} {k : Key}
  {r : TicketRecord}

/-- A redraft that raises before it writes anything. -/
theorem redraftWith_early (body : String)
    (h : ∀ k r, fetch env svc σ tid = .ok (k, r) → redraftRefusal tid r.ticket = none → fault .reading ≠ none) :
    ∃ e, redraftWith env svc fault tid body σ = (σ, .error e) := by
  unfold redraftWith
  cases hfetch : fetch env svc σ tid with
  | error e => exact ⟨e, rfl⟩
  | ok found =>
    obtain ⟨k, r⟩ := found
    dsimp only
    cases hrefusal : redraftRefusal tid r.ticket with
    | some e => exact ⟨e, rfl⟩
    | none =>
      dsimp only
      cases hreading : fault .reading with
      | some e => exact ⟨e, rfl⟩
      | none => exact absurd hreading (h k r hfetch hrefusal)

/-- The workspace once the description is written. -/
def redescribed (body : String) (r : TicketRecord) (ws : Workspace) : Workspace :=
  { ws with description := some (redraftDescription body ws.readDescription r.comments) }

/-- The workspace once clone and artifacts are deleted. -/
def cleared (body : String) (r : TicketRecord) (ws : Workspace) : Workspace :=
  { pruneClone (redescribed body r ws) with artifacts := {} }

theorem redraftWith_deleting (body : String) (hfetch : fetch env svc σ tid = .ok (k, r))
    (hrefusal : redraftRefusal tid r.ticket = none) (hreading : fault .reading = none) {e : ServiceError}
    (hdeleting : fault .deleting = some e) :
    redraftWith env svc fault tid body σ = (σ.editWorkspace k (redescribed body r), .error e) := by
  unfold redraftWith
  rw [hfetch]
  dsimp only
  rw [hrefusal, hreading, hdeleting]
  rfl

/-- Behind the deletion of the clone a redraft raises, or it commits. -/
theorem redraftWith_late (body : String) (hfetch : fetch env svc σ tid = .ok (k, r))
    (hrefusal : redraftRefusal tid r.ticket = none) (hreading : fault .reading = none)
    (hdeleting : fault .deleting = none) :
    (raisesLate env fault tid σ = true ∧
        ∃ e, redraftWith env svc fault tid body σ = (σ.editWorkspace k (cleared body r), .error e)) ∨
      (raisesLate env fault tid σ = false ∧ ∃ r', redraftWith env svc fault tid body σ =
        (((σ.editWorkspace k (cleared body r)).putRecord k r').tick, .ok ())) := by
  unfold redraftWith raisesLate
  rw [hfetch]
  dsimp only
  rw [hrefusal, hreading, hdeleting, editWorkspace_editWorkspace]
  dsimp only
  cases env.repos with
  | none => exact .inl ⟨rfl, _, rfl⟩
  | some repos =>
    cases env.sessionCost σ.ticks tid with
    | none => exact .inl ⟨rfl, _, rfl⟩
    | some cost =>
      cases fault .inserting with
      | some e => exact .inl ⟨rfl, e, rfl⟩
      | none =>
        cases fault .committing with
        | some e => exact .inl ⟨rfl, e, rfl⟩
        | none => exact .inr ⟨rfl, _, rfl⟩

theorem workspace_redraftWith_late (hfetch : fetch env svc σ tid = .ok (k, r))
    (hrefusal : redraftRefusal tid r.ticket = none) (hreading : fault .reading = none)
    (hdeleting : fault .deleting = none) (k' : Key) :
    (redraftWith env svc fault tid body σ).1.workspace k' = (σ.editWorkspace k (cleared body r)).workspace k' := by
  rcases redraftWith_late body hfetch hrefusal hreading hdeleting with ⟨-, e, h⟩ | ⟨-, r', h⟩
  · rw [h]
  · rw [h]
    rfl

/-- The same edit of what is the same. -/
theorem Untouched.editWorkspace {σ' : Mill} (h : Untouched σ σ') (f : Workspace → Workspace) (k' : Key) :
    (σ'.editWorkspace k f).workspace k' = (σ.editWorkspace k f).workspace k' := by
  by_cases hk : k' = k
  · rw [hk, workspace_editWorkspace_self, workspace_editWorkspace_self, h.workspace]
  · rw [workspace_editWorkspace_of_ne hk, workspace_editWorkspace_of_ne hk, h.workspace]

/-- What a redraft leaves of the files depends on the records and the files alone. -/
theorem workspace_redraftWith {σ' : Mill} (h : Untouched σ σ') (k' : Key) :
    (redraftWith env svc fault tid body σ').1.workspace k' = (redraftWith env svc fault tid body σ).1.workspace k' := by
  have hfetches : fetch env svc σ' tid = fetch env svc σ tid := fetch_congr h.records tid
  by_cases hearly : ∀ k r, fetch env svc σ tid = .ok (k, r) → redraftRefusal tid r.ticket = none → fault .reading ≠ none
  · -- both raise before they write
    obtain ⟨e, he⟩ := redraftWith_early body hearly
    rw [← hfetches] at hearly
    obtain ⟨e', he'⟩ := redraftWith_early body hearly
    rw [he, he']
    exact h.workspace k'
  · push Not at hearly
    obtain ⟨k, r, hfetch, hrefusal, hreading⟩ := hearly
    have hfetch' := hfetches.trans hfetch
    cases hdeleting : fault .deleting with
    | some e =>
      rw [redraftWith_deleting body hfetch hrefusal hreading hdeleting,
        redraftWith_deleting body hfetch' hrefusal hreading hdeleting]
      exact h.editWorkspace _ k'
    | none =>
      rw [workspace_redraftWith_late hfetch hrefusal hreading hdeleting,
        workspace_redraftWith_late hfetch' hrefusal hreading hdeleting]
      exact h.editWorkspace _ k'

/-- The description is written back as it was. -/
theorem redescribed_eq_iff {ws : Workspace} : redescribed body r ws = ws ↔ NothingToFold body r ws := by
  obtain ⟨description, repo, repos, artifacts⟩ := ws
  cases description with
  | none =>
    refine iff_of_false (fun h => ?_) fun h => ?_
    · cases congrArg Workspace.description h
    · cases h.2.2
  | some original =>
    have hkept : redescribed body r ⟨some original, repo, repos, artifacts⟩ = ⟨some original, repo, repos, artifacts⟩ ↔
        redraftDescription body original r.comments = original := by
      constructor
      · exact fun h => Option.some.inj (congrArg Workspace.description h)
      · intro h
        show Workspace.mk (some (redraftDescription body original r.comments)) repo repos artifacts = _
        rw [h]
    rw [hkept, redraftDescription_eq_iff]
    exact ⟨fun ⟨hblank, hcomments⟩ => ⟨hblank, hcomments, rfl⟩, fun ⟨hblank, hcomments, _⟩ => ⟨hblank, hcomments⟩⟩

/-- Description, clone and artifacts are as they were. -/
theorem cleared_eq_iff {ws : Workspace} : cleared body r ws = ws ↔ NothingToFold body r ws ∧ NothingToDelete ws := by
  rw [← redescribed_eq_iff]
  obtain ⟨description, repo, repos, artifacts⟩ := ws
  constructor
  · intro h
    have hrepo := congrArg Workspace.repo h
    have hartifacts := congrArg Workspace.artifacts h
    have hdescription := congrArg Workspace.description h
    refine ⟨?_, hrepo.symm, hartifacts.symm⟩
    show Workspace.mk (redescribed body r ⟨description, repo, repos, artifacts⟩).description repo repos artifacts = _
    rw [show (redescribed body r ⟨description, repo, repos, artifacts⟩).description = description from hdescription]
  · rintro ⟨h, hrepo, hartifacts⟩
    unfold cleared
    rw [h]
    cases hrepo
    cases hartifacts
    rfl

end Outcome

/-- **When a redraft that raises is atomic.** -/
theorem redraft_atomic_iff (env : Env) (svc : BoardId) (fault : RedraftFaults) (tid : TicketId) (body : String)
    (σ : Mill) : RedraftAtomic env svc fault tid body σ ↔ FaultHarmless env svc fault tid body σ := by
  have hretried : ∀ {σ'}, Untouched σ σ' → ∀ env' fault' k,
      ((redraftWith env' svc fault' tid body σ').1.workspace k).description =
        ((redraftWith env' svc fault' tid body σ).1.workspace k).description :=
    fun h _ _ k => congrArg Workspace.description (workspace_redraftWith h k)
  constructor
  · intro hatomic k r hfetch hrefusal hreading
    refine ⟨fun hdeleting => ?_, fun hdeleting hlate => ?_⟩
    · obtain ⟨e, he⟩ := Option.isSome_iff_exists.1 hdeleting
      have hredraft := redraftWith_deleting body hfetch hrefusal hreading he
      have huntouched := (hatomic e (congrArg Prod.snd hredraft)).1
      rw [hredraft] at huntouched
      exact redescribed_eq_iff.1 (untouched_editWorkspace_iff.1 huntouched)
    · rcases redraftWith_late body hfetch hrefusal hreading hdeleting with ⟨-, e, hredraft⟩ | ⟨hnot, -⟩
      · have huntouched := (hatomic e (congrArg Prod.snd hredraft)).1
        rw [hredraft] at huntouched
        exact cleared_eq_iff.1 (untouched_editWorkspace_iff.1 huntouched)
      · rw [hlate] at hnot
        cases hnot
  · intro hharmless e he
    suffices huntouched : Untouched σ (redraftWith env svc fault tid body σ).1 from
      ⟨huntouched, hretried huntouched⟩
    by_cases hearly : ∀ k r, fetch env svc σ tid = .ok (k, r) → redraftRefusal tid r.ticket = none →
        fault .reading ≠ none
    · obtain ⟨e', hredraft⟩ := redraftWith_early body hearly
      rw [hredraft]
      exact Untouched.refl σ
    · push Not at hearly
      obtain ⟨k, r, hfetch, hrefusal, hreading⟩ := hearly
      obtain ⟨hdelete, hlate⟩ := hharmless k r hfetch hrefusal hreading
      cases hdeleting : fault .deleting with
      | some e' =>
        rw [redraftWith_deleting body hfetch hrefusal hreading hdeleting]
        exact untouched_editWorkspace_iff.2 (redescribed_eq_iff.2 (hdelete (by rw [hdeleting]; rfl)))
      | none =>
        rcases redraftWith_late body hfetch hrefusal hreading hdeleting with
          ⟨hraises, e', hredraft⟩ | ⟨-, r', hredraft⟩
        · rw [hredraft]
          exact untouched_editWorkspace_iff.2 (cleared_eq_iff.2 (hlate hdeleting hraises))
        · rw [hredraft] at he
          cases he

/-- A ticket with a comment. -/
def commentedRun : List Op :=
  [.create "board" { id := "t-1", title := "ticket", description := "Fix it." },
    .transition "board" "t-1" .blocked none none, .addComment "board" "t-1" "which one?" "reviewer" none]

/-- The database is locked when the session commits. -/
def commitFails : RedraftFaults
  | .committing => some (.dbError "database is locked")
  | _ => none

/-- The commit fails and the redraft is tried again: the comment stands in the description twice. -/
theorem failed_redraft_folds_twice :
    ¬RedraftAtomic .standalone "board" commitFails "t-1" "" (runOps .standalone .empty commentedRun) ∧
      ((redraft .standalone "board" "t-1" ""
        (redraftWith .standalone "board" commitFails "t-1" "" (runOps .standalone .empty commentedRun)).1).1.workspace
          ("board", "t-1")).description = some ("Fix it." ++
            "\n\n---\n## Folded-in on redraft\n**reviewer** — 1970-01-01T00:00:00.000017+00:00:\nwhich one?" ++
            "\n\n---\n## Folded-in on redraft\n**reviewer** — 1970-01-01T00:00:00.000017+00:00:\nwhich one?") := by
  have hraised : (redraftWith .standalone "board" commitFails "t-1" "" (runOps .standalone .empty commentedRun)).2 =
      .error (.dbError "database is locked") := by
    decide +kernel
  have hrewritten : ((redraftWith .standalone "board" commitFails "t-1" ""
      (runOps .standalone .empty commentedRun)).1.workspace ("board", "t-1")).description ≠
      ((runOps .standalone .empty commentedRun).workspace ("board", "t-1")).description := by
    decide +kernel
  refine ⟨fun hatomic => hrewritten ?_, by decide +kernel⟩
  exact congrArg Workspace.description ((hatomic _ hraised).1.workspace ("board", "t-1"))

end Service
end RobotsixMill
