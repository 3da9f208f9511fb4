import RobotsixMill.Service.Runs
import RobotsixMill.Service.History

/-!
# `Service.Refinement` — every operation is a run of commits

`Admits cond env σ op` says that the commits `op` makes in its own name, started in `σ`, meet `cond`.
Under it each operation is a run of commits that all meet `cond` (`reaches_op`), and a record property
that is stable under those commits is an invariant of runs of operations (`records_invariant`).
-/

namespace RobotsixMill
namespace Service
open RobotsixMill.Core Lib

/-! ## The commits an operation makes in its own name -/

/-- Are there `[ASK_USER]` threads, and are all of them but `cid` closed? -/
def closesLastQuestion (cid : CommentId) (cs : List Comment) : Bool :=
  let ask_threads := cs.filter isAskUserThread
  !ask_threads.isEmpty && ask_threads.all fun c => decide (c.id = cid) || c.closedAt.isSome

/-- The auto-resume a call brings about: the ticket, and the state it goes to. -/
def autoResumeOf (env : Env) (σ : Mill) : Op → Option (Key × State)
  | .addComment svc tid _ _ (some pid) =>
    match fetch env svc σ tid with
    | .error _ => none
    | .ok (k, r) =>
      match r.comments.find? fun c => c.id = pid with
      | none => none
      | some parent =>
        if answersQuestion r.ticket parent && closesLastQuestion pid r.comments then
          (resumeTarget r.ticket r.events).map fun dst => (k, dst)
        else none
  | .closeThread svc cid tid =>
    match boardForComment env svc cid tid σ with
    | .error _ => none
    | .ok board =>
      match commentOwner σ board cid with
      | none => none
      | some (k, r) =>
        match r.comments.find? fun c => c.id = cid with
        | none => none
        | some comment =>
          if comment.parentId.isNone && comment.closedAt.isNone &&
              decide (r.ticket.state = .awaitingUserReply) && closesLastQuestion cid r.comments then
            (resumeTarget r.ticket r.events).map fun dst => (k, dst)
          else none
  | .answerPendingQuestion svc tid _ _ false =>
    match fetch env svc σ tid with
    | .error _ => none
    | .ok (k, r) =>
      match latestOpenThread r.comments with
      | none => none
      | some thread =>
        if answerable r.ticket && closesLastQuestion thread.id r.comments then
          -- a ticket that was blocked is paused again first, which marks it if it has no mark
          if r.ticket.state = .blocked then some (k, r.ticket.pausedFrom.getD .blocked)
          else (resumeTarget r.ticket r.events).map fun dst => (k, dst)
        else none
  | _ => none

/-- The auto-resume of a call is permitted. -/
def ResumeAdmitted (cond : Commit → Prop) (env : Env) (σ : Mill) (op : Op) : Prop :=
  ∀ k r now dst, autoResumeOf env σ op = some (k, dst) → autoResumeDst r = some dst →
    cond (.change k r (.autoResume now dst))

/-- The move to `ready` that an answer asking for a change makes is permitted. -/
def ReadyAdmitted (cond : Commit → Prop) (k : Key) (body : String) : Prop :=
  ∀ r now, r.ticket.state = .awaitingUserReply →
    cond (.change k r (.transition now .ready (some body) none))

/-- The source board and the tickets of a migration that gets as far as its first commit: the checks
    pass, and no directory, row or transaction stands in its way. -/
def migrationSource (env : Env) (svc : BoardId) (tid : TicketId) (target : String) (σ : Mill) :
    Option (BoardId × List TicketId) :=
  match knownBoard env target, fetch env svc σ tid with
  | some dst, .ok (k, r) =>
    let clear : TicketId → Bool := fun t =>
      (σ.workspaces (dst, t)).isNone && (σ.records.get (dst, t)).isNone
    if target = "" ∨ dst = "" ∨ dst = k.1 ∨ env.dbFails σ.ticks = true then none
    else if r.ticket.kind = .epic then
      match collectSubtree σ k.1 tid with
      | some ts =>
        if subtreeBlockers σ k.1 ts = [] ∧ ts.all clear = true then some (k.1, ts) else none
      | none => none
    else if childrenOn σ k.1 tid = [] ∧ r.ticket.state ∈ MIGRATABLE_STATES ∧ clear tid = true then
      some (k.1, [tid])
    else none
  | _, _ => none

/-- The own commits of `op` meet `cond`. -/
def Admits (cond : Commit → Prop) (env : Env) (σ : Mill) : Op → Prop
  | .create _ a => ∀ k r, r.ticket.state = a.state → cond (.create k r)
  | .transition svc tid dst note reason => ∀ k r now, fetch env svc σ tid = .ok (k, r) →
      transitionNoop r.ticket dst = false → transitionRefusal tid dst r = none →
      cond (.change k r (.transition now dst note reason))
  | .resumeBlocked svc tid _ => ∀ k r s now cid note eventNote, fetch env svc σ tid = .ok (k, r) →
      cond (.change k r (.resumeBlocked s now cid note eventNote))
  | .requestChanges svc tid body author => ∀ k r now cid, fetch env svc σ tid = .ok (k, r) →
      cond (.change k r (.requestChanges now cid body author))
  | .requestImplementationChanges svc tid body author => ∀ k r now cid,
      fetch env svc σ tid = .ok (k, r) →
      cond (.change k r (.requestImplementationChanges now cid body author))
  | .redraft svc tid body => ∀ k r now cost, fetch env svc σ tid = .ok (k, r) →
      redraftRefusal tid r.ticket = none → env.repos.isSome → env.sessionCost σ.ticks tid = some cost →
      cond (.change k r (.redraft now body cost))
  | .markDone svc tid _ author => ∀ k r now cid note, fetch env svc σ tid = .ok (k, r) →
      markDoneRefusal tid r.ticket = none → unmergedRefusal env k r.ticket σ = none →
      cond (.change k r (.markDone now cid note author))
  | .closeTracker svc tid note => ∀ k r now, fetch env svc σ tid = .ok (k, r) →
      cond (.change k r (.closeTracker now note))
  | .migrate svc tid target _ => ∀ src ts, migrationSource env svc tid target σ = some (src, ts) →
      ∀ t ∈ ts, ∀ r, σ.records.get (src, t) = some r → ∀ dst now note cs,
      cs.map Comment.body = r.comments.map Comment.body →
      cond (.copy (src, t) (dst, t) r (.migrate now note cs))
  | .addComment svc tid body author pid =>
      ResumeAdmitted cond env σ (.addComment svc tid body author pid)
  | .closeThread svc cid tid => ResumeAdmitted cond env σ (.closeThread svc cid tid)
  | .answerPendingQuestion svc tid body author change =>
      (change = true → ∀ k r, fetch env svc σ tid = .ok (k, r) → ReadyAdmitted cond k body) ∧
      ResumeAdmitted cond env σ (.answerPendingQuestion svc tid body author change)
  | .addHistoryNote svc tid note => ∀ k r now, fetch env svc σ tid = .ok (k, r) →
      cond (.change k r (.historyNote now note))
  | .addStepEvent svc tid note => ∀ k r now, fetch env svc σ tid = .ok (k, r) →
      cond (.change k r (.stepEvent now note))
  | .purgeTicketEvents svc tid => ∀ r, svc ≠ "" → σ.records.get (svc, tid) = some r →
      cond (.change (svc, tid) r (.purgeEvents env.settings.maxEventsPerTicket))

/-! ## One lemma for each operation -/

section Ops

variable {env : Env} {svc : BoardId} {cond : Commit → Prop} {σ : Mill}

theorem reaches_create (args : CreateArgs)
    (h : ∀ k r, r.ticket.state = args.state → cond (.create k r)) :
    Reaches cond σ.records (create env svc args σ).1.records := by
  unfold create
  dsimp only
  split
  · exact .refl _
  · split
    · exact .refl _
    · rename_i hget
      refine .step (h _ _ rfl) (.create hget ?_)
      exact ⟨rfl, rfl, rfl, rfl, _, rfl⟩

/-- The sessions that commit one change of the fetched record. -/
theorem reaches_fetched {tid : TicketId} {k : Key} {r r' : TicketRecord} {σ' : Mill} {c : Change}
    (hf : fetch env svc σ tid = .ok (k, r)) (hc : cond (.change k r c)) (hal : c.Allowed k.2 r)
    (hr' : r' = c.apply k.2 r) (hσ' : σ'.records = σ.records.put k r') :
    Reaches cond σ.records σ'.records := by
  rw [hσ']
  exact reaches_put hc (get_of_fetch hf).2 hal hr'

theorem reaches_resumeBlocked (tid : TicketId) (note : String)
    (h : ∀ k r s now cid note eventNote, fetch env svc σ tid = .ok (k, r) →
      cond (.change k r (.resumeBlocked s now cid note eventNote))) :
    Reaches cond σ.records (resumeBlocked env svc tid note σ).1.records := by
  unfold resumeBlocked
  cases hf : fetch env svc σ tid with
  | error e => exact .refl _
  | ok kr =>
      obtain ⟨k, r⟩ := kr
      obtain ⟨rfl, -⟩ := get_of_fetch hf
      cases hr : resumeRefusal k.2 r.ticket with
      | some e => simp only [hr]; exact .refl _
      | none =>
          simp only [hr]
          exact reaches_fetched (c := .resumeBlocked _ _ _ _ _) hf (h _ _ _ _ _ _ _ hf) hr rfl rfl

theorem reaches_requestChanges (tid : TicketId) (body author : String)
    (h : ∀ k r now cid, fetch env svc σ tid = .ok (k, r) →
      cond (.change k r (.requestChanges now cid body author))) :
    Reaches cond σ.records (requestChanges env svc tid body author σ).1.records := by
  unfold requestChanges
  cases hf : fetch env svc σ tid with
  | error e => exact .refl _
  | ok kr =>
      obtain ⟨k, r⟩ := kr
      obtain ⟨rfl, -⟩ := get_of_fetch hf
      cases hr : requestChangesRefusal k.2 r.ticket with
      | some e => simp only [hr]; exact .refl _
      | none =>
          simp only [hr]
          exact reaches_fetched (c := .requestChanges _ _ _ _) hf (h _ _ _ _ hf) hr rfl rfl

theorem reaches_requestImplementationChanges (tid : TicketId) (body author : String)
    (h : ∀ k r now cid, fetch env svc σ tid = .ok (k, r) →
      cond (.change k r (.requestImplementationChanges now cid body author))) :
    Reaches cond σ.records (requestImplementationChanges env svc tid body author σ).1.records := by
  unfold requestImplementationChanges
  cases hf : fetch env svc σ tid with
  | error e => exact .refl _
  | ok kr =>
      obtain ⟨k, r⟩ := kr
      obtain ⟨rfl, -⟩ := get_of_fetch hf
      cases hr : requestImplementationChangesRefusal k.2 body r.ticket with
      | some e => simp only [hr]; exact .refl _
      | none =>
          simp only [hr]
          exact reaches_fetched (c := .requestImplementationChanges _ _ _ _) hf (h _ _ _ _ hf) hr
            rfl rfl

theorem reaches_redraft (tid : TicketId) (body : String)
    (h : ∀ k r now cost, fetch env svc σ tid = .ok (k, r) → redraftRefusal tid r.ticket = none →
      env.repos.isSome → env.sessionCost σ.ticks tid = some cost →
      cond (.change k r (.redraft now body cost))) :
    Reaches cond σ.records (redraft env svc tid body σ).1.records := by
  unfold redraft
  cases hf : fetch env svc σ tid with
  | error e => exact .refl _
  | ok kr =>
      obtain ⟨k, r⟩ := kr
      obtain ⟨rfl, -⟩ := get_of_fetch hf
      cases hr : redraftRefusal k.2 r.ticket with
      | some e => simp only [hr]; exact .refl _
      | none =>
          simp only [hr]
          split
          · exact .refl _
          · rename_i hrepos
            split
            · exact .refl _
            · rename_i cost hcost
              have hsome : env.repos.isSome := by simpa [Option.isSome_iff_ne_none] using hrepos
              exact reaches_fetched (c := .redraft _ _ _) hf (h _ _ _ _ hf hr hsome hcost) hr rfl rfl

theorem reaches_markDone (hR : Routine cond) (tid : TicketId) (note author : String)
    (h : ∀ k r now cid note, fetch env svc σ tid = .ok (k, r) → markDoneRefusal tid r.ticket = none →
      unmergedRefusal env k r.ticket σ = none → cond (.change k r (.markDone now cid note author))) :
    Reaches cond σ.records (markDone env svc tid note author σ).1.records := by
  have hses : Reaches cond σ.records (markDoneSession env svc tid note author σ).1.records := by
    unfold markDoneSession
    cases hf : fetch env svc σ tid with
    | error e => exact .refl _
    | ok kr =>
        obtain ⟨k, r⟩ := kr
        obtain ⟨rfl, -⟩ := get_of_fetch hf
        cases hr : markDoneRefusal k.2 r.ticket with
        | some e => simp only [hr]; exact .refl _
        | none =>
            simp only [hr]
            split
            · exact .refl _
            · rename_i hm
              exact reaches_fetched (c := .markDone _ _ _ _) hf (h _ _ _ _ _ hf hr hm) hr rfl rfl
  unfold markDone
  split
  · rename_i heq; rw [heq] at hses; exact hses
  · rename_i heq
    rw [heq] at hses
    exact hses.trans (reaches_fireUnblocks hR _ _ _ _)

theorem reaches_closeTracker (hR : Routine cond) (tid : TicketId) (note : String)
    (h : ∀ k r now, fetch env svc σ tid = .ok (k, r) → cond (.change k r (.closeTracker now note))) :
    Reaches cond σ.records (closeTracker env svc tid note σ).1.records := by
  unfold closeTracker
  cases hf : fetch env svc σ tid with
  | error e => exact .refl _
  | ok kr =>
      obtain ⟨k, r⟩ := kr
      obtain ⟨rfl, -⟩ := get_of_fetch hf
      cases hr : closeTrackerRefusal k.2 r.ticket with
      | some e => simp only [hr]; exact .refl _
      | none =>
          simp only [hr]
          obtain ⟨ds, -, hds⟩ := @afterCommit_records env svc
            ((σ.putRecord k (closeTrackerRecord k.2 (σ.now env) note r)).tick)
          rw [hds]
          exact (reaches_put (c := .closeTracker _ _) (h _ _ _ hf) (get_of_fetch hf).2 hr rfl).trans
            (reaches_eraseAll hR ds _)

/-! ### Comments -/

theorem reaches_maybeResume {k : Key}
    (h : ∀ r now dst, σ.records.get k = some r → autoResumeDst r = some dst →
      cond (.change k r (.autoResume now dst))) :
    Reaches cond σ.records (maybeResumeAwaitingUserReply env k σ).records := by
  unfold maybeResumeAwaitingUserReply
  cases hget : σ.records.get k with
  | none => exact .refl _
  | some r =>
      cases hd : autoResumeDst r with
      | none => simp only [hd]; exact .refl _
      | some dst =>
          simp only [hd]
          exact reaches_put (c := .autoResume _ dst) (h _ _ _ hget hd) hget hd rfl

@[simp] theorem map_body_setClosedAt (cid : CommentId) (closedAt : Option DateTime) (cs : List Comment) :
    (setClosedAt cid closedAt cs).map Comment.body = cs.map Comment.body := by
  unfold setClosedAt
  rw [List.map_map]
  apply List.map_congr_left
  intro c _
  show (if c.id = cid then { c with closedAt := closedAt } else c).body = c.body
  split <;> rfl

/-- A thread is closed and a comment added behind. -/
theorem discussed_close (cid : CommentId) (closedAt : Option DateTime) (cs more : List Comment) :
    Discussed cs (setClosedAt cid closedAt cs ++ more) := by
  unfold Discussed
  rw [List.map_append, map_body_setClosedAt]
  exact List.prefix_append _ _

theorem discussed_append (cs more : List Comment) : Discussed cs (cs ++ more) := by
  unfold Discussed
  rw [List.map_append]
  exact List.prefix_append _ _

theorem reaches_putComments (hR : Routine cond) {k : Key} {r : TicketRecord} (cs : List Comment)
    (hcs : Discussed r.comments cs) (hget : σ.records.get k = some r) :
    Reaches cond σ.records (σ.putComments k r cs).records :=
  reaches_put (c := .comments cs) (hR.comments _ _ _ hcs) hget trivial rfl

/-- Closing a thread brings about an auto-resume only if it was the last open question. -/
theorem closesLastQuestion_of_resume {cid : CommentId} {now : DateTime} {cs : List Comment}
    {r : TicketRecord} {dst : State} (hd : autoResumeDst r = some dst)
    (hsub : ∀ c ∈ setClosedAt cid (some now) cs, c ∈ r.comments)
    (hne : ∃ c ∈ cs, isAskUserThread c = true) : closesLastQuestion cid cs = true := by
  obtain ⟨-, hq, -⟩ := autoResumeDst_eq_some.1 hd
  have hall := List.all_eq_true.1 (Bool.and_eq_true_iff.1 hq).2
  obtain ⟨c, hc, hask⟩ := hne
  refine Bool.and_eq_true_iff.2 ⟨?_, ?_⟩
  · have : c ∈ cs.filter isAskUserThread := List.mem_filter.2 ⟨hc, hask⟩
    cases hf : cs.filter isAskUserThread with
    | nil => rw [hf] at this; cases this
    | cons _ _ => rfl
  · rw [List.all_eq_true]
    intro c hc
    obtain ⟨hc, hask⟩ := List.mem_filter.1 hc
    by_cases hid : c.id = cid
    · simp [hid]
    · -- an untouched thread: it is still there, so it is closed
      have hmem : c ∈ r.comments := hsub c (List.mem_map.2 ⟨c, hc, by simp [hid]⟩)
      simpa [hid] using hall c (List.mem_filter.2 ⟨hmem, hask⟩)

/-- An answerable question is an `[ASK_USER]` thread. -/
theorem isAskUserThread_of_answersQuestion {t : Ticket} {parent : Comment}
    (h : answersQuestion t parent = true) : isAskUserThread parent = true := by
  simp only [answersQuestion, Bool.and_eq_true] at h
  obtain ⟨⟨⟨-, hroot⟩, hbody⟩, -⟩ := h
  simp only [isAskUserThread, Bool.and_eq_true]
  exact ⟨hroot, sqlLike_of_isPrefix hbody⟩

/-- The thread an answer goes to is a question of the ticket. -/
theorem mem_of_latestOpenThread {cs : List Comment} {c : Comment} (h : latestOpenThread cs = some c) :
    c ∈ cs ∧ isAskUserThread c = true := by
  have hmem : c ∈ openAskUserThreads cs := mem_of_latestBy h
  obtain ⟨hc, hp⟩ := List.mem_filter.1 hmem
  exact ⟨hc, (Bool.and_eq_true_iff.1 hp).1⟩

/-- `autoResumeDst` needs a thread, and closing threads makes none. -/
theorem exists_ask_of_resume {cid : CommentId} {now : DateTime} {r r' : TicketRecord} {dst : State}
    (hd : autoResumeDst r' = some dst) (hcs : r'.comments = setClosedAt cid (some now) r.comments) :
    ∃ c ∈ r.comments, isAskUserThread c = true := by
  obtain ⟨-, hq, -⟩ := autoResumeDst_eq_some.1 hd
  have hne := (Bool.and_eq_true_iff.1 hq).1
  cases hf : r'.comments.filter isAskUserThread with
  | nil => rw [hf] at hne; cases hne
  | cons c l =>
      have hc : c ∈ r'.comments.filter isAskUserThread := by rw [hf]; exact List.mem_cons_self
      obtain ⟨hc, hask⟩ := List.mem_filter.1 hc
      rw [hcs] at hc
      obtain ⟨c', hc', rfl⟩ := List.mem_map.1 hc
      refine ⟨c', hc', ?_⟩
      by_cases hid : c'.id = cid
      · simpa [isAskUserThread, hid] using hask
      · simpa [hid] using hask

/-- New comments, then the auto-resume they may trigger. -/
theorem reaches_putComments_resume (hR : Routine cond) {k : Key} {r : TicketRecord}
    (cs : List Comment) (hcs : Discussed r.comments cs) (hget : σ.records.get k = some r)
    (h : ∀ now dst, autoResumeDst { r with comments := cs } = some dst →
      cond (.change k { r with comments := cs } (.autoResume now dst))) :
    Reaches cond σ.records
      (maybeResumeAwaitingUserReply env k (σ.putComments k r cs)).records := by
  refine (reaches_putComments hR cs hcs hget).trans (reaches_maybeResume ?_)
  intro r' now dst hget' hd
  have hr' : r' = { r with comments := cs } := by
    have : (σ.putComments k r cs).records.get k = some { r with comments := cs } :=
      Table.get_put_self _ _ _
    rw [this] at hget'
    exact (Option.some.inj hget').symm
  subst hr'
  exact h _ _ hd

theorem reaches_addComment (hR : Routine cond) (tid : TicketId) (body author : String)
    (pid : Option CommentId)
    (h : ResumeAdmitted cond env σ (.addComment svc tid body author pid)) :
    Reaches cond σ.records (addComment env svc tid body author pid σ).1.records := by
  unfold addComment
  cases hf : fetch env svc σ tid with
  | error e => exact .refl _
  | ok kr =>
      obtain ⟨k, r⟩ := kr
      have hget := (get_of_fetch hf).2
      dsimp only
      cases pid with
      | none => exact reaches_putComments hR _ (discussed_append _ _) hget
      | some pid =>
          dsimp only
          split
          · split <;> exact .refl _
          · rename_i parent hfind
            split
            · rename_i hans
              refine reaches_putComments_resume hR _ (discussed_close _ _ _ _) hget ?_
              intro now dst hd
              have hlast := closesLastQuestion_of_resume hd
                (fun c hc => List.mem_append_left _ hc)
                ⟨parent, List.mem_of_find?_eq_some hfind, isAskUserThread_of_answersQuestion hans⟩
              obtain ⟨-, -, ht⟩ := autoResumeDst_eq_some.1 hd
              have ht' : resumeTarget r.ticket r.events = some dst := ht
              exact h k _ now dst (by simp [autoResumeOf, hf, hfind, hans, hlast, ht']) hd
            · exact reaches_putComments hR _ (discussed_append _ _) hget

theorem commentOwner_get {board : BoardId} {cid : CommentId} {k : Key} {r : TicketRecord}
    (h : commentOwner σ board cid = some (k, r)) : σ.records.get k = some r :=
  Table.mem_rows.1 (List.mem_of_find?_eq_some h)

theorem reaches_closeThread (hR : Routine cond) (cid : CommentId) (tid : Option TicketId)
    (h : ResumeAdmitted cond env σ (.closeThread svc cid tid)) :
    Reaches cond σ.records (closeThread env svc cid tid σ).1.records := by
  unfold closeThread
  cases hb : boardForComment env svc cid tid σ with
  | error e => exact .refl _
  | ok board =>
      dsimp only
      cases ho : commentOwner σ board cid with
      | none => exact .refl _
      | some kr =>
          obtain ⟨k, r⟩ := kr
          dsimp only
          split
          · exact .refl _
          · rename_i comment hfind
            split
            · exact .refl _
            · rename_i hroot
              split
              · exact .refl _
              · rename_i hclosed
                have hcs : Discussed r.comments (setClosedAt cid (some (σ.now env 0)) r.comments) :=
                  discussed_of_map_body_eq (map_body_setClosedAt _ _ _)
                refine reaches_putComments_resume hR _ hcs (commentOwner_get ho) ?_
                intro now dst hd
                have hlast := closesLastQuestion_of_resume hd (fun c hc => hc)
                  (exists_ask_of_resume hd rfl)
                obtain ⟨hs, -, ht⟩ := autoResumeDst_eq_some.1 hd
                have hs' : r.ticket.state = .awaitingUserReply := hs
                have ht' : resumeTarget r.ticket r.events = some dst := ht
                refine h k _ now dst ?_ hd
                have hroot' : comment.parentId = none := by simpa using hroot
                have hclosed' : comment.closedAt = none := by simpa using hclosed
                simp [autoResumeOf, hb, ho, hfind, hroot', hclosed', hs', hlast, ht']

/-! ### Answering -/

/-- The move out of `blocked` that an answer makes. -/
theorem answer_unblock {tid : TicketId} {k : Key} {r : TicketRecord} (note : String)
    (hf : fetch env svc σ tid = .ok (k, r)) (hb : r.ticket.state = .blocked)
    (hbf : r.ticket.blockedFrom = some .awaitingUserReply) :
    transition env svc tid .awaitingUserReply (some note) none σ =
      (commitTransition env k r .awaitingUserReply (some note) none σ, .ok ()) := by
  refine transition_eq_commit hf ?_ ?_ (by decide) (by decide)
  · simp [transitionNoop, TERMINAL_EPIC_STATES]
  · simp [transitionRefusal, hb, hbf, canTransition, TERMINAL_STATES]

theorem reaches_answer_unblock (hR : Routine cond) {tid : TicketId} {k : Key} {r : TicketRecord}
    (note : String) (hf : fetch env svc σ tid = .ok (k, r)) (hb : r.ticket.state = .blocked)
    (hbf : r.ticket.blockedFrom = some .awaitingUserReply) :
    Reaches cond σ.records
      (commitTransition env k r .awaitingUserReply (some note) none σ).records := by
  rw [records_commitTransition]
  exact reaches_put (c := .answerUnblock (σ.now env) note) (hR.answerUnblock _ _ _ _)
    (get_of_fetch hf).2 ⟨hb, hbf⟩ rfl

/-- The move of an answered ticket to `ready`. -/
theorem reaches_answer_ready (hR : Routine cond) {tid : TicketId} {k : Key} {r : TicketRecord}
    {body : String} (hready : ReadyAdmitted cond k body) (hf : fetch env svc σ tid = .ok (k, r))
    (ha : r.ticket.state = .awaitingUserReply) :
    Reaches cond σ.records (transition env svc tid .ready (some body) none σ).1.records := by
  refine reaches_transition hR ?_
  intro k' r' hf' hn hr
  rw [hf] at hf'
  cases hf'
  obtain ⟨rfl, -⟩ := get_of_fetch hf
  exact ⟨.transition (σ.now env) .ready (some body) none, hready _ _ ha, ⟨hn, hr⟩, rfl⟩

/-- After the question is closed: what an answer does to a paused ticket. -/
theorem reaches_afterAnswer_paused (hR : Routine cond) {k : Key} {r : TicketRecord} {body : String}
    {change : Bool} (hf : fetch env svc σ k.2 = .ok (k, r))
    (hs : change = true → r.ticket.state = .awaitingUserReply)
    (hready : change = true → ReadyAdmitted cond k body)
    (h : change = false → ∀ now dst, autoResumeDst r = some dst →
      cond (.change k r (.autoResume now dst))) :
    Reaches cond σ.records (afterAnswer env svc k false body change σ).1.records := by
  unfold afterAnswer
  dsimp only
  cases change with
  | true => exact reaches_answer_ready hR (hready rfl) hf (hs rfl)
  | false =>
      refine reaches_maybeResume ?_
      intro r' now dst hget hd
      rw [(get_of_fetch hf).2] at hget
      cases hget
      exact h rfl now dst hd

/-- The same for a ticket that was blocked while paused. -/
theorem reaches_afterAnswer_blocked (hR : Routine cond) {k : Key} {r : TicketRecord} {body : String}
    {change : Bool} (hf : fetch env svc σ k.2 = .ok (k, r)) (hb : r.ticket.state = .blocked)
    (hbf : r.ticket.blockedFrom = some .awaitingUserReply)
    (hready : change = true → ReadyAdmitted cond k body)
    (h : change = false → ∀ now e r' now' dst, e.state = .awaitingUserReply →
      r'.ticket = transitionTicket now .awaitingUserReply none r.ticket →
      r'.events = r.events ++ [e] → (∀ c ∈ r.comments, c ∈ r'.comments) →
      autoResumeDst r' = some dst → cond (.change k r' (.autoResume now' dst))) :
    Reaches cond σ.records (afterAnswer env svc k true body change σ).1.records := by
  have hf₁ := @fetch_commitTransition env svc k.2 .awaitingUserReply
    (some "operator answered — resuming from ask_user timeout block") none σ k r hf
  have hstep := reaches_answer_unblock hR
    "operator answered — resuming from ask_user timeout block" hf hb hbf
  have hget₁ := (get_of_fetch hf₁).2
  have hcs : (transitionRecord k.2 (σ.now env) .awaitingUserReply
      (some "operator answered — resuming from ask_user timeout block") none r).comments
        = r.comments := by
    simp [transitionRecord, closesThreads, forceClosesThreads]
  unfold afterAnswer
  simp only [if_true, answer_unblock _ hf hb hbf]
  generalize hσ₁ : commitTransition env k r .awaitingUserReply
    (some "operator answered — resuming from ask_user timeout block") none σ = σ₁ at *
  generalize hr₁ : transitionRecord k.2 (σ.now env) .awaitingUserReply
    (some "operator answered — resuming from ask_user timeout block") none r = r₁ at *
  simp only [addComment, hf₁]
  have hput := fun more => @reaches_putComments cond σ₁ hR k r₁ (r₁.comments ++ more) (discussed_append _ more)
    hget₁
  cases change with
  | true =>
      simp only [if_true]
      refine (hstep.trans (hput _)).trans
        (reaches_answer_ready hR (hready rfl) (fetch_putComments hf₁) ?_)
      subst hr₁; rfl
  | false =>
      simp only [Bool.false_eq_true, if_false]
      refine hstep.trans (reaches_putComments_resume hR _ (discussed_append _ _) hget₁ ?_)
      intro now dst hd
      subst hr₁
      refine h rfl _ _ _ now dst ?_ rfl rfl ?_ hd
      · rfl
      · intro c hc
        rw [← hcs] at hc
        exact List.mem_append_left _ hc

theorem reaches_answerPendingQuestion (hR : Routine cond) (tid : TicketId) (body author : String)
    (change : Bool)
    (hready : change = true → ∀ k r, fetch env svc σ tid = .ok (k, r) → ReadyAdmitted cond k body)
    (h : ResumeAdmitted cond env σ (.answerPendingQuestion svc tid body author change)) :
    Reaches cond σ.records (answerPendingQuestion env svc tid body author change σ).1.records := by
  unfold answerPendingQuestion
  cases hf : fetch env svc σ tid with
  | error e => exact .refl _
  | ok kr =>
      obtain ⟨k, r⟩ := kr
      obtain ⟨rfl, hget⟩ := get_of_fetch hf
      dsimp only
      cases ha : answerable r.ticket with
      | false => exact .refl _
      | true =>
          simp only [Bool.not_true, Bool.false_eq_true, if_false]
          split
          · exact .refl _
          · rename_i thread hthread
            have hready' := fun hc => hready hc k r hf
            have hask : ∃ c ∈ r.comments, isAskUserThread c = true :=
              ⟨thread, (mem_of_latestOpenThread hthread).1, (mem_of_latestOpenThread hthread).2⟩
            generalize hreply : (⟨nextCommentId σ k.1, body, author, some thread.id, none, σ.now env 0⟩ :
              Comment) = reply
            -- the threads the ticket had are still there, the answered one closed
            have hsub : ∀ c ∈ setClosedAt thread.id (some (σ.now env 1)) r.comments,
                c ∈ setClosedAt thread.id (some (σ.now env 1)) (r.comments ++ [reply]) := by
              intro c hc
              unfold setClosedAt at hc ⊢
              rw [List.map_append]
              exact List.mem_append_left _ hc
            have hcs : Discussed r.comments
                (setClosedAt thread.id (some (σ.now env 1)) (r.comments ++ [reply])) := by
              rw [Discussed, map_body_setClosedAt]
              exact discussed_append _ _
            generalize setClosedAt thread.id (some (σ.now env 1)) (r.comments ++ [reply]) = cs at *
            refine (reaches_putComments hR cs hcs hget).trans ?_
            have hf' : fetch env svc (σ.putComments k r cs) k.2 = .ok (k, { r with comments := cs }) :=
              fetch_putComments hf
            by_cases hb : r.ticket.state = .blocked
            · have hbf : r.ticket.blockedFrom = some .awaitingUserReply := by
                simpa [answerable, hb] using ha
              simp only [hb, decide_true]
              refine reaches_afterAnswer_blocked hR hf' hb hbf hready' ?_
              intro hc now e r' now' dst he ht hev hcs hd
              have hlast := closesLastQuestion_of_resume hd (fun c hc => hcs c (hsub c hc)) hask
              obtain ⟨-, -, htgt⟩ := autoResumeDst_eq_some.1 hd
              have hdst : r.ticket.pausedFrom.getD .blocked = dst := by
                rw [ht] at htgt
                have hp : (transitionTicket now .awaitingUserReply none r.ticket).pausedFrom
                    = some (r.ticket.pausedFrom.getD .blocked) := by
                  cases hp : r.ticket.pausedFrom <;> simp [transitionTicket, hp, hb]
                exact Option.some.inj ((by simpa [resumeTarget, hp] using htgt))
              subst hc
              exact h k r' now' dst (by simp [autoResumeOf, hf, hthread, ha, hlast, hb, hdst]) hd
            · have hs : r.ticket.state = .awaitingUserReply := by
                simpa [answerable, hb] using ha
              simp only [hb, decide_false]
              refine reaches_afterAnswer_paused hR hf' (fun _ => hs) hready' ?_
              intro hc now dst hd
              have hlast := closesLastQuestion_of_resume hd hsub hask
              obtain ⟨-, -, ht⟩ := autoResumeDst_eq_some.1 hd
              have ht' : resumeTarget r.ticket r.events = some dst := ht
              subst hc
              exact h k _ now dst (by simp [autoResumeOf, hf, hthread, ha, hlast, hs, ht']) hd

/-! ### Migration -/

/-- Copied comments say what they said. -/
theorem map_body_copyComments (nextId : CommentId) (idMap : List (CommentId × CommentId))
    (cs : List Comment) : (copyComments nextId idMap cs).1.map Comment.body = cs.map Comment.body := by
  induction cs generalizing nextId idMap with
  | nil => rfl
  | cons c cs ih =>
      show c.body :: (copyComments (nextId + 1) ((c.id, nextId) :: idMap) cs).1.map Comment.body = _
      rw [ih, List.map_cons]

theorem reaches_insertCopies {now : Nat → DateTime} {src dst : BoardId} {root : TicketId}
    {note : Option String} (hne : dst ≠ src) (ts : List TicketId) (nextId : CommentId)
    (idMap : List (CommentId × CommentId)) (T T' : Table Key TicketRecord)
    (h : ∀ t ∈ ts, ∀ r, T.get (src, t) = some r → ∀ dst now note cs,
      cs.map Comment.body = r.comments.map Comment.body →
      cond (.copy (src, t) (dst, t) r (.migrate now note cs)))
    (hT' : insertCopies now src dst root note ts nextId idMap T = some T') :
    Reaches cond T T' := by
  induction ts generalizing nextId idMap T with
  | nil => cases hT'; exact .refl _
  | cons t ts ih =>
      unfold insertCopies at hT'
      cases hs : T.get (src, t) with
      | none => simp [hs] at hT'
      | some r =>
          cases hd : T.get (dst, t) with
          | some r' => simp [hs, hd] at hT'
          | none =>
              simp only [hs, hd] at hT'
              refine Reaches.trans (.step (h t (by simp) r hs dst now _ _ (map_body_copyComments _ _ _))
                (.copy hs hd rfl ⟨_, _, _, rfl⟩)) (ih _ _ _ ?_ hT')
              intro t' ht' r' hget
              rw [Table.get_put_ne] at hget
              · exact h t' (List.mem_cons_of_mem _ ht') r' hget
              · intro heq; exact hne (Prod.mk.inj heq).1.symm

theorem deleteSources_eq (src : BoardId) (ts : List TicketId) (T : Table Key TicketRecord) :
    deleteSources src ts T = (ts.reverse.map fun t => (src, t)).foldl Table.erase T := by
  rw [deleteSources, List.foldl_map]

/-- Copies are inserted under keys that are free. -/
theorem target_free_of_insertCopies {now : Nat → DateTime} {src dst : BoardId} {root : TicketId}
    {note : Option String} (ts : List TicketId) (nextId : CommentId)
    (idMap : List (CommentId × CommentId)) (T T' : Table Key TicketRecord)
    (hT' : insertCopies now src dst root note ts nextId idMap T = some T') :
    ∀ t ∈ ts, T.get (dst, t) = none := by
  induction ts generalizing nextId idMap T with
  | nil => intro t ht; cases ht
  | cons t ts ih =>
      unfold insertCopies at hT'
      cases hs : T.get (src, t) with
      | none => simp [hs] at hT'
      | some r =>
          cases hd : T.get (dst, t) with
          | some r' => simp [hs, hd] at hT'
          | none =>
              simp only [hs, hd] at hT'
              intro t' ht'
              rcases List.mem_cons.1 ht' with rfl | ht'
              · exact hd
              · have hnone := ih _ _ _ hT' t' ht'
                by_cases heq : t' = t
                · subst heq; exact hd
                · rwa [Table.get_put_ne] at hnone
                  intro hk; exact heq (Prod.mk.inj hk).2

/-- One move leaves the other directories of the target board alone. -/
theorem moveWorkspace_target {src dst : BoardId} {t t' : TicketId} {ws : Key → Option Workspace}
    (hne : dst ≠ src) (ht : t' ≠ t) :
    (moveWorkspace (src, t) (dst, t) ws).1 (dst, t') = ws (dst, t') := by
  unfold moveWorkspace
  cases ws (src, t) with
  | none => simp [ht]
  | some dir => simp [ht, hne]

/-- Directories are moved to places that are free. -/
theorem target_free_of_moveWorkspaces {src dst : BoardId} (hne : dst ≠ src) (ts : List TicketId)
    (moves moves' : List WsMove) (ws ws' : Key → Option Workspace)
    (h : moveWorkspaces src dst ts moves ws = (ws', .ok moves')) :
    ∀ t ∈ ts, ws (dst, t) = none := by
  induction ts generalizing moves ws with
  | nil => intro t ht; cases ht
  | cons t ts ih =>
      unfold moveWorkspaces at h
      by_cases hsome : (ws (dst, t)).isSome
      · rw [if_pos hsome] at h; cases h
      · rw [if_neg hsome] at h
        have hnone : ws (dst, t) = none := by simpa using hsome
        intro t' ht'
        rcases List.mem_cons.1 ht' with rfl | ht'
        · exact hnone
        · by_cases heq : t' = t
          · subst heq; exact hnone
          · have hmoved : (moveWorkspace (src, t) (dst, t) ws).1 (dst, t') = none := ih _ _ h t' ht'
            rwa [moveWorkspace_target hne heq] at hmoved

theorem reaches_commitMigration (hR : Routine cond) {src dst : BoardId} {root : TicketId}
    {ts : List TicketId} {note : Option String} {moves : List WsMove} (hne : dst ≠ src)
    (h : env.dbFails σ.ticks = false → (∀ t ∈ ts, σ.records.get (dst, t) = none) →
      ∀ t ∈ ts, ∀ r, σ.records.get (src, t) = some r → ∀ dst now note cs,
      cs.map Comment.body = r.comments.map Comment.body →
      cond (.copy (src, t) (dst, t) r (.migrate now note cs))) :
    Reaches cond σ.records (commitMigration env src dst root ts note moves σ).1.records := by
  unfold commitMigration
  dsimp only
  split
  · exact .refl _
  · rename_i T hT
    have hins : Reaches cond σ.records T := by
      split at hT
      · cases hT
      · rename_i hdb
        exact reaches_insertCopies hne ts _ _ _ _
          (h (by simpa using hdb) (target_free_of_insertCopies ts _ _ _ _ hT)) hT
    split
    · exact hins
    · refine hins.trans ?_
      show Reaches cond T (deleteSources src ts T)
      rw [deleteSources_eq]
      exact reaches_eraseAll hR _ _

theorem reaches_migrate (hR : Routine cond) (tid : TicketId) (target : String)
    (note : Option String)
    (h : ∀ src ts, migrationSource env svc tid target σ = some (src, ts) →
      ∀ t ∈ ts, ∀ r, σ.records.get (src, t) = some r → ∀ dst now note cs,
      cs.map Comment.body = r.comments.map Comment.body →
      cond (.copy (src, t) (dst, t) r (.migrate now note cs))) :
    Reaches cond σ.records (migrate env svc tid target note σ).1.records := by
  unfold migrate
  split
  · exact .refl _
  · rename_i htarget
    split
    · exact .refl _
    · rename_i dst hdst
      cases hb : boardFor env svc σ tid with
      | error e => exact .refl _
      | ok src =>
          dsimp only
          split
          · exact .refl _
          · rename_i hne
            cases hget : σ.records.get (src, tid) with
            | none => exact .refl _
            | some r =>
                have hf : fetch env svc σ tid = .ok ((src, tid), r) := by
                  simp [fetch, hb, hget]
                dsimp only
                split
                · exact .refl _
                · rename_i hdst0
                  split
                  · rename_i hkind
                    unfold migrateEpicSubtree
                    split
                    · exact .refl _
                    · rename_i ts hts
                      dsimp only
                      split
                      · exact .refl _
                      · rename_i hblock
                        split
                        · exact .refl _
                        · rename_i ws moves hmoves
                          refine @reaches_commitMigration env cond { σ with workspaces := ws } hR src dst
                            tid ts note moves hne ?_
                          intro hdb hrows
                          have hws := target_free_of_moveWorkspaces hne ts _ _ _ _ hmoves
                          refine h src ts ?_
                          have hclear : ∀ t ∈ ts, σ.workspaces (dst, t) = none ∧
                              σ.records.get (dst, t) = none := fun t ht => ⟨hws t ht, hrows t ht⟩
                          have hdb' : env.dbFails σ.ticks = false := hdb
                          simpa [migrationSource, hdst, hf, htarget, hdst0, hne, hdb', hkind, hts,
                            not_not.1 hblock] using hclear
                  · rename_i hkind
                    unfold migrateSingle
                    split
                    · exact .refl _
                    · rename_i hchild
                      split
                      · exact .refl _
                      · rename_i hstate
                        split
                        · exact .refl _
                        · rename_i ws moves hmoves
                          refine @reaches_commitMigration env cond { σ with workspaces := ws } hR src dst
                            tid [tid] note moves hne ?_
                          intro hdb hrows
                          have hws := target_free_of_moveWorkspaces hne [tid] _ _ _ _ hmoves
                          refine h src [tid] ?_
                          have hdb' : env.dbFails σ.ticks = false := hdb
                          have hrow : σ.records.get (dst, tid) = none := hrows tid List.mem_cons_self
                          simp [migrationSource, hdst, hf, htarget, hdst0, hne, hdb', hkind,
                            not_not.1 hchild, not_not.1 hstate, hws tid List.mem_cons_self, hrow]

end Ops

/-! ## The refinement -/

variable {env : Env} {cond : Commit → Prop}

/-- **Every operation is a run of commits**: of the ones it makes in its own name, which `Admits`
    speaks of, and of routine ones. -/
theorem reaches_op (hR : Routine cond) {σ : Mill} {op : Op} (h : Admits cond env σ op) :
    Reaches cond σ.records (op.run env σ).1.records := by
  cases op with
  | create svc args => exact reaches_create args h
  | transition svc tid dst note reason =>
      refine reaches_transition hR ?_
      intro k r hf hn hr
      obtain ⟨rfl, -⟩ := get_of_fetch hf
      exact ⟨.transition (σ.now env) dst note reason, h k r _ hf hn hr, ⟨hn, hr⟩, rfl⟩
  | resumeBlocked svc tid note => exact reaches_resumeBlocked tid note h
  | requestChanges svc tid body author => exact reaches_requestChanges tid body author h
  | requestImplementationChanges svc tid body author =>
      exact reaches_requestImplementationChanges tid body author h
  | redraft svc tid body => exact reaches_redraft tid body h
  | markDone svc tid note author => exact reaches_markDone hR tid note author h
  | closeTracker svc tid note => exact reaches_closeTracker hR tid note h
  | migrate svc tid target note => exact reaches_migrate hR tid target note h
  | addComment svc tid body author pid => exact reaches_addComment hR tid body author pid h
  | closeThread svc cid tid => exact reaches_closeThread hR cid tid h
  | answerPendingQuestion svc tid body author change =>
      exact reaches_answerPendingQuestion hR tid body author change h.1 h.2
  | addHistoryNote svc tid note =>
      show Reaches cond σ.records (addHistoryNote env svc tid note σ).1.records
      unfold addHistoryNote
      cases hf : fetch env svc σ tid with
      | error e => exact .refl _
      | ok kr =>
          obtain ⟨k, r⟩ := kr
          obtain ⟨rfl, -⟩ := get_of_fetch hf
          exact reaches_fetched (c := .historyNote _ note) hf (h _ _ _ hf) trivial rfl rfl
  | addStepEvent svc tid note =>
      show Reaches cond σ.records (addStepEvent env svc tid note σ).1.records
      unfold addStepEvent
      cases hf : fetch env svc σ tid with
      | error e => exact .refl _
      | ok kr =>
          obtain ⟨k, r⟩ := kr
          obtain ⟨rfl, -⟩ := get_of_fetch hf
          exact reaches_fetched (c := .stepEvent _ note) hf (h _ _ _ hf) trivial rfl rfl
  | purgeTicketEvents svc tid =>
      show Reaches cond σ.records (maybePurgeTicketEvents env svc tid σ).1.records
      unfold maybePurgeTicketEvents
      split
      · exact .refl _
      · split
        · exact .refl _
        · rename_i hsvc
          split
          · exact .refl _
          · rename_i r hget
            exact reaches_put (c := .purgeEvents _) (h r hsvc hget) hget trivial rfl

/-- One admitted operation keeps a stable property of the records. -/
theorem records_invariant_op {P : Key → TicketRecord → Prop} (hR : Routine cond) (hP : Stable cond P)
    {σ σ' : Mill} {op : Op} (h : Admits cond env σ op) (hI : σ.records.AllRows P)
    (hstep : OpStep env σ op σ') : σ'.records.AllRows P := by
  obtain ⟨cs, hcs⟩ := reaches_op hR h
  rw [← hstep]
  exact allRows_of_run hP hcs hI

/-- **The record invariant rule for operations.** A property of records that is stable under the
    permitted commits holds of every record in every store that a run of admitted operations reaches
    from the empty one. -/
theorem records_invariant {P : Key → TicketRecord → Prop} {ok : Mill → Op → Prop}
    (hR : Routine cond) (hP : Stable cond P) (hok : ∀ σ op, ok σ op → Admits cond env σ op)
    {ops : List Op} {σ : Mill} (hrun : OpRun env ok Mill.empty ops σ) : σ.records.AllRows P := by
  refine hrun.invariant (I := fun σ => σ.records.AllRows P) ?_ Table.AllRows.empty
  rintro σ op σ' hI ⟨hop, hstep⟩
  exact records_invariant_op hR hP (hok σ op hop) hI hstep

end Service
end RobotsixMill
