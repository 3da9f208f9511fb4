import RobotsixMill.Service.Session
import RobotsixMill.Lib.Runs

/-!
# `Service.Lifecycle` — the abstract life of a ticket

What the service does to its database, with everything but the rows abstracted away: a table of ticket
records changed by one `Commit` at a time. A commit changes one record by one session (`Change`),
creates a record, copies one to another board, or deletes one. `CommitStep` says which commits are
possible; the operations of the service are runs of it (`Service.Ops`), so a property of records that
every permitted `Change` keeps holds of every record in every reachable store
(`allRows_of_run`).
-/

namespace RobotsixMill
namespace Service
open RobotsixMill.Core Lib

/-- One session on one ticket, with the data it brings along. -/
inductive Change
  | transition (now : Nat → DateTime) (dst : State) (note blockReason : Option String)
  /-- The move `_fire_unblocks` makes. -/
  | unblock (now : Nat → DateTime) (note : String)
  /-- The move `answer_pending_question` makes on a ticket blocked while paused. -/
  | answerUnblock (now : Nat → DateTime) (note : String)
  | resumeBlocked (s : Settings) (now : Nat → DateTime) (cid : CommentId) (note eventNote : String)
  | requestChanges (now : Nat → DateTime) (cid : CommentId) (body author : String)
  | requestImplementationChanges (now : Nat → DateTime) (cid : CommentId) (body author : String)
  | redraft (now : Nat → DateTime) (body : String) (cost : ℚ)
  | markDone (now : Nat → DateTime) (cid : CommentId) (note author : String)
  | closeTracker (now : Nat → DateTime) (note : String)
  | autoResume (now : Nat → DateTime) (dst : State)
  | historyNote (now : Nat → DateTime) (note : String)
  | stepEvent (now : Nat → DateTime) (note : String)
  | purgeEvents (cap : Nat)
  /-- Comments are added, closed, reopened or purged; the row and the history stay. -/
  | comments (cs : List Comment)
  /-- The copy `migrate` writes. -/
  | migrate (now : Nat → DateTime) (note : String) (cs : List Comment)

namespace Change

/-- The guard of the session. -/
def Allowed (tid : TicketId) (r : TicketRecord) : Change → Prop
  | transition _ dst _ _ =>
    transitionNoop r.ticket dst = false ∧ transitionRefusal tid dst r = none
  | unblock _ _ => r.ticket.state = .blocked ∧ transitionRefusal tid (unblockDst r.ticket) r = none
  | answerUnblock _ _ => r.ticket.state = .blocked ∧ r.ticket.blockedFrom = some .awaitingUserReply
  | resumeBlocked _ _ _ _ _ => resumeRefusal tid r.ticket = none
  | requestChanges _ _ _ _ => requestChangesRefusal tid r.ticket = none
  | requestImplementationChanges _ _ body _ =>
    requestImplementationChangesRefusal tid body r.ticket = none
  | redraft _ _ _ => redraftRefusal tid r.ticket = none
  | markDone _ _ _ _ => markDoneRefusal tid r.ticket = none
  | closeTracker _ _ => closeTrackerRefusal tid r.ticket = none
  | autoResume _ dst => autoResumeDst r = some dst
  | historyNote _ _ | stepEvent _ _ | purgeEvents _ | comments _ | migrate _ _ _ => True

/-- The record the session commits. -/
def apply (tid : TicketId) (r : TicketRecord) : Change → TicketRecord
  | transition now dst note reason => transitionRecord tid now dst note reason r
  | unblock now note => transitionRecord tid now (unblockDst r.ticket) (some note) none r
  | answerUnblock now note => transitionRecord tid now .awaitingUserReply (some note) none r
  | resumeBlocked s now cid note eventNote => resumeRecord s tid now cid note eventNote r
  | requestChanges now cid body author => requestChangesRecord tid now cid body author r
  | requestImplementationChanges now cid body author =>
    requestImplementationChangesRecord tid now cid body author r
  | redraft now body cost => redraftRecord tid now body cost r
  | markDone now cid note author => markDoneRecord tid now cid note author r
  | closeTracker now note => closeTrackerRecord tid now note r
  | autoResume now dst => autoResumeRecord tid now dst r
  | historyNote now note => historyNoteRecord tid now note r
  | stepEvent now note => stepEventRecord tid now note r
  | purgeEvents cap => purgeEventsRecord cap r
  | comments cs => { r with comments := cs }
  | migrate now note cs => migrateRecord tid now note cs r

end Change

/-! ## What the guards let through -/

section Guards

variable {tid : TicketId} {r : TicketRecord}

theorem canTransition_of_refusal_none {dst : State} (h : transitionRefusal tid dst r = none) :
    canTransition r.ticket.state dst r.ticket.blockedFrom r.ticket.pausedFrom = true := by
  unfold transitionRefusal at h
  dsimp only at h
  by_contra hc
  rw [if_pos (by simpa using hc)] at h
  cases h

/-- What the guard of `resume_blocked` lets through. -/
theorem resume_allowed (h : resumeRefusal tid r.ticket = none) :
    r.ticket.state = .blocked ∧ ∃ dst, r.ticket.blockedFrom = some dst := by
  unfold resumeRefusal at h
  by_cases hb : r.ticket.state = .blocked
  · refine ⟨hb, ?_⟩
    rw [if_neg (by simpa using hb)] at h
    cases hbf : r.ticket.blockedFrom with
    | none => rw [hbf] at h; cases h
    | some dst => exact ⟨dst, rfl⟩
  · rw [if_pos hb] at h; cases h

end Guards

/-- A record as `create` writes it: nothing but its first event has happened to it. -/
structure Fresh (tid : TicketId) (r : TicketRecord) : Prop where
  comments : r.comments = []
  blockedFrom : r.ticket.blockedFrom = none
  blockReason : r.ticket.blockReason = none
  pausedFrom : r.ticket.pausedFrom = none
  events : ∃ now, r.events = appendEvent tid [] r.ticket.state (some "created") now

/-- One change of the store, with the record it starts from. -/
inductive Commit
  | change (k : Key) (r : TicketRecord) (c : Change)
  | create (k : Key) (r : TicketRecord)
  | copy (src dst : Key) (r : TicketRecord) (c : Change)
  | delete (k : Key)

/-- The possible changes of the store. -/
inductive CommitStep : Table Key TicketRecord → Commit → Table Key TicketRecord → Prop
  | change {T : Table Key TicketRecord} {k : Key} {r : TicketRecord} {c : Change}
      (hget : T.get k = some r) (hc : c.Allowed k.2 r) :
      CommitStep T (.change k r c) (T.put k (c.apply k.2 r))
  | create {T : Table Key TicketRecord} {k : Key} {r : TicketRecord}
      (hget : T.get k = none) (hr : Fresh k.2 r) :
      CommitStep T (.create k r) (T.put k r)
  | copy {T : Table Key TicketRecord} {src dst : Key} {r : TicketRecord} {c : Change}
      (hget : T.get src = some r) (hdst : T.get dst = none) (hid : dst.2 = src.2)
      (hc : ∃ now note cs, c = .migrate now note cs) :
      CommitStep T (.copy src dst r c) (T.put dst (c.apply dst.2 r))
  | delete {T : Table Key TicketRecord} {k : Key} : CommitStep T (.delete k) (T.erase k)

/-- A run of commits that all meet `cond`. -/
abbrev CommitRun (cond : Commit → Prop) (T : Table Key TicketRecord) (cs : List Commit)
    (T' : Table Key TicketRecord) : Prop :=
  Run (Guarded (fun _ c => cond c) CommitStep) T cs T'

/-! ## The record invariant rule -/

variable {cond : Commit → Prop} {P : Key → TicketRecord → Prop}

/-- What a property of records needs in order to survive every commit that meets `cond`. -/
structure Stable (cond : Commit → Prop) (P : Key → TicketRecord → Prop) : Prop where
  create : ∀ k r, cond (.create k r) → Fresh k.2 r → P k r
  change : ∀ k r c, cond (.change k r c) → c.Allowed k.2 r → P k r → P k (c.apply k.2 r)
  copy : ∀ src dst r now note cs, cond (.copy src dst r (.migrate now note cs)) → dst.2 = src.2 →
    P src r → P dst (migrateRecord dst.2 now note cs r)

theorem allRows_of_commitStep (h : Stable cond P) {T T' : Table Key TicketRecord} {c : Commit}
    (hT : T.AllRows P) (hs : Guarded (fun _ c => cond c) CommitStep T c T') : T'.AllRows P := by
  obtain ⟨hcond, hstep⟩ := hs
  cases hstep with
  | change hget hc => exact hT.put (h.change _ _ _ hcond hc (hT _ _ hget))
  | create hget hr => exact hT.put (h.create _ _ hcond hr)
  | copy hget hdst hid hc =>
      obtain ⟨now, note, cs, rfl⟩ := hc
      exact hT.put (h.copy _ _ _ _ _ _ hcond hid (hT _ _ hget))
  | delete => exact hT.erase

/-- **The record invariant rule.** A property stable under the permitted commits holds of every record
    at the end of every run of them. -/
theorem allRows_of_run (h : Stable cond P) {T T' : Table Key TicketRecord} {cs : List Commit}
    (hrun : CommitRun cond T cs T') (hT : T.AllRows P) : T'.AllRows P :=
  hrun.invariant (fun _ _ _ hI hs => allRows_of_commitStep h hI hs) hT

theorem CommitRun.single {T T' : Table Key TicketRecord} {c : Commit} (hc : cond c)
    (hs : CommitStep T c T') : CommitRun cond T [c] T' :=
  Run.single ⟨hc, hs⟩

end Service
end RobotsixMill
