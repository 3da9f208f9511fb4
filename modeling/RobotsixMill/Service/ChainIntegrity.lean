import RobotsixMill.Service.Refinement

/-!
# `Service.ChainIntegrity` — the hash chain of a history through every operation

Every session that moves a ticket appends one event through `makeEvent`, which extends an intact chain;
`redraft` restarts the chain and `migrate` copies it before it appends. Only the retention purge breaks
it: the first event it keeps is relinked (`prev_hash = None`) while its hash still covers the old link.
-/

namespace RobotsixMill
namespace Service
open RobotsixMill.Core Lib

/-- The commits that keep chains intact: all but a purge that cuts a history. -/
def chainKept : Commit → Prop
  | .change _ r (.purgeEvents cap) => cap = 0 ∨ r.events.length ≤ cap
  | _ => True

theorem routine_chainKept : Routine chainKept where
  delete _ := trivial
  unblock _ _ _ _ := trivial
  answerUnblock _ _ _ _ := trivial
  comments _ _ _ _ := trivial

theorem appendEvent_chainOk {tid : TicketId} {events : List TicketEvent} (h : ChainOk tid events)
    (s : State) (note : Option String) (now : DateTime) :
    ChainOk tid (appendEvent tid events s note now) :=
  makeEvent_chainOk h s note now

/-- **Every permitted commit keeps the chain intact.** -/
theorem stable_chainOk : Stable chainKept fun k r => ChainOk k.2 r.events where
  create k r _ hf := by
    obtain ⟨now, he⟩ := hf.events
    rw [he]
    exact appendEvent_chainOk (chainOk_nil _) _ _ _
  copy src dst r now note cs _ hid h := by
    rw [← hid] at h
    exact appendEvent_chainOk h _ _ _
  change k r c hcond hal h := by
    cases c with
    | redraft now body cost => exact appendEvent_chainOk (chainOk_nil _) _ _ _
    | purgeEvents cap =>
        have hunder : cap = 0 ∨ r.events.length ≤ cap := hcond
        show ChainOk k.2 (purgeEventsRecord cap r).events
        unfold purgeEventsRecord
        rw [if_pos hunder]
        exact h
    | comments cs => exact h
    | transition now dst note reason => exact appendEvent_chainOk h _ _ _
    | unblock now note => exact appendEvent_chainOk h _ _ _
    | answerUnblock now note => exact appendEvent_chainOk h _ _ _
    | resumeBlocked s now cid note eventNote => exact appendEvent_chainOk h _ _ _
    | requestChanges now cid body author => exact appendEvent_chainOk h _ _ _
    | requestImplementationChanges now cid body author => exact appendEvent_chainOk h _ _ _
    | markDone now cid note author => exact appendEvent_chainOk h _ _ _
    | closeTracker now note => exact appendEvent_chainOk h _ _ _
    | autoResume now dst => exact appendEvent_chainOk h _ _ _
    | historyNote now note => exact appendEvent_chainOk h _ _ _
    | stepEvent now note => exact appendEvent_chainOk h _ _ _
    | migrate now note cs => exact appendEvent_chainOk h _ _ _

/-! ## Runs of operations -/

/-- Does the call cut a history? -/
def cutsHistory (env : Env) (σ : Mill) : Op → Bool
  | .purgeTicketEvents svc tid =>
      let cap := env.settings.maxEventsPerTicket
      !decide (cap = 0) && !decide (svc = "") &&
        (σ.records.get (svc, tid)).any fun r => decide (cap < r.events.length)
  | _ => false

/-- The calls a run may make for chains to stay intact. -/
def keepsChains (env : Env) (σ : Mill) (op : Op) : Bool := !cutsHistory env σ op

theorem admits_of_keepsChains {env : Env} {σ : Mill} {op : Op} (h : keepsChains env σ op = true) :
    Admits chainKept env σ op := by
  replace h : cutsHistory env σ op = false := by simpa [keepsChains] using h
  cases op with
  | purgeTicketEvents svc tid =>
      intro r hsvc hget
      show env.settings.maxEventsPerTicket = 0 ∨ r.events.length ≤ env.settings.maxEventsPerTicket
      by_cases h0 : env.settings.maxEventsPerTicket = 0
      · exact .inl h0
      · refine .inr ?_
        simpa [cutsHistory, h0, hsvc, hget] using h
  | create svc args => exact fun _ _ _ => trivial
  | transition svc tid dst note reason => exact fun _ _ _ _ _ _ => trivial
  | resumeBlocked svc tid note => exact fun _ _ _ _ _ _ _ _ => trivial
  | requestChanges svc tid body author => exact fun _ _ _ _ _ => trivial
  | requestImplementationChanges svc tid body author => exact fun _ _ _ _ _ => trivial
  | redraft svc tid body => exact fun _ _ _ _ _ _ _ _ => trivial
  | markDone svc tid note author => exact fun _ _ _ _ _ _ _ _ => trivial
  | closeTracker svc tid note => exact fun _ _ _ _ => trivial
  | migrate svc tid target note => exact fun _ _ _ _ _ _ _ _ _ _ _ _ => trivial
  | addComment svc tid body author pid => exact fun _ _ _ _ _ _ => trivial
  | closeThread svc cid tid => exact fun _ _ _ _ _ _ => trivial
  | answerPendingQuestion svc tid body author change =>
      exact ⟨fun _ _ _ _ _ _ _ => trivial, fun _ _ _ _ _ _ => trivial⟩
  | addHistoryNote svc tid note => exact fun _ _ _ _ => trivial
  | addStepEvent svc tid note => exact fun _ _ _ _ => trivial

/-- **Chain integrity.** As long as no retention purge finds more events than the cap, the stored events
    of every ticket form an intact chain: the first has no predecessor, every later one names the hash of
    the event before it, and every hash is the one of the stored fields. -/
theorem events_chained {env : Env} {ops : List Op} {σ : Mill}
    (hrun : OpRun env (fun σ op => keepsChains env σ op = true) Mill.empty ops σ) {k : Key}
    {r : TicketRecord} (hget : σ.records.get k = some r) : ChainOk k.2 r.events :=
  records_invariant routine_chainKept stable_chainOk (fun _ _ h => admits_of_keepsChains h) hrun k r
    hget

/-- A ticket with three events, under the default cap. -/
def threeEventsRun : List Op :=
  [.create "board" { id := "t-1", title := "ticket" }, .addHistoryNote "board" "t-1" "noted",
    .transition "board" "t-1" .ready none none, .purgeTicketEvents "board" "t-1"]

theorem events_chained_three :
    ∃ r, (runOps .standalone .empty threeEventsRun).records.get ("board", "t-1") = some r ∧
      r.events.length = 3 ∧ ChainOk "t-1" r.events := by
  have hrun := @opRun_runOps .standalone (keepsChains .standalone) .empty threeEventsRun
    (by decide +kernel)
  have hlen : ((runOps .standalone .empty threeEventsRun).records.get ("board", "t-1")).map
      (fun r => r.events.length) = some 3 := by decide +kernel
  obtain ⟨r, hget, hr⟩ := Option.map_eq_some_iff.1 hlen
  have hchain := events_chained hrun hget
  exact ⟨r, hget, hr, hchain⟩

/-- With a cap of one event. -/
def Env.cappedEvents : Env := { Env.standalone with settings := { maxEventsPerTicket := 1 } }

/-- The event a purge keeps is unlinked, and its hash is no longer the one of its stored fields. -/
theorem purge_breaks_chain :
    let events := ((runOps .cappedEvents .empty
      [.create "board" { id := "t-1", title := "ticket" }, .transition "board" "t-1" .ready none none,
        .purgeTicketEvents "board" "t-1"]).records.get ("board", "t-1")).map TicketRecord.events
    events.map (fun es => es.map fun e => (e.state, e.prevHash)) = some [(.ready, none)] ∧
    events.map (fun es => es.map fun e =>
      decide (e.hash = eventHash "t-1" e.state e.note e.at_ e.prevHash)) = some [false] := by
  decide +kernel

end Service
end RobotsixMill
