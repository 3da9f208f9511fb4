import RobotsixMill.Runtime.CiMonitor
import Mathlib.Data.List.Nodup

/-!
# `Runtime.CiReports` — what the CI monitor does over many polls

The log of a monitor has every dispatch and every report with the time of its poll. What the state file remembers
covers the log up to the retention time, as long as the file is kept and no poll raises after an effect: such a poll
saves nothing.

- `scanItem_case` — what the poll can make of one run;
- `DispatchLedger`, `ReportLedger` — how the state covers the log;
- `redispatch_budget` — dispatches are few and far between;
- `reports_once` — a commit is reported at most once, and a run that is owed a report gets it.
-/

namespace RobotsixMill
namespace Runtime
namespace CiMonitor
open RobotsixMill.Core Lib

/-! ## One run -/

def Effect.key : Effect → Key
  | .dispatched key => key
  | .reported key _ _ => key

section Item

variable {target : String} {a : Answers} {i : ScanItem} {now : Int} {s : CiState}

/-- The deferrals of all other runs are kept. -/
def KeepsDeferred (i : ScanItem) (s s' : CiState) : Prop := ∀ k ≠ i.key, s'.deferred k = s.deferred k

/-- **One run.** Nothing happens to it, up to a deferral; or it is marked as handled, with a report or without; or
    it is dispatched, when its record allows it; or the poll ends there. -/
inductive ItemCase (i : ScanItem) (now : Int) (s : CiState) (res : ScanResult) : Prop
  | quiet : res.effects = [] → res.raised = false → res.state.seen = s.seen →
      res.state.redispatch = s.redispatch → KeepsDeferred i s res.state → ItemCase i now s res
  | marked : s.seen i.key = none → res.raised = false → res.state.seen = Function.update s.seen i.key (some now) →
      res.state.redispatch = s.redispatch → KeepsDeferred i s res.state →
      (res.effects = [] ∨ ∃ report, res.effects = [.reported i.key i.run.id report]) → ItemCase i now s res
  | dispatched (n : Nat) : s.seen i.key = none →
      (s.redispatch i.key = none ∧ n = 0 ∨ ∃ ts, s.redispatch i.key = some (n, ts) ∧
        n < REDISPATCH_MAX_ATTEMPTS ∧ ts + REDISPATCH_MIN_INTERVAL_SECONDS ≤ now) →
      res.raised = false → res.state.seen = s.seen →
      res.state.redispatch = Function.update s.redispatch i.key (some (n + 1, now)) →
      res.state.deferred = s.deferred → res.effects = [.dispatched i.key] → ItemCase i now s res
  | raised : res.raised = true → (res.effects = [] ∨ res.effects = [.dispatched i.key]) → ItemCase i now s res

theorem keepsDeferred_refl (i : ScanItem) (s : CiState) : KeepsDeferred i s s := fun _ _ => rfl

theorem keepsDeferred_pop (i : ScanItem) (s : CiState) : KeepsDeferred i s (s.popDeferred i.key) := by
  intro k hk
  exact Function.update_of_ne hk ..

theorem consolidate_case {s₀ : CiState} (ticket : TicketId) (text : String) (hseen : s₀.seen i.key = none)
    (hs : s.seen = s₀.seen) (hr : s.redispatch = s₀.redispatch) (hd : KeepsDeferred i s₀ s) :
    ItemCase i now s₀ (consolidate a i now ticket text s) := by
  refine .marked hseen rfl ?_ hr hd ?_
  · rw [← hs]
    rfl
  · unfold consolidate
    cases a.addCommentRaises with
    | true => exact .inl rfl
    | false => exact .inr ⟨_, rfl⟩

theorem fileDraft_case {s₀ : CiState} (logs : List Char) (error : String) (hseen : s₀.seen i.key = none)
    (hs : s.seen = s₀.seen) (hr : s.redispatch = s₀.redispatch) (hd : KeepsDeferred i s₀ s) :
    ItemCase i now s₀ (fileDraft target a i now logs error s) := by
  have hpop : KeepsDeferred i s₀ (s.popDeferred i.key) := fun k hk => (keepsDeferred_pop i s k hk).trans (hd k hk)
  unfold fileDraft
  cases a.prior with
  | none => exact .raised rfl (.inl rfl)
  | some found =>
    cases found with
    | some prior => exact consolidate_case _ _ hseen hs hr hpop
    | none =>
      dsimp only
      split
      · exact .quiet rfl rfl hs hr hd
      · refine .marked hseen rfl ?_ hr hpop (.inr ⟨_, rfl⟩)
        rw [← hs]
        rfl

theorem fetchRunLogs_keeps : (fetchRunLogs a i.key now s).2.seen = s.seen ∧
    (fetchRunLogs a i.key now s).2.redispatch = s.redispatch ∧
    KeepsDeferred i s (fetchRunLogs a i.key now s).2 := by
  unfold fetchRunLogs
  split
  · exact ⟨rfl, rfl, keepsDeferred_refl i s⟩
  · exact ⟨rfl, rfl, keepsDeferred_refl i s⟩
  · dsimp only
    split
    · exact ⟨rfl, rfl, fun k hk => Function.update_of_ne hk ..⟩
    · exact ⟨rfl, rfl, keepsDeferred_pop i s⟩

theorem fileFailure_case (hseen : s.seen i.key = none) : ItemCase i now s (fileFailure target a i now s) := by
  unfold fileFailure
  split
  · exact fileDraft_case [] "" hseen rfl rfl (keepsDeferred_refl i s)
  · obtain ⟨hs, hr, hd⟩ := @fetchRunLogs_keeps a i now s
    generalize fetchRunLogs a i.key now s = fetched at hs hr hd
    obtain ⟨outcome, s'⟩ := fetched
    cases outcome with
    | networkDown => exact .quiet rfl rfl hs hr hd
    | deferred => exact .quiet rfl rfl hs hr hd
    | proceeds logs error => exact fileDraft_case logs error hseen hs hr hd

theorem redispatchCancelled_case (hseen : s.seen i.key = none) :
    ItemCase i now s (redispatchCancelled a i.key now s) := by
  unfold redispatchCancelled
  cases hverdict : redispatchVerdict a (s.redispatch i.key) now with
  | handled => exact .marked hseen rfl rfl rfl (keepsDeferred_refl i s) (.inl rfl)
  | waits => exact .quiet rfl rfl rfl rfl (keepsDeferred_refl i s)
  | raises => exact .raised rfl (.inl rfl)
  | dispatches =>
    dsimp only
    split
    · exact .raised rfl (.inr rfl)
    · refine .dispatched _ hseen ?_ rfl rfl rfl rfl rfl
      cases hrecord : s.redispatch i.key with
      | none => exact .inl ⟨rfl, rfl⟩
      | some r =>
        right
        refine ⟨r.2, rfl, ?_, ?_⟩
        all_goals
          rw [hrecord] at hverdict
          unfold redispatchVerdict at hverdict
          simp only [Option.any_some, decide_eq_true_eq] at hverdict
          split_ifs at hverdict with hmany hsoon
        · exact Nat.lt_of_not_le hmany
        · omega

/-- **The cases of a run.** -/
theorem scanItem_case (target : String) (a : Answers) (i : ScanItem) (now : Int) (s : CiState) :
    ItemCase i now s (scanItem target a i now s) := by
  have hquiet : ItemCase i now s ⟨s, [], false⟩ := .quiet rfl rfl rfl rfl (keepsDeferred_refl i s)
  unfold scanItem
  split
  · split
    · exact hquiet
    · rename_i hfresh
      rw [not_or, Option.not_isSome_iff_eq_none] at hfresh
      exact redispatchCancelled_case hfresh.2
  · split
    · exact hquiet
    · split
      · exact hquiet
      · rename_i hfresh
        rw [Option.not_isSome_iff_eq_none] at hfresh
        have hmark : ItemCase i now s ⟨s.mark i.key now, [], false⟩ :=
          .marked hfresh rfl rfl rfl (keepsDeferred_refl i s) (.inl rfl)
        split
        · exact hmark
        · split
          · exact hmark
          · split
            · exact .raised rfl (.inl rfl)
            · exact consolidate_case _ _ hfresh rfl rfl (keepsDeferred_refl i s)
            · exact fileFailure_case hfresh

end Item

/-! ## The log -/

/-- Everything the monitor did, with the time of the poll. -/
abbrev EffectLog := List (Int × Effect)

def Effect.dispatches (key : Key) (e : Effect) : Bool := decide (e = .dispatched key)

def Effect.reports (key : Key) : Effect → Bool
  | .dispatched _ => false
  | .reported k _ _ => decide (k = key)

/-- When the effects of a kind were. -/
def timesOf (p : Effect → Bool) (log : EffectLog) : List Int := (log.filter fun e => p e.2).map Prod.fst

/-- The effects of a poll, with its time. -/
def stamped (now : Int) (effects : List Effect) : EffectLog := effects.map fun e => (now, e)

theorem timesOf_append (p : Effect → Bool) (log log' : EffectLog) :
    timesOf p (log ++ log') = timesOf p log ++ timesOf p log' := by
  rw [timesOf, List.filter_append, List.map_append]
  rfl

theorem timesOf_stamped_none {p : Effect → Bool} {now : Int} {effects : List Effect}
    (h : ∀ e ∈ effects, p e = false) : timesOf p (stamped now effects) = [] := by
  rw [timesOf, List.map_eq_nil_iff, List.filter_eq_nil_iff]
  intro e he
  obtain ⟨e', he', rfl⟩ := List.mem_map.1 he
  rw [h e' he']
  exact Bool.false_ne_true

theorem timesOf_append_none {p : Effect → Bool} {log : EffectLog} {now : Int} {effects : List Effect}
    (h : ∀ e ∈ effects, p e = false) : timesOf p (log ++ stamped now effects) = timesOf p log := by
  rw [timesOf_append, timesOf_stamped_none h, List.append_nil]

theorem timesOf_append_one {p : Effect → Bool} {log : EffectLog} {now : Int} {e : Effect} (h : p e = true) :
    timesOf p (log ++ stamped now [e]) = timesOf p log ++ [now] := by
  rw [timesOf_append]
  simp [timesOf, stamped, h]

theorem stamped_append (now : Int) (es fs : List Effect) : stamped now (es ++ fs) = stamped now es ++ stamped now fs :=
  List.map_append

/-! ## How the state covers the log -/

section Ledgers

variable {ttl now now' : Int} {s s' : CiState} {log : EffectLog}

/-- What `seen` says about the effects of a kind: a handled run has none later than its mark. -/
structure Covered (p : Key → Effect → Bool) (s : CiState) (log : EffectLog) (now : Int) : Prop where
  past : ∀ k, ∀ u ∈ timesOf (p k) log, u ≤ now
  seen : ∀ k v, s.seen k = some v → ∀ u ∈ timesOf (p k) log, u ≤ v

/-- The dispatches, and how the records cover them. -/
structure DispatchLedger (ttl : Int) (s : CiState) (log : EffectLog) (now : Int) : Prop where
  spaced : ∀ k, Spaced ttl REDISPATCH_MIN_INTERVAL_SECONDS REDISPATCH_MAX_ATTEMPTS (timesOf (Effect.dispatches k) log)
  covered : Covered Effect.dispatches s log now
  record : ∀ k n ts, s.redispatch k = some (n, ts) →
    retained ttl now (timesOf (Effect.dispatches k) log) ≤ n ∧ ∀ u ∈ timesOf (Effect.dispatches k) log, u ≤ ts
  free : ∀ k, s.seen k = none → s.redispatch k = none → ∀ u ∈ timesOf (Effect.dispatches k) log, u + ttl < now

/-- The reports, and how the marks cover them. -/
structure ReportLedger (ttl : Int) (s : CiState) (log : EffectLog) (now : Int) : Prop where
  spaced : ∀ k, Spaced ttl 0 1 (timesOf (Effect.reports k) log)
  covered : Covered Effect.reports s log now
  free : ∀ k, s.seen k = none → ∀ u ∈ timesOf (Effect.reports k) log, u + ttl < now

theorem DispatchLedger.later (h : DispatchLedger ttl s log now) (hle : now ≤ now') :
    DispatchLedger ttl s log now' where
  spaced := h.spaced
  covered := ⟨fun k u hu => (h.covered.past k u hu).trans hle, h.covered.seen⟩
  record k n ts hk := ⟨(retained_anti hle).trans (h.record k n ts hk).1, (h.record k n ts hk).2⟩
  free k hs hr u hu := (h.free k hs hr u hu).trans_le hle

theorem ReportLedger.later (h : ReportLedger ttl s log now) (hle : now ≤ now') : ReportLedger ttl s log now' where
  spaced := h.spaced
  covered := ⟨fun k u hu => (h.covered.past k u hu).trans hle, h.covered.seen⟩
  free k hs u hu := (h.free k hs u hu).trans_le hle

theorem aged_iff {ts : Int} : aged ttl now ts = true ↔ ts + ttl < now := by
  rw [aged, decide_eq_true_eq]
  omega

/-- A mark that pruning keeps was there; one that it drops has aged. -/
theorem prune_seen_some {k : Key} {v : Int} (h : (s.prune ttl now).seen k = some v) : s.seen k = some v :=
  (Option.filter_eq_some_iff.1 h).1

theorem prune_seen_none {k : Key} (h : (s.prune ttl now).seen k = none) :
    s.seen k = none ∨ ∃ v, s.seen k = some v ∧ v + ttl < now := by
  cases hs : s.seen k with
  | none => exact .inl rfl
  | some v =>
    right
    refine ⟨v, rfl, ?_⟩
    have hfilter : (s.seen k).filter (fun ts => !aged ttl now ts) = none := h
    rw [hs, Option.filter_eq_none_iff] at hfilter
    have haged := hfilter v rfl
    rw [Bool.not_eq_true, Bool.not_eq_false', aged_iff] at haged
    exact haged

theorem prune_redispatch_some {k : Key} {n : Nat} {ts : Int} (h : (s.prune ttl now).redispatch k = some (n, ts)) :
    s.redispatch k = some (n, ts) := by
  unfold CiState.prune at h
  dsimp only at h
  split at h
  · cases h
  · exact (Option.filter_eq_some_iff.1 h).1

theorem prune_redispatch_none {k : Key} (hseen : (s.prune ttl now).seen k = none)
    (h : (s.prune ttl now).redispatch k = none) :
    s.redispatch k = none ∨ ∃ n ts, s.redispatch k = some (n, ts) ∧ ts + ttl < now := by
  have hfilter : (s.redispatch k).filter (fun r => !aged ttl now r.2) = none := by
    have hk : (if ((s.prune ttl now).seen k).isSome then none
        else (s.redispatch k).filter fun r => !aged ttl now r.2) = none := h
    rw [hseen] at hk
    exact hk
  cases hr : s.redispatch k with
  | none => exact .inl rfl
  | some r =>
    right
    rw [hr, Option.filter_eq_none_iff] at hfilter
    have haged := hfilter r rfl
    rw [Bool.not_eq_true, Bool.not_eq_false', aged_iff] at haged
    exact ⟨r.1, r.2, rfl, haged⟩

theorem Covered.prune {p : Key → Effect → Bool} (h : Covered p s log now) : Covered p (s.prune ttl now) log now :=
  ⟨h.past, fun k v hv => h.seen k v (prune_seen_some hv)⟩

/-- **Pruning keeps the dispatches covered**: what it forgets has aged. -/
theorem DispatchLedger.prune (h : DispatchLedger ttl s log now) : DispatchLedger ttl (s.prune ttl now) log now where
  spaced := h.spaced
  covered := h.covered.prune
  record k n ts hk := h.record k n ts (prune_redispatch_some hk)
  free k hs hr u hu := by
    rcases prune_seen_none hs with hnone | ⟨v, hv, haged⟩
    · rcases prune_redispatch_none hs hr with hrec | ⟨n, ts, hrec, haged⟩
      · exact h.free k hnone hrec u hu
      · have hle := (h.record k n ts hrec).2 u hu
        omega
    · have hle := h.covered.seen k v hv u hu
      omega

theorem ReportLedger.prune (h : ReportLedger ttl s log now) : ReportLedger ttl (s.prune ttl now) log now where
  spaced := h.spaced
  covered := h.covered.prune
  free k hs u hu := by
    rcases prune_seen_none hs with hnone | ⟨v, hv, haged⟩
    · exact h.free k hnone u hu
    · have hle := h.covered.seen k v hv u hu
      omega

/-! ### Effects -/

theorem dispatches_reported (k key : Key) (id : Nat) (report : Report) :
    Effect.dispatches k (.reported key id report) = false := by
  simp [Effect.dispatches]

theorem Covered.mark {p : Key → Effect → Bool} {log' : EffectLog} {key : Key} (h : Covered p s log now)
    (hseen : s'.seen = Function.update s.seen key (some now))
    (hpast : ∀ k, ∀ u ∈ timesOf (p k) log', u ≤ now)
    (hother : ∀ k ≠ key, timesOf (p k) log' = timesOf (p k) log) : Covered p s' log' now := by
  refine ⟨hpast, ?_⟩
  intro k v hv u hu
  rw [hseen] at hv
  by_cases hk : k = key
  · subst hk
    rw [Function.update_self] at hv
    obtain rfl := Option.some.inj hv
    exact hpast k u hu
  · rw [Function.update_of_ne hk] at hv
    rw [hother k hk] at hu
    exact h.seen k v hv u hu

theorem mem_concat {u : Int} {times : List Int} (h : u ∈ times ++ [now]) : u ∈ times ∨ u = now := by
  rw [List.mem_append, List.mem_singleton] at h
  exact h

section Scan

variable {target : String} {answers : ScanItem → Answers} {i : ScanItem} {is : List ScanItem} {res : ScanResult}

/-- **A run keeps the dispatches covered**, unless it ends the poll. -/
theorem DispatchLedger.item (h : DispatchLedger ttl s log now) (hcase : ItemCase i now s res)
    (hgo : res.raised = false) : DispatchLedger ttl res.state (log ++ stamped now res.effects) now := by
  cases hcase with
  | quiet he _ hs hr _ =>
    rw [he]
    show DispatchLedger ttl res.state (log ++ []) now
    rw [List.append_nil]
    exact {
      spaced := h.spaced
      covered := ⟨h.covered.past, fun k v hv => h.covered.seen k v (hs ▸ hv)⟩
      record := fun k n ts hk => h.record k n ts (hr ▸ hk)
      free := fun k hk hk' => h.free k (hs ▸ hk) (hr ▸ hk') }
  | marked hfresh _ hs hr _ he =>
    have hnone : ∀ k, ∀ e ∈ res.effects, Effect.dispatches k e = false := by
      intro k e hmem
      rcases he with he | ⟨report, he⟩
      · rw [he] at hmem
        exact absurd hmem List.not_mem_nil
      · rw [he, List.mem_singleton] at hmem
        rw [hmem]
        exact dispatches_reported ..
    have htimes : ∀ k, timesOf (Effect.dispatches k) (log ++ stamped now res.effects) =
        timesOf (Effect.dispatches k) log := fun k => timesOf_append_none (hnone k)
    refine ⟨?_, ?_, ?_, ?_⟩
    · intro k
      rw [htimes]
      exact h.spaced k
    · refine h.covered.mark hs ?_ fun k _ => htimes k
      intro k u hu
      rw [htimes] at hu
      exact h.covered.past k u hu
    · intro k n ts hk
      rw [htimes]
      exact h.record k n ts (hr ▸ hk)
    · intro k hk hk' u hu
      rw [htimes] at hu
      rw [hs] at hk
      by_cases hkey : k = i.key
      · subst hkey
        rw [Function.update_self] at hk
        cases hk
      · rw [Function.update_of_ne hkey] at hk
        exact h.free k hk (hr ▸ hk') u hu
  | dispatched n hfresh hgate _ hs hr _ he =>
    have hone : timesOf (Effect.dispatches i.key) (log ++ stamped now res.effects) =
        timesOf (Effect.dispatches i.key) log ++ [now] := by
      rw [he]
      exact timesOf_append_one (by simp [Effect.dispatches])
    have hother : ∀ k ≠ i.key, timesOf (Effect.dispatches k) (log ++ stamped now res.effects) =
        timesOf (Effect.dispatches k) log := by
      intro k hk
      refine timesOf_append_none fun e hmem => ?_
      rw [he, List.mem_singleton] at hmem
      rw [hmem, Effect.dispatches, decide_eq_false_iff_not]
      rintro heq
      exact hk (congrArg Effect.key heq).symm
    -- the record leaves room for one more, and the pause is over
    have hroom : retained ttl now (timesOf (Effect.dispatches i.key) log) ≤ n ∧ n < REDISPATCH_MAX_ATTEMPTS ∧
        ∀ u ∈ timesOf (Effect.dispatches i.key) log, now ≤ u + ttl → u + REDISPATCH_MIN_INTERVAL_SECONDS ≤ now := by
      rcases hgate with ⟨hrec, rfl⟩ | ⟨ts, hrec, hn, hpause⟩
      · have hold := h.free i.key hfresh hrec
        refine ⟨(retained_eq_zero hold).le, by decide, ?_⟩
        intro u hu hkept
        exact absurd hkept (not_le.2 (hold u hu))
      · obtain ⟨hcount, hlast⟩ := h.record i.key n ts hrec
        refine ⟨hcount, hn, ?_⟩
        intro u hu _
        have hle := hlast u hu
        omega
    obtain ⟨hcount, hn, hpause⟩ := hroom
    refine ⟨?_, ⟨?_, ?_⟩, ?_, ?_⟩
    · intro k
      by_cases hk : k = i.key
      · subst hk
        rw [hone]
        exact (h.spaced _).concat (by omega) hpause
      · rw [hother k hk]
        exact h.spaced k
    · intro k u hu
      by_cases hk : k = i.key
      · subst hk
        rw [hone] at hu
        rcases mem_concat hu with hu | rfl
        · exact h.covered.past _ u hu
        · exact le_rfl
      · rw [hother k hk] at hu
        exact h.covered.past k u hu
    · intro k v hv u hu
      rw [hs] at hv
      by_cases hk : k = i.key
      · subst hk
        rw [hfresh] at hv
        cases hv
      · rw [hother k hk] at hu
        exact h.covered.seen k v hv u hu
    · intro k m ts hk
      rw [hr] at hk
      by_cases hkey : k = i.key
      · subst hkey
        rw [Function.update_self] at hk
        obtain ⟨rfl, rfl⟩ := Prod.ext_iff.1 (Option.some.inj hk)
        rw [hone]
        have hadd := @retained_concat_le _ _ _ ttl now (timesOf (Effect.dispatches i.key) log) now
        refine ⟨by omega, ?_⟩
        intro u hu
        rcases mem_concat hu with hu | rfl
        · exact h.covered.past _ u hu
        · exact le_rfl
      · rw [Function.update_of_ne hkey] at hk
        rw [hother k hkey]
        exact h.record k m ts hk
    · intro k hk hk' u hu
      rw [hr] at hk'
      by_cases hkey : k = i.key
      · subst hkey
        rw [Function.update_self] at hk'
        cases hk'
      · rw [Function.update_of_ne hkey] at hk'
        rw [hother k hkey] at hu
        exact h.free k (hs ▸ hk) hk' u hu
  | raised hraised => rw [hgo] at hraised; cases hraised

/-- **A run keeps the reports covered**, unless it ends the poll. -/
theorem ReportLedger.item (h : ReportLedger ttl s log now) (hcase : ItemCase i now s res)
    (hgo : res.raised = false) : ReportLedger ttl res.state (log ++ stamped now res.effects) now := by
  have hkeep : res.state.seen = s.seen → (∀ k, ∀ e ∈ res.effects, Effect.reports k e = false) →
      ReportLedger ttl res.state (log ++ stamped now res.effects) now := by
    intro hs hnone
    have htimes : ∀ k, timesOf (Effect.reports k) (log ++ stamped now res.effects) =
        timesOf (Effect.reports k) log := fun k => timesOf_append_none (hnone k)
    refine ⟨?_, ⟨?_, ?_⟩, ?_⟩
    · intro k
      rw [htimes]
      exact h.spaced k
    · intro k u hu
      rw [htimes] at hu
      exact h.covered.past k u hu
    · intro k v hv u hu
      rw [htimes] at hu
      exact h.covered.seen k v (hs ▸ hv) u hu
    · intro k hk u hu
      rw [htimes] at hu
      exact h.free k (hs ▸ hk) u hu
  cases hcase with
  | quiet he _ hs _ _ =>
    refine hkeep hs fun k e hmem => ?_
    rw [he] at hmem
    exact absurd hmem List.not_mem_nil
  | dispatched n _ _ _ hs _ _ he =>
    refine hkeep hs fun k e hmem => ?_
    rw [he, List.mem_singleton] at hmem
    rw [hmem]
    rfl
  | marked hfresh _ hs _ _ he =>
    have hold := h.free i.key hfresh
    have hother : ∀ k ≠ i.key, timesOf (Effect.reports k) (log ++ stamped now res.effects) =
        timesOf (Effect.reports k) log := by
      intro k hk
      refine timesOf_append_none fun e hmem => ?_
      rcases he with he | ⟨report, he⟩
      · rw [he] at hmem
        exact absurd hmem List.not_mem_nil
      · rw [he, List.mem_singleton] at hmem
        rw [hmem]
        exact decide_eq_false (Ne.symm hk)
    have hown : timesOf (Effect.reports i.key) (log ++ stamped now res.effects) =
          timesOf (Effect.reports i.key) log ∨
        timesOf (Effect.reports i.key) (log ++ stamped now res.effects) =
          timesOf (Effect.reports i.key) log ++ [now] := by
      rcases he with he | ⟨report, he⟩
      · left
        rw [he]
        exact timesOf_append_none fun e hmem => absurd hmem List.not_mem_nil
      · right
        rw [he]
        exact timesOf_append_one (decide_eq_true rfl)
    have hpast : ∀ k, ∀ u ∈ timesOf (Effect.reports k) (log ++ stamped now res.effects), u ≤ now := by
      intro k u hu
      by_cases hk : k = i.key
      · subst hk
        rcases hown with hown | hown
        · rw [hown] at hu
          exact h.covered.past _ u hu
        · rw [hown] at hu
          rcases mem_concat hu with hu | rfl
          · exact h.covered.past _ u hu
          · exact le_rfl
      · rw [hother k hk] at hu
        exact h.covered.past k u hu
    refine ⟨?_, h.covered.mark hs hpast hother, ?_⟩
    · intro k
      by_cases hk : k = i.key
      · subst hk
        rcases hown with hown | hown
        · rw [hown]
          exact h.spaced _
        · rw [hown]
          refine (h.spaced _).concat ?_ ?_
          · rw [retained_eq_zero hold]
            exact Nat.one_pos
          · intro u hu hkept
            exact absurd hkept (not_le.2 (hold u hu))
      · rw [hother k hk]
        exact h.spaced k
    · intro k hk u hu
      rw [hs] at hk
      by_cases hkey : k = i.key
      · subst hkey
        rw [Function.update_self] at hk
        cases hk
      · rw [Function.update_of_ne hkey] at hk
        rw [hother k hkey] at hu
        exact h.free k hk u hu
  | raised hraised => rw [hgo] at hraised; cases hraised

/-- What every run of a scan keeps, a scan that does not raise keeps. -/
theorem scan_invariant {I : CiState → EffectLog → Prop}
    (hitem : ∀ s log i res, I s log → ItemCase i now s res → res.raised = false →
      I res.state (log ++ stamped now res.effects))
    (h : I s log) (hgo : (scan target answers now is s).raised = false) :
    I (scan target answers now is s).state (log ++ stamped now (scan target answers now is s).effects) := by
  induction is generalizing s log with
  | nil =>
    show I s (log ++ [])
    rw [List.append_nil]
    exact h
  | cons i is ih =>
    have hcase := scanItem_case target (answers i) i now s
    unfold scan at hgo ⊢
    dsimp only at hgo ⊢
    cases hfirst : (scanItem target (answers i) i now s).raised with
    | true =>
      rw [if_pos hfirst, hfirst] at hgo
      cases hgo
    | false =>
      rw [hfirst] at hgo
      rw [if_neg Bool.false_ne_true] at hgo ⊢
      rw [stamped_append, ← List.append_assoc]
      exact ih (hitem _ _ _ _ h hcase hfirst) hgo

end Scan

end Ledgers

/-! ## Many polls -/

/-- The state file, what the monitor did, and the time of the last poll. -/
structure MonitorState where
  saved : CiState
  log : EffectLog
  now : Int

def MonitorState.init (now : Int) : MonitorState := ⟨.empty, [], now⟩

/-- A poll, not before the last one. -/
def monitorStep (cfg : MonitorConfig) (σ : MonitorState) (p : Poll) (σ' : MonitorState) : Prop :=
  σ.now ≤ p.now ∧
    σ' = ⟨(runPoll cfg σ.saved p).saved, σ.log ++ stamped p.now (runPoll cfg σ.saved p).effects, p.now⟩

/-- The state file is read and not cut short, and the poll has no effect of a kind before it raises. -/
structure SavedAfter (kind : Effect → Bool) (cfg : MonitorConfig) (σ : MonitorState) (p : Poll) : Prop where
  readable : p.unreadable = false
  uncut : p.save ≠ .cut
  saved : (runPoll cfg σ.saved p).raised = true → ∀ e ∈ (runPoll cfg σ.saved p).effects, kind e = false

section Polls

variable {cfg : MonitorConfig} {σ σ' : MonitorState} {p : Poll}

/-- **One poll.** It saves what its scan made of the state, or the file stays unless the write is cut short. -/
theorem runPoll_case (cfg : MonitorConfig) (saved : CiState) (p : Poll) :
    (∃ runs, p.listing = .runs runs ∧
      let scanned := scan cfg.target p.answers p.now (p.items cfg runs) ((p.load saved).prune cfg.ttlSeconds p.now)
      scanned.raised = false ∧ runPoll cfg saved p = ⟨scanned.state, scanned.effects, true, false⟩) ∨
    (p.save ≠ .cut → (runPoll cfg saved p).saved = saved) ∧ (runPoll cfg saved p).completed = false ∧
      ((runPoll cfg saved p).raised = true ∨ (runPoll cfg saved p).effects = []) := by
  unfold runPoll
  cases hlisting : p.listing with
  | networkDown => exact .inr ⟨fun _ => rfl, rfl, .inr rfl⟩
  | raised => exact .inr ⟨fun _ => rfl, rfl, .inl rfl⟩
  | runs runs =>
    dsimp only
    split
    · exact .inr ⟨fun _ => rfl, rfl, .inl rfl⟩
    · split
      · exact .inr ⟨fun _ => rfl, rfl, .inl rfl⟩
      · rename_i hgo
        cases hsave : p.save with
        | written => exact .inl ⟨runs, rfl, Bool.not_eq_true _ ▸ hgo, rfl⟩
        | refused => exact .inr ⟨fun _ => rfl, rfl, .inl rfl⟩
        | cut => exact .inr ⟨fun hcut => absurd rfl hcut, rfl, .inl rfl⟩

/-- A file that is there is loaded as it is. -/
theorem load_readable (h : p.unreadable = false) (saved : CiState) : p.load saved = saved := by
  unfold Poll.load
  rw [h]
  rfl

/-- What is kept while time passes, by pruning and by every run, is kept by a poll that saves its effects. -/
theorem monitorStep_invariant {I : CiState → EffectLog → Int → Prop} (kind : Effect → Bool)
    (hlater : ∀ s log now now', I s log now → now ≤ now' → I s log now')
    (hprune : ∀ s log now, I s log now → I (s.prune cfg.ttlSeconds now) log now)
    (hitem : ∀ s log now i res, I s log now → ItemCase i now s res → res.raised = false →
      I res.state (log ++ stamped now res.effects) now)
    (hkind : ∀ s log now effects, I s log now → (∀ e ∈ effects, kind e = false) → I s (log ++ stamped now effects) now)
    (h : I σ.saved σ.log σ.now) (hsaved : SavedAfter kind cfg σ p) (hstep : monitorStep cfg σ p σ') :
    I σ'.saved σ'.log σ'.now := by
  obtain ⟨hle, rfl⟩ := hstep
  have hnow := hlater _ _ _ _ h hle
  rcases runPoll_case cfg σ.saved p with ⟨runs, -, hgo, hrun⟩ | ⟨hkeep, -, hraised⟩
  · rw [hrun]
    rw [load_readable hsaved.readable] at hgo ⊢
    exact scan_invariant (I := fun s log => I s log p.now) (fun s log i res => hitem s log p.now i res)
      (hprune _ _ _ hnow) hgo
  · dsimp only
    rw [hkeep hsaved.uncut]
    refine hkind _ _ _ _ hnow ?_
    rcases hraised with hraised | hnone
    · exact hsaved.saved hraised
    · intro e he
      rw [hnone] at he
      exact absurd he List.not_mem_nil

/-- An effect that is not a dispatch leaves the dispatches covered. -/
theorem DispatchLedger.log_none {ttl now : Int} {s : CiState} {log : EffectLog} {effects : List Effect}
    (h : DispatchLedger ttl s log now) (hnone : ∀ k, ∀ e ∈ effects, Effect.dispatches k e = false) :
    DispatchLedger ttl s (log ++ stamped now effects) now := by
  have htimes : ∀ k, timesOf (Effect.dispatches k) (log ++ stamped now effects) =
      timesOf (Effect.dispatches k) log := fun k => timesOf_append_none (hnone k)
  refine ⟨fun k => ?_, ⟨fun k => ?_, fun k => ?_⟩, fun k => ?_, fun k => ?_⟩
  all_goals rw [htimes k]
  · exact h.spaced k
  · exact h.covered.past k
  · exact h.covered.seen k
  · exact h.record k
  · exact h.free k

theorem ReportLedger.log_none {ttl now : Int} {s : CiState} {log : EffectLog} {effects : List Effect}
    (h : ReportLedger ttl s log now) (hnone : ∀ k, ∀ e ∈ effects, Effect.reports k e = false) :
    ReportLedger ttl s (log ++ stamped now effects) now := by
  have htimes : ∀ k, timesOf (Effect.reports k) (log ++ stamped now effects) =
      timesOf (Effect.reports k) log := fun k => timesOf_append_none (hnone k)
  refine ⟨fun k => ?_, ⟨fun k => ?_, fun k => ?_⟩, fun k => ?_⟩
  all_goals rw [htimes k]
  · exact h.spaced k
  · exact h.covered.past k
  · exact h.covered.seen k
  · exact h.free k

def Effect.isDispatch : Effect → Bool
  | .dispatched _ => true
  | .reported .. => false

def Effect.isReport : Effect → Bool
  | .dispatched _ => false
  | .reported .. => true

theorem dispatches_of_isDispatch {e : Effect} (h : e.isDispatch = false) (k : Key) : e.dispatches k = false := by
  cases e with
  | dispatched key => cases h
  | reported key id report => exact dispatches_reported ..

theorem reports_of_isReport {e : Effect} (h : e.isReport = false) (k : Key) : e.reports k = false := by
  cases e with
  | dispatched key => rfl
  | reported key id report => cases h

/-- A new monitor has done nothing. -/
theorem dispatchLedger_init (ttl now : Int) : DispatchLedger ttl .empty [] now where
  spaced _ := .nil
  covered := ⟨fun _ u hu => absurd hu List.not_mem_nil, fun _ v hv => (by cases hv)⟩
  record k n ts hk := by cases hk
  free _ _ _ u hu := absurd hu List.not_mem_nil

theorem reportLedger_init (ttl now : Int) : ReportLedger ttl .empty [] now where
  spaced _ := .nil
  covered := ⟨fun _ u hu => absurd hu List.not_mem_nil, fun _ v hv => (by cases hv)⟩
  free _ _ u hu := absurd hu List.not_mem_nil

theorem dispatchLedger_of_run {t₀ : Int} {polls : List Poll}
    (h : Run (Guarded (SavedAfter Effect.isDispatch cfg) (monitorStep cfg)) (.init t₀) polls σ) :
    DispatchLedger cfg.ttlSeconds σ.saved σ.log σ.now := by
  refine h.invariant (I := fun σ => DispatchLedger cfg.ttlSeconds σ.saved σ.log σ.now) ?_ (dispatchLedger_init _ t₀)
  intro σ p σ' hledger hstep
  refine monitorStep_invariant Effect.isDispatch (I := DispatchLedger cfg.ttlSeconds) ?_ ?_ ?_ ?_ hledger
    hstep.1 hstep.2
  · exact fun _ _ _ _ => DispatchLedger.later
  · exact fun _ _ _ => DispatchLedger.prune
  · exact fun _ _ _ _ _ => DispatchLedger.item
  · intro s log now effects hs hnone
    exact hs.log_none fun k e he => dispatches_of_isDispatch (hnone e he) k

theorem reportLedger_of_run {t₀ : Int} {polls : List Poll}
    (h : Run (Guarded (SavedAfter Effect.isReport cfg) (monitorStep cfg)) (.init t₀) polls σ) :
    ReportLedger cfg.ttlSeconds σ.saved σ.log σ.now := by
  refine h.invariant (I := fun σ => ReportLedger cfg.ttlSeconds σ.saved σ.log σ.now) ?_ (reportLedger_init _ t₀)
  intro σ p σ' hledger hstep
  refine monitorStep_invariant Effect.isReport (I := ReportLedger cfg.ttlSeconds) ?_ ?_ ?_ ?_ hledger
    hstep.1 hstep.2
  · exact fun _ _ _ _ => ReportLedger.later
  · exact fun _ _ _ => ReportLedger.prune
  · exact fun _ _ _ _ _ => ReportLedger.item
  · intro s log now effects hs hnone
    exact hs.log_none fun k e he => reports_of_isReport (hnone e he) k

end Polls

/-! ## Every run that is owed a report gets it -/

section Owed

variable {target : String} {answers : ScanItem → Answers} {a : Answers} {i : ScanItem} {is : List ScanItem}
  {now : Int} {s : CiState}

/-- The logs can be had, or their budget of deferrals is used up. -/
def LogsReady (a : Answers) (i : ScanItem) (s : CiState) : Prop :=
  i.run.conclusion = .startupFailure ∨
  (∃ text, fetchAttempts ((List.range CI_LOG_FETCH_ATTEMPTS).map a.fetch) "" = .logs text) ∨
  (∃ error, fetchAttempts ((List.range CI_LOG_FETCH_ATTEMPTS).map a.fetch) "" = .failed error) ∧
    CI_LOG_FETCH_MAX_DEFERRALS ≤ ((s.deferred i.key).map Prod.fst).getD 0

/-- A failing run that has not been handled, of a workflow that is there, not refused by the account; its logs are
    ready, and the service takes what the poll files. -/
structure Owed (target : String) (a : Answers) (i : ScanItem) (s : CiState) : Prop where
  failing : i.run.conclusion ∈ CI_FAILING_CONCLUSIONS
  unhandled : s.seen i.key = none
  present : i.ref = target → a.pathDeleted = false
  unblocked : i.run.conclusion ≠ .startupFailure → a.accountBlocked = false
  commented : ∀ ticket, a.canonical = some (some ticket) → a.addCommentRaises = false
  ready : a.canonical = some none → LogsReady a i s
  matched : ∀ ticket, a.canonical = some none → a.prior = some (some ticket) → a.addCommentRaises = false
  created : a.canonical = some none → a.prior = some none → a.createRaises = false

theorem consolidate_reports (ticket : TicketId) (text : String) (h : a.addCommentRaises = false) :
    ∃ report, (consolidate a i now ticket text s).effects = [.reported i.key i.run.id report] := by
  unfold consolidate
  rw [h]
  exact ⟨_, rfl⟩

theorem fileDraft_reports (logs : List Char) (error : String)
    (hmatched : ∀ ticket, a.prior = some (some ticket) → a.addCommentRaises = false)
    (hcreated : a.prior = some none → a.createRaises = false)
    (hgo : (fileDraft target a i now logs error s).raised = false) :
    ∃ report, (fileDraft target a i now logs error s).effects = [.reported i.key i.run.id report] := by
  unfold fileDraft at hgo ⊢
  cases hprior : a.prior with
  | none =>
    rw [hprior] at hgo
    cases hgo
  | some found =>
    cases found with
    | some ticket => exact consolidate_reports _ _ (hmatched ticket hprior)
    | none =>
      dsimp only
      rw [hcreated hprior]
      exact ⟨_, rfl⟩

/-- The fetch lets the draft through when the logs are ready. -/
theorem fetchRunLogs_proceeds (hne : i.run.conclusion ≠ .startupFailure) (h : LogsReady a i s) :
    ∃ logs error s', fetchRunLogs a i.key now s = (.proceeds logs error, s') := by
  unfold fetchRunLogs
  rcases h with hstartup | ⟨text, htext⟩ | ⟨⟨error, herror⟩, hbudget⟩
  · exact absurd hstartup hne
  · rw [htext]
    exact ⟨_, _, _, rfl⟩
  · rw [herror]
    dsimp only
    rw [if_neg (by omega)]
    exact ⟨_, _, _, rfl⟩

/-- **What is owed is reported**, where the scan gets past it. -/
theorem scanItem_owed (h : Owed target a i s) (hgo : (scanItem target a i now s).raised = false) :
    ∃ report, (scanItem target a i now s).effects = [.reported i.key i.run.id report] := by
  have hlive : i.run.conclusion ≠ .cancelled := by
    intro hcancelled
    have hfailing := h.failing
    rw [hcancelled] at hfailing
    exact absurd hfailing (by decide)
  have hfresh : ¬ (s.seen i.key).isSome = true := by
    rw [h.unhandled]
    exact Bool.false_ne_true
  have hpresent : ¬ (i.ref = target ∧ a.pathDeleted = true) := by
    rintro ⟨href, hdeleted⟩
    rw [h.present href] at hdeleted
    cases hdeleted
  have hunblocked : ¬ (i.run.conclusion ≠ .startupFailure ∧ a.accountBlocked = true) := by
    rintro ⟨hne, hblocked⟩
    rw [h.unblocked hne] at hblocked
    cases hblocked
  unfold scanItem at hgo ⊢
  rw [if_neg hlive, if_neg (not_not.2 h.failing), if_neg hfresh, if_neg hpresent, if_neg hunblocked] at hgo ⊢
  cases hcanonical : a.canonical with
  | none =>
    rw [hcanonical] at hgo
    cases hgo
  | some found =>
    cases found with
    | some ticket => exact consolidate_reports _ _ (h.commented ticket hcanonical)
    | none =>
      rw [hcanonical] at hgo
      dsimp only at hgo ⊢
      unfold fileFailure at hgo ⊢
      have hmatched := fun ticket => h.matched ticket hcanonical
      have hcreated := h.created hcanonical
      by_cases hstartup : i.run.conclusion = .startupFailure
      · rw [if_pos hstartup] at hgo ⊢
        exact fileDraft_reports _ _ hmatched hcreated hgo
      · obtain ⟨logs, error, s', hfetch⟩ := @fetchRunLogs_proceeds a i now s hstartup (h.ready hcanonical)
        rw [if_neg hstartup, hfetch] at hgo ⊢
        exact fileDraft_reports _ _ hmatched hcreated hgo

/-! ### The other runs of the poll -/

theorem ItemCase.key_eq {res : ScanResult} (h : ItemCase i now s res) : ∀ e ∈ res.effects, e.key = i.key := by
  intro e hmem
  cases h with
  | quiet he =>
    rw [he] at hmem
    exact absurd hmem List.not_mem_nil
  | marked _ _ _ _ _ he =>
    rcases he with he | ⟨report, he⟩
    · rw [he] at hmem
      exact absurd hmem List.not_mem_nil
    · rw [he, List.mem_singleton] at hmem
      rw [hmem]
      rfl
  | dispatched n _ _ _ _ _ _ he =>
    rw [he, List.mem_singleton] at hmem
    rw [hmem]
    rfl
  | raised _ he =>
    rcases he with he | he
    · rw [he] at hmem
      exact absurd hmem List.not_mem_nil
    · rw [he, List.mem_singleton] at hmem
      rw [hmem]
      rfl

/-- A run leaves what is remembered of the others alone. -/
theorem ItemCase.frame {res : ScanResult} (h : ItemCase i now s res) (hgo : res.raised = false) {k : Key}
    (hk : k ≠ i.key) : res.state.seen k = s.seen k ∧ res.state.deferred k = s.deferred k := by
  cases h with
  | quiet _ _ hs _ hd => exact ⟨congrFun hs k, hd k hk⟩
  | marked _ _ hs _ hd _ =>
    rw [hs]
    exact ⟨Function.update_of_ne hk .., hd k hk⟩
  | dispatched n _ _ _ hs _ hd _ => exact ⟨congrFun hs k, congrFun hd k⟩
  | raised hraised => rw [hgo] at hraised; cases hraised

theorem scan_keys (target : String) (answers : ScanItem → Answers) (now : Int) (is : List ScanItem) (s : CiState) :
    ∀ e ∈ (scan target answers now is s).effects, e.key ∈ is.map ScanItem.key := by
  induction is generalizing s with
  | nil => exact fun e he => absurd he List.not_mem_nil
  | cons i is ih =>
    intro e he
    have hkey := (scanItem_case target (answers i) i now s).key_eq
    unfold scan at he
    dsimp only at he
    rw [List.map_cons, List.mem_cons]
    split at he
    · exact .inl (hkey e he)
    · rcases List.mem_append.1 he with hfirst | hrest
      · exact .inl (hkey e hfirst)
      · exact .inr (ih _ e hrest)

/-- **A run is scanned as if it were alone**: its effects in the scan are those on what is remembered of it. -/
theorem scan_filter (hnodup : (is.map ScanItem.key).Nodup) (hmem : i ∈ is)
    (hgo : (scan target answers now is s).raised = false) :
    ∃ s', s'.seen i.key = s.seen i.key ∧ s'.deferred i.key = s.deferred i.key ∧
      (scanItem target (answers i) i now s').raised = false ∧
      (scan target answers now is s).effects.filter (fun e => decide (e.key = i.key)) =
        (scanItem target (answers i) i now s').effects := by
  induction is generalizing s with
  | nil => exact absurd hmem List.not_mem_nil
  | cons j is ih =>
    rw [List.map_cons, List.nodup_cons] at hnodup
    have hcase := scanItem_case target (answers j) j now s
    unfold scan at hgo ⊢
    dsimp only at hgo ⊢
    cases hfirst : (scanItem target (answers j) j now s).raised with
    | true =>
      rw [if_pos hfirst, hfirst] at hgo
      cases hgo
    | false =>
      rw [hfirst] at hgo
      rw [if_neg Bool.false_ne_true] at hgo ⊢
      dsimp only at hgo ⊢
      rw [List.filter_append]
      obtain rfl | hmem := List.mem_cons.1 hmem
      · refine ⟨s, rfl, rfl, hfirst, ?_⟩
        have hown : (scanItem target (answers i) i now s).effects.filter (fun e => decide (e.key = i.key)) =
            (scanItem target (answers i) i now s).effects := by
          rw [List.filter_eq_self]
          exact fun e he => decide_eq_true (hcase.key_eq e he)
        have hothers : (scan target answers now is (scanItem target (answers i) i now s).state).effects.filter
            (fun e => decide (e.key = i.key)) = [] := by
          rw [List.filter_eq_nil_iff]
          intro e he hkey
          rw [decide_eq_true_eq] at hkey
          exact hnodup.1 (hkey ▸ scan_keys _ _ _ _ _ e he)
        rw [hown, hothers, List.append_nil]
      · have hne : i.key ≠ j.key := by
          intro heq
          exact hnodup.1 (heq ▸ List.mem_map_of_mem hmem)
        obtain ⟨hseen, hdeferred⟩ := hcase.frame hfirst hne
        obtain ⟨s', hs', hd', hraised, heffects⟩ := ih hnodup.2 hmem hgo
        refine ⟨s', hs'.trans hseen, hd'.trans hdeferred, hraised, ?_⟩
        have hfirstNone : (scanItem target (answers j) j now s).effects.filter
            (fun e => decide (e.key = i.key)) = [] := by
          rw [List.filter_eq_nil_iff]
          intro e he hkey
          rw [decide_eq_true_eq] at hkey
          exact hne (hkey.symm.trans (hcase.key_eq e he))
        rw [hfirstNone, List.nil_append]
        exact heffects

/-- Each workflow is listed once. -/
theorem nodup_firstRuns (ok : WorkflowRun → Bool) (seenWf : List Nat) (runs : List WorkflowRun) :
    ((firstRuns ok seenWf runs).map Prod.fst).Nodup ∧
      ∀ wf ∈ (firstRuns ok seenWf runs).map Prod.fst, wf ∉ seenWf := by
  induction runs generalizing seenWf with
  | nil => exact ⟨.nil, fun wf h => absurd h List.not_mem_nil⟩
  | cons run runs ih =>
    unfold firstRuns
    cases run.workflowId with
    | none => exact ih seenWf
    | some wf =>
      dsimp only
      split
      · exact ih seenWf
      · rename_i hnew
        rw [Bool.or_eq_true, decide_eq_true_eq, not_or] at hnew
        obtain ⟨hnodup, hfresh⟩ := ih (wf :: seenWf)
        rw [List.map_cons, List.nodup_cons]
        refine ⟨⟨fun hmem => hfresh wf hmem List.mem_cons_self, hnodup⟩, ?_⟩
        intro v hv
        obtain rfl | hv := List.mem_cons.1 hv
        · exact hnew.2
        · exact fun hseen => hfresh v hv (List.mem_cons_of_mem _ hseen)

/-- **The items of a poll have different keys.** -/
theorem nodup_items (cfg : MonitorConfig) (p : Poll) (runs : List WorkflowRun) :
    ((p.items cfg runs).map ScanItem.key).Nodup := by
  have hfst : ∀ {l : List (Nat × WorkflowRun)} (f : Nat × WorkflowRun → Key), (∀ q, (f q).wf = q.1) →
      (l.map Prod.fst).Nodup → (l.map f).Nodup := by
    intro l f hf hl
    refine List.Nodup.of_map Key.wf ?_
    rw [List.map_map]
    convert hl using 2
    funext q
    exact hf q
  have hbranch : ((branchItems cfg.target runs).map ScanItem.key).Nodup := by
    rw [branchItems, List.map_map]
    exact hfst _ (fun _ => rfl) (nodup_firstRuns ..).1
  have htags : ((latestTagRuns p.tagRuns).map ScanItem.key).Nodup := by
    rw [latestTagRuns, List.map_map]
    exact hfst _ (fun _ => rfl) (nodup_firstRuns ..).1
  unfold Poll.items
  rw [List.map_append, List.nodup_append]
  refine ⟨hbranch, ?_, ?_⟩
  · split
    · exact htags
    · exact .nil
  · -- the key of a tag's run names the tag
    intro k hk k' hk' heq
    obtain ⟨i, hi, rfl⟩ := List.mem_map.1 hk
    obtain ⟨q, -, rfl⟩ := List.mem_map.1 hi
    obtain ⟨j, hj, rfl⟩ := List.mem_map.1 hk'
    split at hj
    · obtain ⟨q', -, rfl⟩ := List.mem_map.1 hj
      exact absurd (congrArg Key.tag heq) (by simp)
    · exact absurd hj List.not_mem_nil

/-- A poll that gets to its end reports once what it is owed. -/
theorem runPoll_owed {cfg : MonitorConfig} {saved : CiState} {p : Poll} {runs : List WorkflowRun}
    (hlisting : p.listing = .runs runs) (hdone : (runPoll cfg saved p).completed = true)
    (hmem : i ∈ p.items cfg runs)
    (howed : Owed cfg.target (p.answers i) i ((p.load saved).prune cfg.ttlSeconds p.now)) :
    ∃ report, (runPoll cfg saved p).effects.filter (fun e => decide (e.key = i.key)) =
      [.reported i.key i.run.id report] := by
  rcases runPoll_case cfg saved p with ⟨runs', hlisting', hgo, hrun⟩ | ⟨-, hundone, -⟩
  · rw [hlisting] at hlisting'
    obtain rfl := Listing.runs.inj hlisting'
    rw [hrun]
    obtain ⟨s', hseen, hdeferred, hraised, heffects⟩ := scan_filter (nodup_items cfg p runs) hmem hgo
    have howed' : Owed cfg.target (p.answers i) i s' := by
      refine { howed with unhandled := hseen.trans howed.unhandled, ready := ?_ }
      intro hcanonical
      have hready := howed.ready hcanonical
      unfold LogsReady at hready ⊢
      rw [hdeferred]
      exact hready
    obtain ⟨report, hreport⟩ := scanItem_owed howed' hraised
    exact ⟨report, heffects.trans hreport⟩
  · rw [hundone] at hdone
    cases hdone

end Owed

/-! ## The two guarantees -/

/-- **The re-dispatch budget.** Where the state file is kept and no poll raises after it dispatched anything: within
    the retention time a run is dispatched at most three times, with six hours between two dispatches. -/
theorem redispatch_budget {cfg : MonitorConfig} {t₀ : Int} {polls : List Poll} {σ : MonitorState}
    (h : Run (Guarded (SavedAfter Effect.isDispatch cfg) (monitorStep cfg)) (.init t₀) polls σ) (key : Key) :
    Spaced cfg.ttlSeconds REDISPATCH_MIN_INTERVAL_SECONDS REDISPATCH_MAX_ATTEMPTS
      (timesOf (Effect.dispatches key) σ.log) :=
  (dispatchLedger_of_run h).spaced key

/-- **The reports.** Where the state file is kept and no poll raises after it reported anything: within the retention
    time a workflow is reported once for a commit, and a poll that gets to its end reports once every run that is owed
    a report. -/
theorem reports_once {cfg : MonitorConfig} {t₀ : Int} {polls : List Poll} {σ : MonitorState}
    (h : Run (Guarded (SavedAfter Effect.isReport cfg) (monitorStep cfg)) (.init t₀) polls σ) :
    (∀ key, Spaced cfg.ttlSeconds 0 1 (timesOf (Effect.reports key) σ.log)) ∧
    ∀ p runs i, p.listing = .runs runs → (runPoll cfg σ.saved p).completed = true → i ∈ p.items cfg runs →
      Owed cfg.target (p.answers i) i ((p.load σ.saved).prune cfg.ttlSeconds p.now) →
      ∃ report, (runPoll cfg σ.saved p).effects.filter (fun e => decide (e.key = i.key)) =
        [.reported i.key i.run.id report] :=
  ⟨(reportLedger_of_run h).spaced, fun _ _ _ => runPoll_owed⟩

/-! ### Runs -/

/-- Nothing raises; the logs come at once; no ticket has the failure. -/
def smooth : Answers where
  jobs := some false
  online := some true
  dispatchRaises := false
  pathDeleted := false
  accountBlocked := false
  canonical := some none
  addCommentRaises := false
  fetch _ := .logs "boom".toList
  fingerprint := "f"
  prior := some none
  createRaises := false

def mainBranch : MonitorConfig := { target := "main" }

/-- A poll that finds these runs. -/
def pollAt (now : Int) (runs : List WorkflowRun) (answers : ScanItem → Answers) : Poll where
  now := now
  unreadable := false
  listing := .runs runs
  setupRaises := false
  tagRuns := []
  answers := answers
  save := .written

def cancelledRun : WorkflowRun := { workflowId := some 1, id := 10, conclusion := .cancelled, headSha := "abc" }

/-- A failing run of a workflow, on one commit. -/
def failingRun (wf id : Nat) : WorkflowRun :=
  { workflowId := some wf, id := id, conclusion := .failure, headSha := "abc" }

/-- The search for an earlier ticket raises for the failing run of workflow 2. -/
def searchRaises (i : ScanItem) : Answers := if i.wf = 2 then { smooth with prior := none } else smooth

/-- The monitor after two polls. -/
def monitor (p q : Poll) : MonitorState :=
  [p, q].foldl (fun σ p =>
    ⟨(runPoll mainBranch σ.saved p).saved, σ.log ++ stamped p.now (runPoll mainBranch σ.saved p).effects, p.now⟩)
    (.init 0)

theorem monitor_run (p q : Poll) (hp : 0 ≤ p.now) (hq : p.now ≤ q.now) :
    Run (monitorStep mainBranch) (.init 0) [p, q] (monitor p q) :=
  .cons ⟨hp, rfl⟩ (.single ⟨hq, rfl⟩)

/-- A poll that does not raise is guarded. -/
theorem savedAfter_of_not_raised {kind : Effect → Bool} {cfg : MonitorConfig} {σ : MonitorState} {p : Poll}
    (hfile : p.unreadable = false ∧ p.save = .written) (h : (runPoll cfg σ.saved p).raised = false) :
    SavedAfter kind cfg σ p where
  readable := hfile.1
  uncut hcut := by
    rw [hfile.2] at hcut
    cases hcut
  saved hraised := absurd (h.symm.trans hraised) Bool.false_ne_true

theorem monitor_run_guarded {kind : Effect → Bool} (p q : Poll) (hp : 0 ≤ p.now) (hq : p.now ≤ q.now)
    (hfile : ∀ r ∈ [p, q], r.unreadable = false ∧ r.save = .written)
    (hfirst : (runPoll mainBranch .empty p).raised = false)
    (hsecond : (runPoll mainBranch (runPoll mainBranch .empty p).saved q).raised = false) :
    Run (Guarded (SavedAfter kind mainBranch) (monitorStep mainBranch)) (.init 0) [p, q] (monitor p q) := by
  refine .cons ⟨?_, ⟨hp, rfl⟩⟩ (.single ⟨?_, ⟨hq, rfl⟩⟩)
  · exact savedAfter_of_not_raised (hfile p List.mem_cons_self) hfirst
  · exact savedAfter_of_not_raised (hfile q (List.mem_cons_of_mem _ List.mem_cons_self)) hsecond

/-- A poll that dispatches the cancelled run and raises at the next one. -/
def cutShort (now : Int) : Poll := pollAt now [cancelledRun, failingRun 2 20] searchRaises

/-- A minute later the run is dispatched again. -/
theorem dispatched_twice :
    Run (monitorStep mainBranch) (.init 0) [cutShort 0, cutShort 60] (monitor (cutShort 0) (cutShort 60)) ∧
    timesOf (Effect.dispatches ⟨1, "abc", none⟩) (monitor (cutShort 0) (cutShort 60)).log = [0, 60] ∧
    ¬ Spaced mainBranch.ttlSeconds REDISPATCH_MIN_INTERVAL_SECONDS REDISPATCH_MAX_ATTEMPTS
      (timesOf (Effect.dispatches ⟨1, "abc", none⟩) (monitor (cutShort 0) (cutShort 60)).log) := by
  have htimes : timesOf (Effect.dispatches ⟨1, "abc", none⟩) (monitor (cutShort 0) (cutShort 60)).log = [0, 60] := by
    decide +kernel
  refine ⟨monitor_run _ _ (by decide) (by decide), htimes, ?_⟩
  intro h
  have hapart := h.apart
  rw [htimes] at hapart
  have hpause := (List.pairwise_cons.1 hapart).1 60 (List.mem_singleton_self _)
  exact absurd hpause (by decide)

/-- A run that nobody picks up, polled again. -/
def stillCancelled (now : Int) : Poll := pollAt now [cancelledRun] fun _ => smooth

/-- It is dispatched again after six hours. -/
theorem dispatched_within_budget :
    Spaced mainBranch.ttlSeconds REDISPATCH_MIN_INTERVAL_SECONDS REDISPATCH_MAX_ATTEMPTS
      (timesOf (Effect.dispatches ⟨1, "abc", none⟩) (monitor (stillCancelled 0) (stillCancelled 21600)).log) ∧
    timesOf (Effect.dispatches ⟨1, "abc", none⟩) (monitor (stillCancelled 0) (stillCancelled 21600)).log =
      [0, 21600] :=
  ⟨redispatch_budget (monitor_run_guarded _ _ (by decide) (by decide) (by decide +kernel) (by decide +kernel) (by decide +kernel)) _,
    by decide +kernel⟩

/-- A poll that finds a failing run of workflow 1. -/
def failsAt (now : Int) (id : Nat) : Poll := pollAt now [failingRun 1 id] fun _ => smooth

/-- It is reported, and when it is polled again it is not reported again. -/
theorem reported_once :
    (∀ key, Spaced mainBranch.ttlSeconds 0 1
      (timesOf (Effect.reports key) (monitor (failsAt 0 10) (failsAt 60 10)).log)) ∧
    timesOf (Effect.reports ⟨1, "abc", none⟩) (monitor (failsAt 0 10) (failsAt 60 10)).log = [0] :=
  ⟨(reports_once (monitor_run_guarded _ _ (by decide) (by decide) (by decide +kernel) (by decide +kernel) (by decide +kernel))).1,
    by decide +kernel⟩

/-- The reports of a run, over all polls. -/
def reportsOf (id : Nat) (σ : MonitorState) : Nat :=
  σ.log.countP fun e =>
    match e.2 with
    | .dispatched _ => false
    | .reported _ runId _ => decide (runId = id)

/-- A poll that reports the run of workflow 1 and raises at the next one. -/
def cutShortReport (now : Int) : Poll := pollAt now [failingRun 1 10, failingRun 2 20] searchRaises

/-- An hour after its ticket was filed the workflow fails again on the commit, in a new run: that run is not reported,
    though the poll gets to its end and nothing stands in the way. And a run that was reported by a poll that raised
    is reported again. -/
theorem new_run_unreported :
    (Run (monitorStep mainBranch) (.init 0) [failsAt 0 10, failsAt 3600 11]
        (monitor (failsAt 0 10) (failsAt 3600 11)) ∧
      (runPoll mainBranch (runPoll mainBranch .empty (failsAt 0 10)).saved (failsAt 3600 11)).completed = true ∧
      reportsOf 11 (monitor (failsAt 0 10) (failsAt 3600 11)) = 0) ∧
    (Run (monitorStep mainBranch) (.init 0) [cutShortReport 0, cutShortReport 60]
        (monitor (cutShortReport 0) (cutShortReport 60)) ∧
      reportsOf 10 (monitor (cutShortReport 0) (cutShortReport 60)) = 2) :=
  ⟨⟨monitor_run _ _ (by decide) (by decide), by decide +kernel, by decide +kernel⟩,
    ⟨monitor_run _ _ (by decide) (by decide), by decide +kernel⟩⟩

end CiMonitor
end Runtime
end RobotsixMill
