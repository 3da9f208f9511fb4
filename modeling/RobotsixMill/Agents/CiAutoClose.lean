import Mathlib.Data.List.TakeWhile
import RobotsixMill.Forge.CheckStatus

/-!
# `Agents.CiAutoClose` — whether a workflow is green since a failure

A ticket about a failing run is closed once the workflow is green again on the target. The runs that ended in
success or failure are looked at, newest first, down to the newest on the failing head; where none is on it, all of
them, if all are newer than the failure. Two greens in a row, or one that is no first attempt on the failing head,
close the ticket.

- `greenSinceFailure` — the verdict;
- `Exact` — it is green only where no failing run is newer than the newest success and that success came after the
  failure, and green wherever the two newest runs since are;
- `exact_iff` — exactly when: another failing conclusion hides a red run, and the newest run on the failing head
  need not be the failing one.
-/

namespace RobotsixMill
namespace Agents
open Lib Forge

/-- A completed run, as the forge lists it. -/
structure CompletedRun where
  id : Int
  name : String
  headSha : String
  conclusion : Option Conclusion
  /-- As text, that sorts by time; missing is `""`. -/
  createdAt : String
  runAttempt : Option Int := none
  event : String := "push"
deriving DecidableEq, Repr

/-- `_attempt`. -/
def attempt (r : CompletedRun) : Int :=
  match r.runAttempt with
  | none => 1
  | some n => if n = 0 then 1 else n

def TERMINAL_CONCLUSIONS : List Conclusion := [.success, .failure]

/-- `a` sorts before `b`. -/
def newestFirst (a b : CompletedRun) : Bool := decide (b.createdAt ≤ a.createdAt)

/-- The runs of the workflow that ended in success or failure, newest first. -/
def completedRuns (runs : List CompletedRun) (wf : String) : List CompletedRun :=
  (runs.filter fun r => decide (r.name = wf) && isIn TERMINAL_CONCLUSIONS r.conclusion).mergeSort newestFirst

/-- The runs at or after the failing commit; `none` if there is no telling. -/
def sinceFailure (completed : List CompletedRun) (fSha : String) (failingCreatedAt : Option String) :
    Option (List CompletedRun) :=
  match completed.findIdx? fun r => r.headSha = fSha with
  | none =>
    match failingCreatedAt with
    | none => none
    | some created =>
      if created ≠ "" ∧ completed.all (fun r => decide (created < r.createdAt)) then some completed else none
  | some i => some (completed.take (i + 1))

def isGreen (r : CompletedRun) : Bool := r.conclusion == some .success

/-- How many greens there are before the first failure. -/
def streak (since : List CompletedRun) : Nat := (since.takeWhile isGreen).length

/-- A green that a fix explains: on another head, or a re-run of the failing one. -/
def explained (fSha : String) (dispatchIsFix : Bool) (r : CompletedRun) : Bool :=
  decide (r.headSha ≠ fSha) || decide (1 < attempt r) || (dispatchIsFix && r.event == "workflow_dispatch")

/-- `_green_since_failure`: the green runs, or why there is no verdict. -/
def greenSinceFailure (runs : List CompletedRun) (wf fSha : String) (failingCreatedAt : Option String)
    (dispatchIsFix : Bool) : Except String (List CompletedRun) :=
  let completed := completedRuns runs wf
  if completed = [] then .error "cannot anchor"
  else
    match sinceFailure completed fSha failingCreatedAt with
    | none => .error "failing head outside run window"
    | some since =>
      if streak since = 0 then .error "still red"
      else
        let greenRuns := since.filter isGreen
        if streak since < 2 ∧ greenRuns.any (explained fSha dispatchIsFix) = false then
          .error "lone green on failing head, attempt 1"
        else .ok greenRuns

/-! ## What is asked of the verdict -/

/-- All runs of the workflow, newest first. -/
def runsOf (runs : List CompletedRun) (wf : String) : List CompletedRun :=
  (runs.filter fun r => decide (r.name = wf)).mergeSort newestFirst

/-- The newest success of the workflow. -/
def newestSuccess (runs : List CompletedRun) (wf : String) : Option CompletedRun := (runsOf runs wf).find? isGreen

/-- `s` was created after the failing run `f`; a re-run keeps the creation time of the run. -/
def CreatedAfter (f s : CompletedRun) : Prop :=
  f.createdAt < s.createdAt ∨ (f.createdAt = s.createdAt ∧ f.headSha = s.headSha ∧ 1 < attempt s)

def isAfter (f r : CompletedRun) : Bool := decide (f.createdAt < r.createdAt)

/-- The runs of the workflow created after the failing run, newest first. -/
def runsAfter (runs : List CompletedRun) (f : CompletedRun) : List CompletedRun :=
  (runsOf runs f.name).filter (isAfter f)

/-- The verdict is exact on the failing run `f`. -/
structure Exact (runs : List CompletedRun) (f : CompletedRun) (failingCreatedAt : Option String)
    (dispatchIsFix : Bool) : Prop where
  /-- Green only with a success after the failing run that no failing run is newer than. -/
  sound : ∀ green, greenSinceFailure runs f.name f.headSha failingCreatedAt dispatchIsFix = .ok green →
    ∃ s, newestSuccess runs f.name = some s ∧ CreatedAfter f s ∧
      ∀ r ∈ runs, r.name = f.name → isIn FAILING_CONCLUSIONS r.conclusion = true → r.createdAt ≤ s.createdAt
  /-- Green where the two newest runs since are. -/
  complete : ∀ a b rest, runsAfter runs f = a :: b :: rest → isGreen a = true → isGreen b = true →
    ∃ green, greenSinceFailure runs f.name f.headSha failingCreatedAt dispatchIsFix = .ok green

/-- The conclusions of a red run that are no `failure`. -/
def HIDDEN_CONCLUSIONS : List Conclusion := [.timedOut, .actionRequired, .startupFailure]

/-- What the rule looks at shows what it is about. Where it takes the newest of the runs that count for a fix, that
    one came after the failing run, and no run that does not count is red and newer. Where the two newest runs since
    are successes, the first of them is no first attempt on the failing head; and a run that counts is on this head,
    or the time of the failing run is known and all runs that count are newer. -/
structure Shown (runs : List CompletedRun) (f : CompletedRun) (failingCreatedAt : Option String)
    (dispatchIsFix : Bool) : Prop where
  unhidden : ∀ c rest since, completedRuns runs f.name = c :: rest → isGreen c = true →
    sinceFailure (c :: rest) f.headSha failingCreatedAt = some since →
    2 ≤ streak since ∨ (since.filter isGreen).any (explained f.headSha dispatchIsFix) = true →
    CreatedAfter f c ∧
      ∀ r ∈ runs, r.name = f.name → isIn HIDDEN_CONCLUSIONS r.conclusion = true → r.createdAt ≤ c.createdAt
  anchored : ∀ a b rest, runsAfter runs f = a :: b :: rest → isGreen a = true → isGreen b = true →
    (a.headSha = f.headSha → explained f.headSha dispatchIsFix a = true) ∧
      ((∀ r ∈ completedRuns runs f.name, r.headSha ≠ f.headSha) → ∃ created, failingCreatedAt = some created ∧
        created ≠ "" ∧ ∀ r ∈ completedRuns runs f.name, created < r.createdAt)

/-! ## The runs that count -/

theorem newestFirst_trans (a b c : CompletedRun) (hab : newestFirst a b = true) (hbc : newestFirst b c = true) :
    newestFirst a c = true :=
  decide_eq_true (le_trans (of_decide_eq_true hbc) (of_decide_eq_true hab))

theorem newestFirst_total (a b : CompletedRun) : (newestFirst a b || newestFirst b a) = true := by
  unfold newestFirst
  rw [Bool.or_eq_true, decide_eq_true_iff, decide_eq_true_iff]
  exact le_total _ _

/-- The run counts. -/
def counts (r : CompletedRun) : Bool := isIn TERMINAL_CONCLUSIONS r.conclusion

section Runs

variable {runs : List CompletedRun} {wf : String}

theorem completedRuns_eq (runs : List CompletedRun) (wf : String) :
    completedRuns runs wf = (runsOf runs wf).filter counts := by
  unfold completedRuns runsOf
  rw [filter_mergeSort newestFirst_trans newestFirst_total, List.filter_filter]
  congr 1
  apply List.filter_congr
  intro r _
  exact Bool.and_comm _ _

theorem runsOf_sorted (runs : List CompletedRun) (wf : String) :
    (runsOf runs wf).Pairwise fun a b => b.createdAt ≤ a.createdAt :=
  (List.pairwise_mergeSort newestFirst_trans newestFirst_total _).imp fun h => of_decide_eq_true h

theorem mem_runsOf {r : CompletedRun} : r ∈ runsOf runs wf ↔ r ∈ runs ∧ r.name = wf := by
  unfold runsOf
  rw [List.mem_mergeSort, List.mem_filter, decide_eq_true_iff]

theorem counts_of_green {r : CompletedRun} (h : isGreen r = true) : counts r = true := by
  have hsuccess : r.conclusion = some .success := by simpa [isGreen] using h
  unfold counts isIn
  rw [hsuccess]
  decide

variable {c : CompletedRun} {rest : List CompletedRun}

/-- No run that counts is newer than the first. -/
theorem le_of_completedRuns (h : completedRuns runs wf = c :: rest) {r : CompletedRun} (hr : r ∈ runs)
    (hname : r.name = wf) (hcounts : counts r = true) : r.createdAt ≤ c.createdAt := by
  have hsorted := (runsOf_sorted runs wf).filter counts
  have hmem : r ∈ (runsOf runs wf).filter counts := List.mem_filter.2 ⟨mem_runsOf.2 ⟨hr, hname⟩, hcounts⟩
  rw [← completedRuns_eq, h] at hsorted hmem
  rcases List.mem_cons.1 hmem with rfl | hmem
  · exact le_refl _
  · exact (List.pairwise_cons.1 hsorted).1 r hmem

/-- A first run that is green is the newest success. -/
theorem newestSuccess_of_completedRuns (h : completedRuns runs wf = c :: rest) (hgreen : isGreen c = true) :
    newestSuccess runs wf = some c := by
  have hfind : ((runsOf runs wf).filter counts).find? isGreen = some c := by
    rw [← completedRuns_eq, h, List.find?_cons_of_pos hgreen]
  rw [List.find?_filter] at hfind
  unfold newestSuccess
  rw [← hfind]
  congr 1
  funext r
  cases hr : isGreen r with
  | false => simp
  | true => simp [counts_of_green hr]

/-- The newest runs after the failing one are the newest. -/
theorem runsOf_of_after {f a b : CompletedRun} (h : runsAfter runs f = a :: b :: rest) :
    ∃ older, runsOf runs f.name = a :: b :: older := by
  have hsorted := runsOf_sorted runs f.name
  unfold runsAfter at h
  generalize runsOf runs f.name = l at h hsorted
  -- a run that is left out is older than those that follow, too
  have hfirst : ∀ (x : CompletedRun) (l tail : List CompletedRun), l.Pairwise (fun a b => b.createdAt ≤ a.createdAt) →
      l.filter (isAfter f) = x :: tail →
      ∃ l', l = x :: l' ∧ l'.filter (isAfter f) = tail := by
    intro x l tail hsorted hfilter
    cases l with
    | nil => cases hfilter
    | cons y l =>
      by_cases hy : f.createdAt < y.createdAt
      · rw [List.filter_cons_of_pos (p := isAfter f) (decide_eq_true hy)] at hfilter
        obtain ⟨rfl, htail⟩ := List.cons.inj hfilter
        exact ⟨l, rfl, htail⟩
      · rw [List.filter_cons_of_neg (p := isAfter f) (by simpa [isAfter] using hy)] at hfilter
        have hx : x ∈ l.filter (isAfter f) := by
          rw [hfilter]
          exact List.mem_cons_self
        obtain ⟨hmem, hlt⟩ := List.mem_filter.1 hx
        exact absurd (lt_of_lt_of_le (of_decide_eq_true hlt) ((List.pairwise_cons.1 hsorted).1 x hmem)) hy
  obtain ⟨l', rfl, htail⟩ := hfirst a l (b :: rest) hsorted h
  obtain ⟨l'', rfl, -⟩ := hfirst b l' rest (List.pairwise_cons.1 hsorted).2 htail
  exact ⟨l'', rfl⟩

end Runs

/-! ## The verdict -/

section Verdict

variable {runs : List CompletedRun} {wf fSha : String} {created : Option String} {dispatchIsFix : Bool}

/-- What is looked at begins with the newest run that counts. -/
theorem sinceFailure_cons {c : CompletedRun} {rest since : List CompletedRun}
    (h : sinceFailure (c :: rest) fSha created = some since) : ∃ rest', since = c :: rest' := by
  unfold sinceFailure at h
  split at h
  · cases created with
    | none => cases h
    | some at_ =>
      dsimp only at h
      split at h
      · obtain rfl := Option.some.inj h
        exact ⟨rest, rfl⟩
      · cases h
  · obtain rfl := Option.some.inj h
    exact ⟨_, rfl⟩

theorem streak_pos {c : CompletedRun} {rest : List CompletedRun} : streak (c :: rest) ≠ 0 ↔ isGreen c = true := by
  unfold streak
  cases hgreen : isGreen c with
  | false =>
    rw [List.takeWhile_cons_of_neg (by simp [hgreen])]
    simp
  | true =>
    rw [List.takeWhile_cons_of_pos hgreen]
    simp

/-- **When the verdict is green.** -/
theorem greenSinceFailure_ok_iff :
    (∃ green, greenSinceFailure runs wf fSha created dispatchIsFix = .ok green) ↔
      ∃ c rest since, completedRuns runs wf = c :: rest ∧ isGreen c = true ∧
        sinceFailure (c :: rest) fSha created = some since ∧
        (2 ≤ streak since ∨ (since.filter isGreen).any (explained fSha dispatchIsFix) = true) := by
  unfold greenSinceFailure
  dsimp only
  cases hcompleted : completedRuns runs wf with
  | nil => simp
  | cons c rest =>
    rw [if_neg (List.cons_ne_nil c rest)]
    cases hsince : sinceFailure (c :: rest) fSha created with
    | none =>
      refine iff_of_false (fun h => by obtain ⟨_, h⟩ := h; cases h) ?_
      rintro ⟨c', rest', since, heq, -, hsome, -⟩
      rw [← heq, hsince] at hsome
      cases hsome
    | some since =>
      obtain ⟨rest', rfl⟩ := sinceFailure_cons hsince
      dsimp only
      constructor
      · rintro ⟨green, h⟩
        split at h
        · cases h
        · rename_i hstreak
          split at h
          · cases h
          · rename_i haccepted
            refine ⟨c, rest, c :: rest', rfl, streak_pos.1 hstreak, hsince, ?_⟩
            rcases not_and_or.1 haccepted with h | h
            · exact .inl (not_lt.1 h)
            · exact .inr (Bool.eq_true_of_not_eq_false h)
      · rintro ⟨c', rest'', since', heq, hgreen, hsince', haccepted⟩
        obtain ⟨rfl, rfl⟩ := List.cons.inj heq
        obtain rfl := Option.some.inj (hsince.symm.trans hsince')
        rw [if_neg (streak_pos.2 hgreen), if_neg]
        · exact ⟨_, rfl⟩
        · rintro ⟨hstreak, hany⟩
          rcases haccepted with h | h
          · exact absurd hstreak (not_lt.2 h)
          · rw [hany] at h
            cases h

/-- The newest run that counts is on the failing head: nothing else is looked at. -/
theorem sinceFailure_of_head {a : CompletedRun} {rest : List CompletedRun} (h : a.headSha = fSha) :
    sinceFailure (a :: rest) fSha created = some [a] := by
  unfold sinceFailure
  rw [List.findIdx?_cons, if_pos (decide_eq_true h)]
  rfl

/-- No run that counts is on it: all are looked at, if they are newer. -/
theorem sinceFailure_of_absent {completed : List CompletedRun} (h : ∀ r ∈ completed, r.headSha ≠ fSha) :
    (∃ since, sinceFailure completed fSha created = some since) ↔
      ∃ at_, created = some at_ ∧ at_ ≠ "" ∧ ∀ r ∈ completed, at_ < r.createdAt := by
  have hnone : completed.findIdx? (fun r => decide (r.headSha = fSha)) = none := by
    rw [List.findIdx?_eq_none_iff]
    intro r hr
    exact decide_eq_false (h r hr)
  unfold sinceFailure
  rw [hnone]
  cases created with
  | none => simp
  | some at_ =>
    dsimp only
    constructor
    · rintro ⟨since, hsince⟩
      split at hsince
      · rename_i hknown
        refine ⟨at_, rfl, hknown.1, fun r hr => ?_⟩
        exact of_decide_eq_true (List.all_eq_true.1 hknown.2 r hr)
      · cases hsince
    · rintro ⟨at', heq, hne, hall⟩
      obtain rfl := Option.some.inj heq
      rw [if_pos ⟨hne, List.all_eq_true.2 fun r hr => decide_eq_true (hall r hr)⟩]
      exact ⟨completed, rfl⟩

/-- Two greens above the first run on the failing head, or above all of them, are both looked at. -/
theorem two_le_streak {a b : CompletedRun} {rest since : List CompletedRun} (hhead : a.headSha ≠ fSha)
    (ha : isGreen a = true) (hb : isGreen b = true) (h : sinceFailure (a :: b :: rest) fSha created = some since) :
    2 ≤ streak since := by
  have htwo : ∃ rest', since = a :: b :: rest' := by
    unfold sinceFailure at h
    split at h
    · cases created with
      | none => cases h
      | some at_ =>
        dsimp only at h
        split at h
        · exact ⟨rest, (Option.some.inj h).symm⟩
        · cases h
    · rename_i i hi
      obtain rfl := Option.some.inj h
      cases i with
      | zero =>
        rw [List.findIdx?_cons, if_neg (by simpa using hhead)] at hi
        simp at hi
      | succ i => exact ⟨rest.take i, rfl⟩
  obtain ⟨rest', rfl⟩ := htwo
  unfold streak
  rw [List.takeWhile_cons_of_pos ha, List.takeWhile_cons_of_pos hb]
  simp

/-- A red run that does not count ended otherwise. -/
theorem failing_cases {r : CompletedRun} (h : isIn FAILING_CONCLUSIONS r.conclusion = true) :
    counts r = true ∨ isIn HIDDEN_CONCLUSIONS r.conclusion = true := by
  unfold counts
  cases hconclusion : r.conclusion with
  | none =>
    rw [hconclusion] at h
    cases h
  | some c =>
    rw [hconclusion] at h
    cases c <;> first | exact .inl rfl | exact .inr rfl | cases h

theorem failing_of_hidden {c : Option Conclusion} (h : isIn HIDDEN_CONCLUSIONS c = true) :
    isIn FAILING_CONCLUSIONS c = true := by
  cases c with
  | none => cases h
  | some c => cases c <;> first | rfl | cases h

/-- **When the verdict is exact.** -/
theorem exact_iff (runs : List CompletedRun) (f : CompletedRun) (failingCreatedAt : Option String)
    (dispatchIsFix : Bool) :
    Exact runs f failingCreatedAt dispatchIsFix ↔ Shown runs f failingCreatedAt dispatchIsFix := by
  -- two greens after the failing run are the first two that count
  have hcompleted : ∀ {a b rest}, runsAfter runs f = a :: b :: rest → isGreen a = true → isGreen b = true →
      ∃ older, completedRuns runs f.name = a :: b :: older := by
    intro a b rest hafter ha hb
    obtain ⟨older, holder⟩ := runsOf_of_after hafter
    refine ⟨older.filter counts, ?_⟩
    rw [completedRuns_eq, holder, List.filter_cons_of_pos (counts_of_green ha),
      List.filter_cons_of_pos (counts_of_green hb)]
  constructor
  · intro h
    constructor
    · intro c rest since hc hgreen hsince haccepted
      obtain ⟨green, hok⟩ := greenSinceFailure_ok_iff.2 ⟨c, rest, since, hc, hgreen, hsince, haccepted⟩
      obtain ⟨s, hs, hafter, hnewest⟩ := h.sound green hok
      obtain rfl := Option.some.inj ((newestSuccess_of_completedRuns hc hgreen).symm.trans hs)
      exact ⟨hafter, fun r hr hname hhidden => hnewest r hr hname (failing_of_hidden hhidden)⟩
    · intro a b rest hafter ha hb
      obtain ⟨older, holder⟩ := hcompleted hafter ha hb
      obtain ⟨c, rest', since, hc, -, hsince, haccepted⟩ :=
        greenSinceFailure_ok_iff.1 (h.complete a b rest hafter ha hb)
      obtain ⟨rfl, rfl⟩ := List.cons.inj (holder.symm.trans hc)
      refine ⟨fun hhead => ?_, fun habsent => ?_⟩
      · rw [sinceFailure_of_head hhead] at hsince
        obtain rfl := Option.some.inj hsince
        rcases haccepted with hstreak | hany
        · unfold streak at hstreak
          rw [List.takeWhile_cons_of_pos ha] at hstreak
          simp at hstreak
        · rw [List.filter_cons_of_pos ha] at hany
          simpa using hany
      · rw [hc] at habsent ⊢
        exact (sinceFailure_of_absent habsent).1 ⟨since, hsince⟩
  · intro h
    constructor
    · intro green hok
      obtain ⟨c, rest, since, hc, hgreen, hsince, haccepted⟩ := greenSinceFailure_ok_iff.1 ⟨green, hok⟩
      obtain ⟨hafter, hhidden⟩ := h.unhidden c rest since hc hgreen hsince haccepted
      refine ⟨c, newestSuccess_of_completedRuns hc hgreen, hafter, fun r hr hname hfailing => ?_⟩
      rcases failing_cases hfailing with hcounts | hother
      · exact le_of_completedRuns hc hr hname hcounts
      · exact hhidden r hr hname hother
    · intro a b rest hafter ha hb
      obtain ⟨older, holder⟩ := hcompleted hafter ha hb
      obtain ⟨hexplained, hknown⟩ := h.anchored a b rest hafter ha hb
      by_cases hhead : a.headSha = f.headSha
      · refine greenSinceFailure_ok_iff.2 ⟨a, b :: older, [a], holder, ha, sinceFailure_of_head hhead, .inr ?_⟩
        rw [List.filter_cons_of_pos ha]
        simpa using hexplained hhead
      · have hsome : ∃ since, sinceFailure (a :: b :: older) f.headSha failingCreatedAt = some since := by
          by_cases habsent : ∀ r ∈ a :: b :: older, r.headSha ≠ f.headSha
          · rw [holder] at hknown
            exact (sinceFailure_of_absent habsent).2 (hknown habsent)
          · unfold sinceFailure
            cases hidx : (a :: b :: older).findIdx? fun r => decide (r.headSha = f.headSha) with
            | some i => exact ⟨_, rfl⟩
            | none =>
              rw [List.findIdx?_eq_none_iff] at hidx
              exact absurd (fun r hr => of_decide_eq_false (hidx r hr)) habsent
        obtain ⟨since, hsince⟩ := hsome
        exact greenSinceFailure_ok_iff.2 ⟨a, b :: older, since, holder, ha, hsince, .inl (two_le_streak hhead ha hb hsince)⟩

end Verdict

/-! ## A run that timed out -/

/-- The run the ticket is about. -/
def FAILED_RUN : CompletedRun :=
  { id := 1, name := "ci", headSha := "a1", conclusion := some .failure, createdAt := "2026-09-01T01:00:00Z" }

/-- A later head is green. -/
def GREEN_RUN : CompletedRun :=
  { id := 2, name := "ci", headSha := "b2", conclusion := some .success, createdAt := "2026-09-01T02:00:00Z" }

/-- The next one is not. -/
def TIMED_OUT_RUN : CompletedRun :=
  { id := 3, name := "ci", headSha := "c3", conclusion := some .timedOut, createdAt := "2026-09-01T03:00:00Z" }

/-- A newer run that timed out does not keep the verdict from being green. -/
theorem timed_out_run_hidden :
    ¬ ∀ (runs : List CompletedRun) (f : CompletedRun) (failingCreatedAt : Option String),
        f ∈ runs → isIn FAILING_CONCLUSIONS f.conclusion = true →
        failingCreatedAt = none ∨ failingCreatedAt = some f.createdAt → Exact runs f failingCreatedAt true := by
  intro h
  have hcompleted : completedRuns [TIMED_OUT_RUN, GREEN_RUN, FAILED_RUN] "ci" = [GREEN_RUN, FAILED_RUN] :=
    List.mergeSort_of_pairwise (by decide)
  have hgreen : ∃ green, greenSinceFailure [TIMED_OUT_RUN, GREEN_RUN, FAILED_RUN] "ci" "a1" none true = .ok green :=
    greenSinceFailure_ok_iff.2 ⟨GREEN_RUN, [FAILED_RUN], [GREEN_RUN, FAILED_RUN], hcompleted, rfl, rfl, .inr rfl⟩
  obtain ⟨green, hok⟩ := hgreen
  have hexact := h [TIMED_OUT_RUN, GREEN_RUN, FAILED_RUN] FAILED_RUN none (by decide) (by decide) (.inl rfl)
  obtain ⟨s, hs, -, hnewest⟩ := hexact.sound green hok
  obtain rfl := Option.some.inj ((newestSuccess_of_completedRuns hcompleted rfl).symm.trans hs)
  have hle : TIMED_OUT_RUN.createdAt ≤ GREEN_RUN.createdAt := hnewest TIMED_OUT_RUN (by decide) rfl (by decide)
  exact absurd hle (by decide)

end Agents
end RobotsixMill
