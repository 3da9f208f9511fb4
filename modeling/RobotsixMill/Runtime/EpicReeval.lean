import RobotsixMill.Runtime.EpicChildren
import RobotsixMill.Lib.Quota

/-!
# `Runtime.EpicReeval` — re-evaluations of one epic that overlap

Each child that is finished starts a re-evaluation in a thread of its own, so several may be on their way at once, while
the service goes on taking calls. A re-evaluation counts the children filed by re-evaluations when it starts
(`readSiblings`) and files the first of them after that, so it knows nothing of what another one files in the meantime.

- `EpicSystem`, `apply` — the service with the re-evaluations under way, and the steps of these in any order;
- `quota_of_apply` — each step is one of `Lib.Quota`;
- `reeval_children_bounded` — how many children re-evaluations file.
-/

namespace RobotsixMill
namespace Runtime
namespace EpicChildren
open RobotsixMill.Core Lib Service
open Relation (ReflTransGen)

/-- The service, and the re-evaluations of the epic that are under way. -/
structure EpicSystem where
  mill : Mill
  reevals : List Reeval

inductive EpicEvent
  /-- A call from elsewhere. -/
  | call (call : Service.Call)
  | start (svc : BoardId) (now : DateTime) (result : EpicStatusResult)
  /-- The next proposal of a re-evaluation; what `create` files gets the id. -/
  | next (i : Nat) (id : TicketId)
  | finish (i : Nat)

variable (env : Env) (isWordChar : Char → Bool) (cfg : EpicSettings) (epic_id : TicketId)

/-- What an event does; nothing, if there is no such re-evaluation or its proposals are not all done. -/
def apply (s : EpicSystem) : EpicEvent → Option EpicSystem
  | .call call => some { s with mill := call.run env s.mill }
  | .start svc now result =>
    some { s with reevals := s.reevals ++ [readSiblings env isWordChar svc cfg epic_id now result s.mill] }
  | .next i id =>
    s.reevals[i]?.map fun p =>
      let filed := fileNext env isWordChar cfg epic_id id (s.mill, p)
      { mill := filed.1, reevals := s.reevals.set i filed.2 }
  | .finish i =>
    (s.reevals[i]?.filter fun p => p.pending.isEmpty).map fun p =>
      { mill := EpicChildren.finish env isWordChar p s.mill, reevals := s.reevals.eraseIdx i }

/-- At most so many re-evaluations are under way, and nobody else files a child under the epic. -/
def admitted (parties : Nat) (s : EpicSystem) : EpicEvent → Bool
  | .call call => !call.filesUnder epic_id
  | .start _ _ _ => decide (s.reevals.length < parties)
  | .next _ _ | .finish _ => true

/-! ## The children that count -/

/-- The children that count as filed by a re-evaluation. -/
def reevalChildIds (σ : Mill) : Finset TicketId :=
  (childIds σ epic_id).filter fun tid => isReevalChild epic_id tid = true

section Counting

variable {env isWordChar cfg epic_id} {σ σ' : Mill}

/-- The count does not depend on the service that takes it. -/
theorem countReevalChildren_eq (svc : BoardId) :
    countReevalChildren epic_id (listChildrenAcrossBoards env svc epic_id σ) = (reevalChildIds epic_id σ).card := by
  have hnodup := @nodup_listChildren env svc σ epic_id
  unfold countReevalChildren reevalChildIds
  rw [← @toFinset_listChildren env svc, ← List.toFinset_filter,
    List.toFinset_card_of_nodup (hnodup.filter _), List.filter_map, List.length_map]
  rfl

theorem card_le_of_subset (h : childIds σ' epic_id ⊆ childIds σ epic_id) :
    (reevalChildIds epic_id σ').card ≤ (reevalChildIds epic_id σ).card :=
  Finset.card_le_card (Finset.filter_subset_filter _ h)

/-- One more child is at most one more that counts. -/
theorem card_put_le {k : Key} {new : TicketRecord} (hrec : σ'.records = σ.records.put k new) :
    (reevalChildIds epic_id σ').card ≤ (reevalChildIds epic_id σ).card + 1 := by
  have hsub : reevalChildIds epic_id σ' ⊆ insert k.2 (reevalChildIds epic_id σ) := by
    intro tid htid
    obtain ⟨hchild, hcounts⟩ := Finset.mem_filter.1 htid
    obtain ⟨board, r, hget, hparent⟩ := mem_childIds.1 hchild
    rw [hrec] at hget
    by_cases hk : (board, tid) = k
    · exact Finset.mem_insert.2 (.inl (congrArg Prod.snd hk))
    · rw [Table.get_put_ne _ _ hk] at hget
      exact Finset.mem_insert_of_mem (Finset.mem_filter.2 ⟨mem_childIds.2 ⟨board, r, hget, hparent⟩, hcounts⟩)
  exact (Finset.card_le_card hsub).trans (Finset.card_insert_le _ _)

/-! ### The end of a re-evaluation files nothing -/

theorem childIds_rescopeChild (svc : BoardId) (σ : Mill) (entry : TicketId × ChildFields) :
    childIds (rescopeChild env svc σ entry) epic_id ⊆ childIds σ epic_id := by
  have htitle : ∀ σ title, childIds (setTitle env svc entry.1 title σ).1 epic_id ⊆ childIds σ epic_id :=
    fun _ title => @childIds_call env _ _ (.setTitle svc entry.1 title) rfl
  have hbody : ∀ σ k f, childIds (setContentHash env svc entry.1 (σ.editWorkspace k f)).1 epic_id ⊆
      childIds σ epic_id := by
    intro σ k f
    have hedit : childIds (σ.editWorkspace k f) epic_id ⊆ childIds σ epic_id :=
      @childIds_call env _ _ (.editWorkspace k f) rfl
    exact (@childIds_call env _ _ (.setContentHash svc entry.1) rfl).trans hedit
  unfold rescopeChild
  dsimp only
  split
  · exact Finset.Subset.refl _
  split
  · exact Finset.Subset.refl _
  by_cases hno : isBlank (entry.2.title.getD "") = true
  · rw [if_pos hno]
    split
    · exact Finset.Subset.refl _
    · exact hbody _ _ _
  · rw [if_neg hno]
    split
    · exact htitle _ _
    · exact (hbody _ _ _).trans (htitle _ _)

theorem childIds_closeChild (svc : BoardId) (σ : Mill) (entry : TicketId × Option TicketId) :
    childIds (closeChild env isWordChar svc σ entry) epic_id ⊆ childIds σ epic_id := by
  unfold closeChild
  split
  · exact Finset.Subset.refl _
  split
  · exact Finset.Subset.refl _
  dsimp only
  split
  · exact Finset.Subset.refl _
  split
  · exact @childIds_call env _ _ (.op (.transition svc entry.1 .closed _ none)) rfl
  · exact Finset.Subset.refl _

theorem childIds_foldl {α : Type} {f : Mill → α → Mill}
    (hf : ∀ σ a, childIds (f σ a) epic_id ⊆ childIds σ epic_id) (l : List α) (σ : Mill) :
    childIds (l.foldl f σ) epic_id ⊆ childIds σ epic_id := by
  induction l generalizing σ with
  | nil => exact Finset.Subset.refl _
  | cons a l ih =>
    rw [List.foldl_cons]
    exact (ih (f σ a)).trans (hf σ a)

theorem childIds_finish (p : Reeval) (σ : Mill) :
    childIds (finish env isWordChar p σ) epic_id ⊆ childIds σ epic_id :=
  (childIds_foldl (childIds_closeChild p.svc) _ _).trans (childIds_foldl (childIds_rescopeChild p.svc) _ _)

end Counting

/-! ## The quota -/

/-- The count, and what each re-evaluation under way may still file. -/
def quota (s : EpicSystem) : Quota where
  count := (reevalChildIds epic_id s.mill).card
  allowances := s.reevals.map fun p => cfg.epicMaxReevalChildren - p.reevalCount

variable {env isWordChar cfg epic_id}

/-- **Each step is one of the quota.** -/
theorem quota_of_apply {parties : Nat} {s t : EpicSystem} {e : EpicEvent} (hok : admitted epic_id parties s e = true)
    (hstep : apply env isWordChar cfg epic_id s e = some t) :
    ReflTransGen (QuotaStep cfg.epicMaxReevalChildren parties) (quota cfg epic_id s) (quota cfg epic_id t) := by
  cases e with
  | call call =>
    obtain rfl := Option.some.inj hstep
    have hfiles : call.filesUnder epic_id = false := by simpa [admitted] using hok
    exact .single (.drop (card_le_of_subset (childIds_call hfiles)))
  | start svc now result =>
    obtain rfl := Option.some.inj hstep
    have hfree : (s.reevals.map fun p => cfg.epicMaxReevalChildren - p.reevalCount).length < parties := by
      rw [List.length_map]
      exact of_decide_eq_true hok
    have hjoin := @QuotaStep.join cfg.epicMaxReevalChildren parties (reevalChildIds epic_id s.mill).card _ hfree
    -- the count it reads is the one of the moment
    rw [← @countReevalChildren_eq env epic_id s.mill svc] at hjoin
    unfold quota
    rw [List.map_append, ← @countReevalChildren_eq env epic_id s.mill svc]
    exact .single hjoin
  | next i id =>
    obtain ⟨p, hp, rfl⟩ := Option.map_eq_some_iff.1 hstep
    have hallow : (s.reevals.map fun p => cfg.epicMaxReevalChildren - p.reevalCount)[i]? =
        some (cfg.epicMaxReevalChildren - p.reevalCount) := by
      rw [List.getElem?_map, hp]
      rfl
    unfold quota
    dsimp only
    rw [List.map_set]
    obtain ⟨hsame, pending, hreeval⟩ | ⟨new, hfiles⟩ :=
      @fileNext_cases env isWordChar cfg epic_id id (s.mill, p)
    · have hcount : reevalChildIds epic_id (fileNext env isWordChar cfg epic_id id (s.mill, p)).1 =
          reevalChildIds epic_id s.mill := by
        unfold reevalChildIds childIds
        rw [hsame]
      rw [hcount, hreeval]
      exact .single (.spend hallow (Nat.le_refl _) (Nat.le_refl _))
    · obtain ⟨pending, hreeval⟩ := hfiles.reeval
      have hroom : p.reevalCount < cfg.epicMaxReevalChildren := hfiles.room
      have hcard := @card_put_le epic_id _ _ _ _ hfiles.records
      rw [hreeval]
      refine .single (.spend hallow ?_ ?_)
      · exact Nat.sub_le_sub_left (Nat.le_succ _) _
      · dsimp only at hcard ⊢
        omega
  | finish i =>
    obtain ⟨p, hp, rfl⟩ := Option.map_eq_some_iff.1 hstep
    have hcount := card_le_of_subset (@childIds_finish env isWordChar epic_id p s.mill)
    have hdrop := @QuotaStep.drop cfg.epicMaxReevalChildren parties _ _
      (s.reevals.map fun p => cfg.epicMaxReevalChildren - p.reevalCount) hcount
    refine .tail (.single hdrop) ?_
    unfold quota
    dsimp only
    rw [← List.eraseIdx_map]
    exact .leave

/-- A store with one open epic. -/
def openEpic : Mill :=
  runOps .standalone .empty [.create "mill" { id := "20260101T000000Z-epic-0001", title := "epic", kind := .epic }]

/-- Two re-evaluations that have read the children before either files the follow-up both propose. -/
def overlappingReevals : List EpicEvent :=
  let proposal : ChildFields := { title := some "Add rollback test", body := some "Cover the rollback." }
  [.start "mill" 0 { newChildren := [proposal] }, .start "mill" 0 { newChildren := [proposal] },
    .next 0 "20260102T000000Z-add-rollback-test-00aa", .next 1 "20260102T000001Z-add-rollback-test-00bb"]

end EpicChildren
end Runtime
end RobotsixMill
