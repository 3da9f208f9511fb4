import Mathlib.Algebra.GroupWithZero.Nat
import Mathlib.Data.Finset.Insert
import Mathlib.Data.List.Nodup
import Mathlib.Data.List.Induction
import Mathlib.Logic.Function.Basic

/-!
# `Lib.Table` — finite keyed tables

A `Table κ α` is what a program sees of a database table with primary key `κ`: a partial map from keys
to rows together with its keys in insertion order. The two fields `nodup` and `mem_keys` tie them
together, so a table with a phantom or a doubled key cannot be built.

- `put` writes a row (a new key goes last), `erase` removes one, `discard` some; `upsert` writes a row from the one
  there, `update` writes the rows of another table, `ofPairs` those of a list, `groups` collects them by key;
- `rows` lists the rows in insertion order, the order a query without `ORDER BY` sees;
- `latestBy key` is the newest row of a query result;
- `AllRows P` says every row meets `P`; `put` and `erase` keep it (`AllRows.put`, `AllRows.erase`);
- `foldl_update_of_mem` — a loop that updates a map at distinct keys, read at one of them.
-/

namespace RobotsixMill
namespace Lib

/-- A finite partial map with its keys in insertion order. -/
structure Table (κ α : Type*) where
  get : κ → Option α
  keys : List κ
  nodup : keys.Nodup
  mem_keys : ∀ k, k ∈ keys ↔ get k ≠ none

namespace Table

variable {κ α : Type*}

/-- The table without rows. -/
def empty : Table κ α where
  get := fun _ => none
  keys := []
  nodup := List.nodup_nil
  mem_keys := by simp

/-- Does the table hold a row for `k`? -/
def has (t : Table κ α) (k : κ) : Bool := (t.get k).isSome

/-- The rows with their keys, oldest insertion first. -/
def rows (t : Table κ α) : List (κ × α) :=
  t.keys.filterMap fun k => (t.get k).map fun a => (k, a)

@[simp] theorem get_empty (k : κ) : (empty : Table κ α).get k = none := rfl

theorem keys_eq_nil_iff {t : Table κ α} : t.keys = [] ↔ ∀ k, t.get k = none := by
  rw [List.eq_nil_iff_forall_not_mem]
  exact forall_congr' fun k => by rw [t.mem_keys k, not_not]

theorem mem_rows {t : Table κ α} {k : κ} {a : α} : (k, a) ∈ t.rows ↔ t.get k = some a := by
  simp only [rows, List.mem_filterMap, Option.map_eq_some_iff, Prod.mk.injEq]
  constructor
  · rintro ⟨k', _, a', hget, rfl, rfl⟩
    exact hget
  · intro h
    exact ⟨k, (t.mem_keys k).2 (by simp [h]), a, h, rfl, rfl⟩

theorem map_fst_rows (t : Table κ α) : t.rows.map Prod.fst = t.keys := by
  have hall : ∀ l : List κ, (∀ k ∈ l, t.get k ≠ none) →
      (l.filterMap fun k => (t.get k).map fun a => (k, a)).map Prod.fst = l := by
    intro l
    induction l with
    | nil => intro _; rfl
    | cons k l ih =>
        intro hl
        obtain ⟨a, ha⟩ := Option.ne_none_iff_exists'.1 (hl k List.mem_cons_self)
        simp [ha, ih fun k' hk' => hl k' (List.mem_cons_of_mem _ hk')]
  exact hall t.keys fun k hk => (t.mem_keys k).1 hk

/-! ## Writing -/

section Write

variable [DecidableEq κ]

/-- Write the row of key `k`; a new key is appended. -/
def put (t : Table κ α) (k : κ) (a : α) : Table κ α where
  get := fun k' => if k' = k then some a else t.get k'
  keys := if k ∈ t.keys then t.keys else t.keys ++ [k]
  nodup := by
    by_cases hk : k ∈ t.keys
    · simpa [hk] using t.nodup
    · rw [if_neg hk]
      refine List.nodup_append.2 ⟨t.nodup, List.nodup_singleton k, ?_⟩
      intro a ha b hb hab
      rw [List.mem_singleton] at hb
      subst hb; subst hab; exact hk ha
  mem_keys := by
    intro k'
    by_cases hk' : k' = k
    · subst hk'
      by_cases hk : k' ∈ t.keys <;> simp [hk]
    · have := t.mem_keys k'
      by_cases hk : k ∈ t.keys <;> simp [hk, hk', this]

/-- Remove the row of key `k`. -/
def erase (t : Table κ α) (k : κ) : Table κ α where
  get := fun k' => if k' = k then none else t.get k'
  keys := t.keys.filter fun k' => !decide (k' = k)
  nodup := t.nodup.filter _
  mem_keys := by
    intro k'
    have := t.mem_keys k'
    by_cases hk' : k' = k <;> simp [hk', this]

@[simp] theorem get_put_self (t : Table κ α) (k : κ) (a : α) : (t.put k a).get k = some a := by
  simp [put]

@[simp] theorem get_put_ne (t : Table κ α) {k k' : κ} (a : α) (h : k' ≠ k) :
    (t.put k a).get k' = t.get k' := by
  simp [put, h]

@[simp] theorem get_erase_self (t : Table κ α) (k : κ) : (t.erase k).get k = none := by
  simp [erase]

@[simp] theorem get_erase_ne (t : Table κ α) {k k' : κ} (h : k' ≠ k) :
    (t.erase k).get k' = t.get k' := by
  simp [erase, h]

theorem mem_keys_put (t : Table κ α) {k k' : κ} (a : α) : k' ∈ (t.put k a).keys ↔ k' = k ∨ k' ∈ t.keys := by
  rw [mem_keys, mem_keys]
  by_cases hk : k' = k
  · subst hk
    simp
  · rw [get_put_ne t a hk]
    exact (or_iff_right hk).symm

/-- Erasing never adds a row. -/
theorem get_of_get_erase {t : Table κ α} {k k' : κ} {a : α} (h : (t.erase k).get k' = some a) :
    k' ≠ k ∧ t.get k' = some a := by
  by_cases hk : k' = k
  · subst hk; simp at h
  · rw [get_erase_ne t hk] at h; exact ⟨hk, h⟩

theorem get_foldl_erase (ks : List κ) (t : Table κ α) (k : κ) :
    (ks.foldl erase t).get k = if k ∈ ks then none else t.get k := by
  induction ks generalizing t with
  | nil => rfl
  | cons k' ks ih =>
      rw [List.foldl_cons, ih]
      by_cases hk : k = k'
      · subst hk
        simp
      · simp [hk]

/-- Delete the rows of the keys that are `gone`, going through a copy of the keys. -/
def discard (t : Table κ α) (gone : κ → Bool) : Table κ α := (t.keys.filter gone).foldl erase t

theorem get_discard (t : Table κ α) (gone : κ → Bool) (k : κ) :
    (t.discard gone).get k = if gone k then none else t.get k := by
  rw [discard, get_foldl_erase]
  cases hgone : gone k with
  | false =>
      have hk : k ∉ t.keys.filter gone := by
        intro hmem
        rw [(List.mem_filter.1 hmem).2] at hgone
        cases hgone
      rw [if_neg hk]
      rfl
  | true =>
      rw [if_pos rfl]
      split
      case isTrue => rfl
      case isFalse hk =>
        have hkeys : k ∉ t.keys := fun hmem => hk (List.mem_filter.2 ⟨hmem, hgone⟩)
        exact not_not.1 fun hget => hkeys ((t.mem_keys k).2 hget)

end Write

section Upsert

variable [DecidableEq κ] {β : Type*}

/-- Write the row of key `k` from what is there. -/
def upsert (t : Table κ α) (k : κ) (f : Option α → α) : Table κ α := t.put k (f (t.get k))

/-- `d.update(e)`. -/
def update (t e : Table κ α) : Table κ α := e.rows.foldl (fun t row => t.upsert row.1 fun _ => row.2) t

/-- **A grouping loop**: what it leaves under `k` comes from the items of that key alone. -/
theorem get_foldl_upsert (key : β → κ) (f : β → Option α → α) (l : List β) (t : Table κ α) (k : κ) :
    (l.foldl (fun t x => t.upsert (key x) (f x)) t).get k =
      (l.filter fun x => decide (key x = k)).foldl (fun o x => some (f x o)) (t.get k) := by
  induction l generalizing t with
  | nil => rfl
  | cons x l ih =>
      rw [List.foldl_cons, ih]
      by_cases hx : key x = k
      · subst hx
        rw [List.filter_cons_of_pos (by simp), List.foldl_cons, upsert, get_put_self]
      · rw [List.filter_cons_of_neg (by simpa using hx), upsert, get_put_ne t _ (Ne.symm hx)]

theorem filter_key_of_nodup {l : List (κ × α)} (hnd : (l.map Prod.fst).Nodup) {k : κ} {a : α}
    (h : (k, a) ∈ l) : (l.filter fun row => decide (row.1 = k)) = [(k, a)] := by
  obtain ⟨pre, post, rfl⟩ := List.append_of_mem h
  simp only [List.map_append, List.map_cons, List.nodup_append, List.nodup_cons, List.mem_map] at hnd
  have hpre : (pre.filter fun row => decide (row.1 = k)) = [] := by
    refine List.filter_eq_nil_iff.2 fun row hrow hk => ?_
    exact hnd.2.2 row.1 ⟨row, hrow, rfl⟩ k List.mem_cons_self (by simpa using hk)
  have hpost : (post.filter fun row => decide (row.1 = k)) = [] := by
    refine List.filter_eq_nil_iff.2 fun row hrow hk => ?_
    exact hnd.2.1.1 ⟨row, hrow, by simpa using hk⟩
  rw [List.filter_append, hpre, List.filter_cons_of_pos (by simp), hpost, List.nil_append]

/-- A key has at most one row. -/
theorem filter_rows (t : Table κ α) (k : κ) :
    (t.rows.filter fun row => decide (row.1 = k)) = ((t.get k).map fun a => (k, a)).toList := by
  cases hk : t.get k with
  | some a => exact filter_key_of_nodup (by rw [map_fst_rows]; exact t.nodup) (mem_rows.2 hk)
  | none =>
      refine List.filter_eq_nil_iff.2 ?_
      rintro ⟨k', a⟩ ha hk'
      have hk' : k' = k := by simpa using hk'
      subst hk'
      rw [mem_rows, hk] at ha
      cases ha

/-- Written rows win. -/
theorem get_update (t e : Table κ α) (k : κ) : (t.update e).get k = (e.get k).or (t.get k) := by
  rw [update, get_foldl_upsert Prod.fst (fun row _ => row.2), filter_rows]
  cases e.get k <;> rfl

/-- The table of some pairs; of two with one key the later stays. -/
def ofPairs (l : List (κ × α)) : Table κ α := l.foldl (fun t p => t.upsert p.1 fun _ => p.2) .empty

theorem get_ofPairs (l : List (κ × α)) (k : κ) :
    (ofPairs l).get k = ((l.filter fun p => decide (p.1 = k)).getLast?).map Prod.snd := by
  rw [ofPairs, get_foldl_upsert Prod.fst (fun p _ => p.2), get_empty]
  induction l.filter fun p => decide (p.1 = k) using List.reverseRecOn with
  | nil => rfl
  | append_singleton l p _ => simp

/-- Pairs with distinct keys all stay. -/
theorem get_ofPairs_iff {l : List (κ × α)} (hnd : (l.map Prod.fst).Nodup) {k : κ} {a : α} :
    (ofPairs l).get k = some a ↔ (k, a) ∈ l := by
  rw [get_ofPairs]
  constructor
  · intro h
    obtain ⟨⟨k', a'⟩, hlast, rfl⟩ := Option.map_eq_some_iff.1 h
    have hmem := List.mem_filter.1 (List.mem_of_getLast? hlast)
    have hkey : k' = k := of_decide_eq_true hmem.2
    rw [← hkey]
    exact hmem.1
  · intro h
    rw [filter_key_of_nodup hnd h]
    rfl

/-- Looking some keys up and keeping the answers is looking them up. -/
theorem get_ofPairs_filterMap (g : κ → Option α) (l : List κ) (k : κ) :
    (ofPairs (l.filterMap fun k' => (g k').map fun a => (k', a))).get k = if k ∈ l then g k else none := by
  rw [get_ofPairs]
  cases hlast : (((l.filterMap fun k' => (g k').map fun a => (k', a)).filter
      fun p => decide (p.1 = k)).getLast?) with
  | none =>
      rw [List.getLast?_eq_none_iff, List.filter_eq_nil_iff] at hlast
      split
      case isTrue hk =>
        cases hg : g k with
        | none => rfl
        | some a =>
            have hmem : (k, a) ∈ l.filterMap fun k' => (g k').map fun a => (k', a) :=
              List.mem_filterMap.2 ⟨k, hk, by simp [hg]⟩
            exact absurd (decide_eq_true rfl) (hlast _ hmem)
      case isFalse => rfl
  | some p =>
      have hp := List.mem_filter.1 (List.mem_of_getLast? hlast)
      obtain ⟨k', hk', hpair⟩ := List.mem_filterMap.1 hp.1
      obtain ⟨a, hg, rfl⟩ := Option.map_eq_some_iff.1 hpair
      have hkey : k' = k := of_decide_eq_true hp.2
      subst hkey
      rw [if_pos hk', hg]
      rfl

/-- A table built again, row by row. -/
theorem get_ofPairs_rows {β : Type*} (f : κ → α → β) (t : Table κ α) (k : κ) :
    (ofPairs (t.rows.map fun row => (row.1, f row.1 row.2))).get k = (t.get k).map (f k) := by
  have hrows : (t.rows.map fun row => (row.1, f row.1 row.2)) =
      t.keys.filterMap fun k' => ((t.get k').map (f k')).map fun b => (k', b) := by
    rw [rows, List.map_filterMap]
    exact List.filterMap_congr fun k' _ => by cases t.get k' <;> rfl
  rw [hrows, get_ofPairs_filterMap fun k' => (t.get k').map (f k')]
  split
  case isTrue => rfl
  case isFalse hk =>
    have hnone : t.get k = none := by
      by_contra h
      exact hk ((t.mem_keys k).2 h)
    rw [hnone]
    rfl

/-- `setdefault(k, set()).add(b)`, one pair after the other. -/
def groups [DecidableEq β] (l : List (κ × β)) : Table κ (Finset β) :=
  l.foldl (fun t p => t.upsert p.1 fun found => insert p.2 (found.getD ∅)) .empty

/-- **A group holds what is listed under its key.** -/
theorem mem_groups [DecidableEq β] {l : List (κ × β)} {k : κ} {b : β} :
    b ∈ ((groups l).get k).getD ∅ ↔ (k, b) ∈ l := by
  have hgroup : ∀ (ps : List (κ × β)) (found : Option (Finset β)),
      b ∈ (ps.foldl (fun o p => some (insert p.2 (o.getD ∅))) found).getD ∅ ↔
        b ∈ found.getD ∅ ∨ ∃ p ∈ ps, p.2 = b := by
    intro ps
    induction ps with
    | nil => simp
    | cons p ps ih =>
        intro found
        rw [List.foldl_cons, ih, Option.getD_some, Finset.mem_insert]
        simp only [List.mem_cons, exists_eq_or_imp]
        rw [← or_assoc, or_comm (a := b = p.2), eq_comm (a := b)]
  rw [groups, get_foldl_upsert Prod.fst (fun p found => insert p.2 (found.getD ∅)), get_empty, hgroup]
  constructor
  · rintro (hempty | ⟨⟨k', b'⟩, hp, rfl⟩)
    · exact absurd hempty (Finset.notMem_empty b)
    · obtain ⟨hmem, hkey⟩ := List.mem_filter.1 hp
      obtain rfl := of_decide_eq_true hkey
      exact hmem
  · intro hmem
    exact .inr ⟨(k, b), List.mem_filter.2 ⟨hmem, decide_eq_true rfl⟩, rfl⟩

end Upsert

/-- Change every row. -/
def mapRows (f : κ → α → α) (t : Table κ α) : Table κ α where
  get := fun k => (t.get k).map (f k)
  keys := t.keys
  nodup := t.nodup
  mem_keys := by
    intro k
    rw [t.mem_keys k]
    simp

@[simp] theorem get_mapRows (f : κ → α → α) (t : Table κ α) (k : κ) :
    (t.mapRows f).get k = (t.get k).map (f k) := rfl

/-! ## Counting rows -/

/-- How many rows meet `p`. -/
def count (p : α → Bool) (t : Table κ α) : Nat := (t.rows.filter fun row => p row.2).length

/-- What one row adds to the count. -/
def tally (p : α → Bool) : Option α → Nat
  | none => 0
  | some a => if p a then 1 else 0

@[simp] theorem tally_none (p : α → Bool) : tally p none = 0 := rfl

@[simp] theorem tally_some (p : α → Bool) (a : α) : tally p (some a) = if p a then 1 else 0 := rfl

theorem count_eq_sum (p : α → Bool) (t : Table κ α) :
    t.count p = (t.keys.map fun k => tally p (t.get k)).sum := by
  have hall : ∀ l : List κ, ((l.filterMap fun k => (t.get k).map fun a => (k, a)).filter
      fun row => p row.2).length = (l.map fun k => tally p (t.get k)).sum := by
    intro l
    induction l with
    | nil => rfl
    | cons k l ih =>
        rw [List.map_cons, List.sum_cons, ← ih]
        cases hk : t.get k with
        | none => simp [hk]
        | some a =>
            by_cases ha : p a = true
            · simp [hk, ha, Nat.add_comm]
            · simp [hk, ha]
  exact hall t.keys

/-- Sums over a duplicate-free list that differ at one place. -/
theorem sum_map_of_eq_off {f g : κ → Nat} {k : κ} {l : List κ} (hnd : l.Nodup) (hk : k ∈ l)
    (heq : ∀ x ∈ l, x ≠ k → f x = g x) : (l.map f).sum + g k = (l.map g).sum + f k := by
  induction l with
  | nil => cases hk
  | cons x l ih =>
      obtain ⟨hx, hnd⟩ := List.nodup_cons.1 hnd
      simp only [List.map_cons, List.sum_cons]
      by_cases hxk : x = k
      · subst hxk
        have htail : l.map f = l.map g := by
          refine List.map_congr_left fun y hy => ?_
          have hne : y ≠ x := fun h => hx (h ▸ hy)
          exact heq y (List.mem_cons_of_mem _ hy) hne
        rw [htail]
        omega
      · have hih := ih hnd ((List.mem_cons.1 hk).resolve_left (Ne.symm hxk))
          fun y hy => heq y (List.mem_cons_of_mem _ hy)
        have := heq x List.mem_cons_self hxk
        omega

section Count

variable [DecidableEq κ] {p : α → Bool} {t : Table κ α}

/-- Writing a row. -/
theorem count_put (k : κ) (b : α) :
    (t.put k b).count p + tally p (t.get k) = t.count p + tally p (some b) := by
  rw [count_eq_sum, count_eq_sum]
  by_cases hk : k ∈ t.keys
  · have hkeys : (t.put k b).keys = t.keys := by simp [put, hk]
    rw [hkeys]
    have := sum_map_of_eq_off t.nodup hk (f := fun x => tally p ((t.put k b).get x))
      (g := fun x => tally p (t.get x)) fun x _ hx => by rw [get_put_ne t b hx]
    rwa [get_put_self] at this
  · have hkeys : (t.put k b).keys = t.keys ++ [k] := by simp [put, hk]
    have hnone : t.get k = none := by
      by_contra h
      exact hk ((t.mem_keys k).2 h)
    have hrest : (t.keys.map fun x => tally p ((t.put k b).get x)) =
        t.keys.map fun x => tally p (t.get x) := by
      refine List.map_congr_left fun x hx => ?_
      have hne : x ≠ k := fun h => hk (h ▸ hx)
      rw [get_put_ne t b hne]
    rw [hkeys, hnone, List.map_append, List.sum_append, hrest]
    simp

/-- Removing a row. -/
theorem count_erase (k : κ) : (t.erase k).count p + tally p (t.get k) = t.count p := by
  have hrest : ∀ l : List κ, ((l.filter fun x => !decide (x = k)).map
      fun x => tally p ((t.erase k).get x)).sum = (l.map fun x => tally p ((t.erase k).get x)).sum := by
    intro l
    induction l with
    | nil => rfl
    | cons x l ih =>
        by_cases hx : x = k
        · subst hx
          simp [ih]
        · simp [hx, ih]
  rw [count_eq_sum, count_eq_sum]
  show ((t.keys.filter fun x => !decide (x = k)).map fun x => tally p ((t.erase k).get x)).sum + _ = _
  rw [hrest]
  by_cases hk : k ∈ t.keys
  · have := sum_map_of_eq_off t.nodup hk (f := fun x => tally p ((t.erase k).get x))
      (g := fun x => tally p (t.get x)) fun x _ hx => by rw [get_erase_ne t hx]
    simpa using this
  · have hnone : t.get k = none := by
      by_contra h
      exact hk ((t.mem_keys k).2 h)
    have hsame : (t.keys.map fun x => tally p ((t.erase k).get x)) =
        t.keys.map fun x => tally p (t.get x) := by
      refine List.map_congr_left fun x hx => ?_
      have hne : x ≠ k := fun h => hk (h ▸ hx)
      rw [get_erase_ne t hne]
    rw [hsame, hnone]
    rfl

/-- Overwriting a row that counts by one that does not. -/
theorem count_put_add_one {k : κ} {a b : α} (hget : t.get k = some a) (ha : p a = true)
    (hb : p b = false) : (t.put k b).count p + 1 = t.count p := by
  have := @count_put _ _ _ p t k b
  simpa [hget, ha, hb] using this

end Count

/-! ## Predicates on all rows -/

/-- Every row meets `P`. -/
def AllRows (P : κ → α → Prop) (t : Table κ α) : Prop := ∀ k a, t.get k = some a → P k a

variable {P : κ → α → Prop} {t : Table κ α}

theorem AllRows.empty : AllRows P (Table.empty : Table κ α) := by
  intro k a h; simp at h

theorem AllRows.put [DecidableEq κ] (h : AllRows P t) {k : κ} {a : α} (ha : P k a) :
    AllRows P (t.put k a) := by
  intro k' a' hget
  by_cases hk : k' = k
  · subst hk; rw [get_put_self] at hget; cases hget; exact ha
  · rw [get_put_ne t a hk] at hget; exact h k' a' hget

theorem AllRows.erase [DecidableEq κ] (h : AllRows P t) {k : κ} : AllRows P (t.erase k) := by
  intro k' a' hget
  exact h k' a' (get_of_get_erase hget).2

end Table

/-! ## The newest row -/

/-- The first entry with the largest `key`: `ORDER BY key DESC`, first row. -/
def latestBy {α : Type*} (key : α → Nat) (l : List α) : Option α :=
  l.foldl (fun best a =>
    match best with
    | none => some a
    | some b => if key b < key a then some a else some b) none

theorem mem_of_latestBy {α : Type*} {key : α → Nat} {l : List α} {a : α}
    (h : latestBy key l = some a) : a ∈ l := by
  have go : ∀ (l : List α) (best : Option α),
      l.foldl (fun best a =>
        match best with
        | none => some a
        | some b => if key b < key a then some a else some b) best = some a →
      best = some a ∨ a ∈ l := by
    intro l
    induction l with
    | nil => intro best hb; exact .inl hb
    | cons x l ih =>
        intro best hb
        rw [List.foldl_cons] at hb
        rcases ih _ hb with hx | hx
        · cases best with
          | none => exact .inr (by rw [Option.some.inj hx]; exact List.mem_cons_self)
          | some b =>
              dsimp only at hx
              split at hx
              · exact .inr (by rw [Option.some.inj hx]; exact List.mem_cons_self)
              · exact .inl hx
        · exact .inr (List.mem_cons_of_mem _ hx)
  simpa using go l none h

/-- No entry has a larger key. -/
theorem le_of_latestBy {α : Type*} {key : α → Nat} {l : List α} {a : α} (h : latestBy key l = some a) :
    ∀ b ∈ l, key b ≤ key a := by
  have go : ∀ (l : List α) (best : Option α),
      l.foldl (fun best a =>
        match best with
        | none => some a
        | some b => if key b < key a then some a else some b) best = some a →
      (∀ b, best = some b → key b ≤ key a) ∧ ∀ b ∈ l, key b ≤ key a := by
    intro l
    induction l with
    | nil =>
        intro best hb
        refine ⟨?_, fun b hb' => absurd hb' List.not_mem_nil⟩
        intro b hbest
        rw [List.foldl_nil, hbest] at hb
        exact Nat.le_of_eq (congrArg key (Option.some.inj hb))
    | cons x l ih =>
        intro best hb
        rw [List.foldl_cons] at hb
        obtain ⟨hbest, hl⟩ := ih _ hb
        cases best with
        | none =>
            refine ⟨fun b hnone => (by cases hnone), ?_⟩
            intro b hb'
            rcases List.mem_cons.1 hb' with rfl | hmem
            · exact hbest _ rfl
            · exact hl b hmem
        | some b₀ =>
            -- the larger of the two goes on
            have hboth : key b₀ ≤ key a ∧ key x ≤ key a := by
              dsimp only at hbest
              by_cases hlt : key b₀ < key x
              · have hx : key x ≤ key a := hbest x (by rw [if_pos hlt])
                exact ⟨by omega, hx⟩
              · have hb₀ : key b₀ ≤ key a := hbest b₀ (by rw [if_neg hlt])
                exact ⟨hb₀, by omega⟩
            refine ⟨fun b hb' => (by rw [← Option.some.inj hb']; exact hboth.1), ?_⟩
            intro b hb'
            rcases List.mem_cons.1 hb' with rfl | hmem
            · exact hboth.2
            · exact hl b hmem
  exact (go l none h).2

/-! ## Updates of a map at distinct keys -/

section Updates

variable {κ α β : Type*} [DecidableEq κ]

/-- A loop that updates a map at the keys of its entries leaves the others. -/
theorem foldl_update_of_not_mem (g : κ → β → α → α) {k : κ} {ts : List (κ × β)} (h : k ∉ ts.map Prod.fst)
    (f : κ → α) : ts.foldl (fun f t => Function.update f t.1 (g t.1 t.2 (f t.1))) f k = f k := by
  induction ts generalizing f with
  | nil => rfl
  | cons t ts ih =>
    rw [List.map_cons, List.mem_cons, not_or] at h
    rw [List.foldl_cons, ih h.2, Function.update_of_ne h.1]

/-- At distinct keys, each entry makes its own update. -/
theorem foldl_update_of_mem (g : κ → β → α → α) {k : κ} {b : β} {ts : List (κ × β)}
    (hnodup : (ts.map Prod.fst).Nodup) (h : (k, b) ∈ ts) (f : κ → α) :
    ts.foldl (fun f t => Function.update f t.1 (g t.1 t.2 (f t.1))) f k = g k b (f k) := by
  induction ts generalizing f with
  | nil => cases h
  | cons t ts ih =>
    obtain ⟨hnot, hrest⟩ := List.nodup_cons.1 hnodup
    rw [List.foldl_cons]
    rcases List.mem_cons.1 h with rfl | h
    · rw [foldl_update_of_not_mem g hnot, Function.update_self]
    · have hne : k ≠ t.1 := fun heq => hnot (heq ▸ List.mem_map_of_mem (f := Prod.fst) h)
      rw [ih hrest h, Function.update_of_ne hne]

end Updates

end Lib
end RobotsixMill
