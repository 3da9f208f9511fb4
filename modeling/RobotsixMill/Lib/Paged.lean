import Mathlib.Data.List.Basic

/-!
# `Lib.Paged` — a listing read page by page

A reader asks for the pages of a listing in turn, until one is shorter than a full page. A reply may also
refuse the reader, or be no page at all, and either ends the reading. The replies to come are a list of any
type `ρ`; when it runs out the reader is still waiting.

- `readPages` — the reading, with all it has got;
- `Ends` — where it ends, said of the replies;
- `readPages_of_ends`, `readPages_of_not_ends` — that it ends there, with what the pages before hold;
- `readPages_chunks` — with the pages of a list for replies it gets the list;
- `readPages_mapItems` — with the items mapped, it raises or gets the mapped items.
-/

namespace RobotsixMill
namespace Lib

/-- What a reply is to the reader. -/
inductive PageReply (α : Type*)
  | unauthorized
  | raised
  | items (l : List α)

/-- How a reading ends, with the replies that are left. -/
inductive PagesEnd (ρ α : Type*)
  | waiting
  | unauthorized (out : List α) (rest : List ρ)
  | raised (rest : List ρ)
  | done (out : List α) (rest : List ρ)

variable {ρ α : Type*} (size : Nat) (page : Nat → ρ → PageReply α)

/-- Reading from page `n` on, with `out` got before. -/
def readPages : Nat → List α → List ρ → PagesEnd ρ α
  | _, _, [] => .waiting
  | n, out, r :: rest =>
    match page n r with
    | .unauthorized => .unauthorized out rest
    | .raised => .raised rest
    -- a short page is the last one
    | .items l => if l.length < size then .done (out ++ l) rest else readPages (n + 1) (out ++ l) rest

/-- The reply is a full page. -/
def GoesOn (n : Nat) (r : ρ) : Prop := ∃ l, page n r = .items l ∧ size ≤ l.length

/-- The reading from page `n` on ends on the reply `r`, after `k` full pages. -/
structure Ends (n : Nat) (rs : List ρ) (k : Nat) (r : ρ) : Prop where
  full : ∀ j < k, ∃ r', rs[j]? = some r' ∧ GoesOn size page (n + j) r'
  last : rs[k]? = some r
  stops : ¬ GoesOn size page (n + k) r

/-- One of the first `k` pages holds `a`. -/
def Holds (n : Nat) (rs : List ρ) (k : Nat) (a : α) : Prop :=
  ∃ j < k, ∃ r l, rs[j]? = some r ∧ page (n + j) r = .items l ∧ a ∈ l

variable {size page} {n k : Nat} {r : ρ} {rs : List ρ}

theorem ends_zero : Ends size page n (r :: rs) 0 r ↔ ¬ GoesOn size page n r :=
  ⟨fun h => h.stops, fun h => ⟨fun _ hj => absurd hj (Nat.not_lt_zero _), rfl, h⟩⟩

/-- The index of a page after the first. -/
theorem page_index (n j : Nat) : n + (j + 1) = n + 1 + j := by omega

theorem ends_succ {r' : ρ} : Ends size page n (r' :: rs) (k + 1) r ↔
    GoesOn size page n r' ∧ Ends size page (n + 1) rs k r := by
  constructor
  · intro h
    refine ⟨?_, ?_, h.last, ?_⟩
    · obtain ⟨r₀, hr₀, hgo⟩ := h.full 0 (Nat.succ_pos k)
      cases hr₀
      exact hgo
    · intro j hj
      obtain ⟨r₁, hr₁, hgo⟩ := h.full (j + 1) (Nat.succ_lt_succ hj)
      exact ⟨r₁, hr₁, page_index n j ▸ hgo⟩
    · exact page_index n k ▸ h.stops
  · rintro ⟨hgo, h⟩
    refine ⟨?_, h.last, (page_index n k).symm ▸ h.stops⟩
    intro j hj
    cases j with
    | zero => exact ⟨r', rfl, hgo⟩
    | succ j =>
        obtain ⟨r₁, hr₁, hgo⟩ := h.full j (Nat.lt_of_succ_lt_succ hj)
        exact ⟨r₁, hr₁, (page_index n j).symm ▸ hgo⟩

theorem holds_last (h : rs[k]? = some r) {a : α} : Holds page n rs (k + 1) a ↔
    Holds page n rs k a ∨ ∃ l, page (n + k) r = .items l ∧ a ∈ l := by
  constructor
  · rintro ⟨j, hj, r₀, l, hr₀, hl, ha⟩
    rcases Nat.lt_succ_iff_lt_or_eq.1 hj with hlt | rfl
    · exact .inl ⟨j, hlt, r₀, l, hr₀, hl, ha⟩
    · rw [h] at hr₀
      cases hr₀
      exact .inr ⟨l, hl, ha⟩
  · rintro (⟨j, hj, hrest⟩ | ⟨l, hl, ha⟩)
    · exact ⟨j, Nat.lt_succ_of_lt hj, hrest⟩
    · exact ⟨k, Nat.lt_succ_self k, r, l, h, hl, ha⟩

/-- What the full pages before the end hold, page by page. -/
theorem readPages_of_full (h : Ends size page n rs k r) {got : Nat → List α}
    (hgot : ∀ j < k, ∃ r', rs[j]? = some r' ∧ page (n + j) r' = .items (got j)) (out : List α) :
    readPages size page n out rs =
      match page (n + k) r with
      | .unauthorized => .unauthorized (out ++ (List.range k).flatMap got) (rs.drop (k + 1))
      | .raised => .raised (rs.drop (k + 1))
      | .items l => .done (out ++ (List.range k).flatMap got ++ l) (rs.drop (k + 1)) := by
  induction rs generalizing n k out got with
  | nil => cases h.last
  | cons r' rs ih =>
      cases k with
      | zero =>
          -- the first reply is the end
          obtain rfl : r' = r := Option.some.inj h.last
          have hstops := ends_zero.1 h
          rw [readPages, Nat.add_zero, List.range_zero, List.flatMap_nil, List.append_nil]
          cases hreply : page n r' with
          | unauthorized => rfl
          | raised => rfl
          | items l =>
              have hshort : l.length < size := by
                by_contra hlong
                exact hstops ⟨l, hreply, Nat.le_of_not_lt hlong⟩
              dsimp only
              rw [if_pos hshort]
              rfl
      | succ k =>
          obtain ⟨⟨l, hl, hlong⟩, hrest⟩ := ends_succ.1 h
          obtain ⟨r₀, hr₀, hfirst⟩ := hgot 0 (Nat.succ_pos k)
          obtain rfl : r' = r₀ := Option.some.inj hr₀
          -- the first page is full, and the reading goes on behind it
          have hl' : l = got 0 := by
            rw [Nat.add_zero, hl] at hfirst
            exact PageReply.items.inj hfirst
          have hgot' : ∀ j < k, ∃ r'', rs[j]? = some r'' ∧ page (n + 1 + j) r'' = .items (got (j + 1)) := by
            intro j hj
            obtain ⟨r₁, hr₁, hpage⟩ := hgot (j + 1) (Nat.succ_lt_succ hj)
            exact ⟨r₁, hr₁, page_index n j ▸ hpage⟩
          have hflat : (List.range (k + 1)).flatMap got = got 0 ++ (List.range k).flatMap fun j => got (j + 1) := by
            rw [List.range_succ_eq_map, List.flatMap_cons, List.flatMap_map]
          rw [readPages, hl]
          dsimp only
          rw [if_neg (Nat.not_lt.2 hlong), ih hrest hgot' (out ++ l), page_index n k, hl', hflat]
          simp only [List.append_assoc, List.drop_succ_cons]

/-- **A reading ends** where it is said to, with what the pages before hold. -/
theorem readPages_of_ends (h : Ends size page n rs k r) (out : List α) :
    ∃ got, (∀ a, a ∈ got ↔ Holds page n rs k a) ∧ readPages size page n out rs =
      match page (n + k) r with
      | .unauthorized => .unauthorized (out ++ got) (rs.drop (k + 1))
      | .raised => .raised (rs.drop (k + 1))
      | .items l => .done (out ++ got ++ l) (rs.drop (k + 1)) := by
  have hpages : ∀ j, ∃ l, j < k → ∃ r', rs[j]? = some r' ∧ page (n + j) r' = .items l := by
    intro j
    by_cases hj : j < k
    · obtain ⟨r', hr', l, hl, -⟩ := h.full j hj
      exact ⟨l, fun _ => ⟨r', hr', hl⟩⟩
    · exact ⟨[], fun hlt => absurd hlt hj⟩
  choose got hgot using hpages
  refine ⟨(List.range k).flatMap got, fun a => ?_, readPages_of_full h hgot out⟩
  constructor
  · intro ha
    obtain ⟨j, hj, ha⟩ := List.mem_flatMap.1 ha
    have hlt := List.mem_range.1 hj
    obtain ⟨r', hr', hl⟩ := hgot j hlt
    exact ⟨j, hlt, r', _, hr', hl, ha⟩
  · rintro ⟨j, hj, r', l, hr', hl, ha⟩
    -- the page has one reply, and the reply one list of items
    obtain ⟨r₁, hr₁, hl₁⟩ := hgot j hj
    obtain rfl : r₁ = r' := Option.some.inj (hr₁.symm.trans hr')
    obtain rfl : got j = l := PageReply.items.inj (hl₁.symm.trans hl)
    exact List.mem_flatMap.2 ⟨j, List.mem_range.2 hj, ha⟩

/-- A reading that ends nowhere is waiting. -/
theorem readPages_of_not_ends (h : ¬ ∃ k r, Ends size page n rs k r) (out : List α) :
    readPages size page n out rs = .waiting := by
  induction rs generalizing n out with
  | nil => rfl
  | cons r' rs ih =>
      -- otherwise it would end on the first reply
      have hgo : GoesOn size page n r' := by
        by_contra hstops
        exact h ⟨0, r', ends_zero.2 hstops⟩
      obtain ⟨l, hl, hlong⟩ := hgo
      rw [readPages, hl]
      dsimp only
      rw [if_neg (Nat.not_lt.2 hlong)]
      refine ih ?_ (out ++ l)
      rintro ⟨k, r, hends⟩
      exact h ⟨k + 1, r, ends_succ.2 ⟨⟨l, hl, hlong⟩, hends⟩⟩

/-- **With the pages of a list for replies**, the list is got. -/
theorem readPages_chunks (hsize : 0 < size) {xs : List α}
    (h : ∀ j ≤ xs.length / size, ∃ r, rs[j]? = some r ∧ page (n + j) r = .items ((xs.drop (size * j)).take size))
    (out : List α) :
    readPages size page n out rs = .done (out ++ xs) (rs.drop (xs.length / size + 1)) := by
  induction rs generalizing n xs out with
  | nil =>
      obtain ⟨r, hr, -⟩ := h 0 (Nat.zero_le _)
      cases hr
  | cons r rs ih =>
      obtain ⟨r₀, hr₀, hfirst⟩ := h 0 (Nat.zero_le _)
      obtain rfl : r = r₀ := Option.some.inj hr₀
      rw [Nat.add_zero, Nat.mul_zero, List.drop_zero] at hfirst
      rw [readPages, hfirst]
      dsimp only
      by_cases hshort : xs.length < size
      · rw [List.take_of_length_le (Nat.le_of_lt hshort), if_pos hshort, Nat.div_eq_of_lt hshort]
        rfl
      · have hlong : size ≤ xs.length := Nat.le_of_not_lt hshort
        -- a full page first, and the pages of what is left of the list
        have hpages : xs.length / size = (xs.drop size).length / size + 1 := by
          rw [List.length_drop, Nat.div_eq_sub_div hsize hlong]
        rw [if_neg (by rw [List.length_take, Nat.min_eq_left hlong]; exact Nat.lt_irrefl size)]
        have hrest : ∀ j ≤ (xs.drop size).length / size, ∃ r, rs[j]? = some r ∧
            page (n + 1 + j) r = .items (((xs.drop size).drop (size * j)).take size) := by
          intro j hj
          obtain ⟨r₁, hr₁, hpage⟩ := h (j + 1) (by omega)
          refine ⟨r₁, hr₁, ?_⟩
          rw [← page_index, hpage, List.drop_drop, Nat.mul_succ, Nat.add_comm size]
        rw [ih hrest (out ++ xs.take size), List.append_assoc, List.take_append_drop, hpages]
        rfl

/-! ## Mapped items -/

/-- A page with every item mapped; an item that cannot be mapped raises. -/
def PageReply.mapItems {β : Type*} (f : α → Option β) : PageReply α → PageReply β
  | .unauthorized => .unauthorized
  | .raised => .raised
  | .items l => (l.mapM f).elim .raised .items

theorem mapM_some (xs : List α) : xs.mapM some = some xs := by
  induction xs with
  | nil => rfl
  | cons x xs ih =>
      rw [List.mapM_cons, ih]
      rfl

theorem PageReply.mapItems_some (p : PageReply α) : p.mapItems some = p := by
  cases p with
  | items l =>
      unfold PageReply.mapItems
      dsimp only
      rw [mapM_some]
      rfl
  | unauthorized => rfl
  | raised => rfl

/-- The mapped reading ends as the other one does, with the mapped items. -/
def PagesEnd.MapsTo {β : Type*} (f : α → Option β) : PagesEnd ρ α → PagesEnd ρ β → Prop
  | .waiting, .waiting => True
  | .unauthorized out rest, .unauthorized out' rest' => out.mapM f = some out' ∧ rest' = rest
  | .raised rest, .raised rest' => rest' = rest
  | .done out rest, .done out' rest' => out.mapM f = some out' ∧ rest' = rest
  | _, _ => False

theorem PagesEnd.MapsTo.unauthorized {β : Type*} {f : α → Option β} {out : List α} {rest : List ρ}
    {ending : PagesEnd ρ β} (h : (PagesEnd.unauthorized out rest).MapsTo f ending) :
    ∃ out', ending = .unauthorized out' rest := by
  cases ending with
  | unauthorized out' rest' => exact ⟨out', by rw [h.2]⟩
  | _ => exact h.elim

theorem mapM_append_some {β : Type*} {f : α → Option β} {xs ys : List α} {xs' ys' : List β}
    (hx : xs.mapM f = some xs') (hy : ys.mapM f = some ys') : (xs ++ ys).mapM f = some (xs' ++ ys') := by
  rw [List.mapM_append, hx, hy]
  rfl

theorem length_of_mapM {β : Type*} {f : α → Option β} {xs : List α} {xs' : List β} (h : xs.mapM f = some xs') :
    xs'.length = xs.length := by
  induction xs generalizing xs' with
  | nil =>
      cases h
      rfl
  | cons x xs ih =>
      rw [List.mapM_cons] at h
      obtain ⟨b, -, h⟩ := Option.bind_eq_some_iff.1 h
      obtain ⟨bs, hbs, h⟩ := Option.bind_eq_some_iff.1 h
      cases h
      exact congrArg (· + 1) (ih hbs)

/-- **With the items mapped**, the reading raises, or it ends as before. -/
theorem readPages_mapItems {β : Type*} (f : α → Option β) {out : List α} {out' : List β}
    (hout : out.mapM f = some out') :
    (∃ rest, readPages size (fun n r => (page n r).mapItems f) n out' rs = .raised rest) ∨
      (readPages size page n out rs).MapsTo f (readPages size (fun n r => (page n r).mapItems f) n out' rs) := by
  induction rs generalizing n out out' with
  | nil => exact .inr trivial
  | cons r rs ih =>
      rw [readPages, readPages]
      cases hreply : page n r with
      | unauthorized => exact .inr ⟨hout, rfl⟩
      | raised => exact .inr rfl
      | items l =>
          cases hmap : l.mapM f with
          | none =>
              left
              refine ⟨rs, ?_⟩
              dsimp only [PageReply.mapItems]
              rw [hmap]
              rfl
          | some l' =>
              -- mapping keeps the number of items, so the page is short in both readings or in none
              have happend := mapM_append_some hout hmap
              dsimp only [PageReply.mapItems]
              rw [hmap]
              dsimp only [Option.elim]
              rw [length_of_mapM hmap]
              by_cases hshort : l.length < size
              · rw [if_pos hshort, if_pos hshort]
                exact .inr ⟨happend, rfl⟩
              · rw [if_neg hshort, if_neg hshort]
                exact ih happend

end Lib
end RobotsixMill
