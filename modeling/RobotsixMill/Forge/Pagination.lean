import Mathlib.Data.List.TakeDrop
import RobotsixMill.Forge.Http

/-!
# `Forge.Pagination` — a paginated listing, and what its caller gets

`_paginated_get` asks for the pages of a listing until one has fewer than a hundred items, whatever page size the
caller's own parameters ask for. A 401 ends an attempt. The second attempt is the last, and what it has got when a
401 ends it is returned.

- `Failure`, `Pattern` — what may come instead of the pages;
- `paginatedGet` — the loop over the attempts;
- `StopsAt`, `GoodStop`, `Complete` — where an attempt stops, and whether nothing is lost there;
- `complete_or_fallback_iff` — the patterns of failures for which the caller gets the whole list or the fallback.
-/

namespace RobotsixMill
namespace Forge
namespace Pagination
open Lib

/-! ## The listing -/

/-- The caller's own parameters that the pages depend on; the others select the listing. -/
structure PageParams where
  perPage : Option Nat := none
  page : Option Nat := none

/-- An item of the listing is an object. -/
abbrev Item := List (String × Json)

/-- What comes instead of a page. -/
inductive Failure
  | unauthorized
  | errorStatus (code : Nat) (isError : code ≠ 401 ∧ ¬ (200 ≤ code ∧ code < 300))
  | transport
  /-- A body that is no JSON, or not that of a page. -/
  | malformed (body : Option Json) (notPage : ∀ l, body ≠ some (.arr l))

def Failure.reply : Failure → Reply
  | .unauthorized => .answer 401 none
  | .errorStatus code _ => .answer code none
  | .transport => .transportError
  | .malformed body _ => .answer 200 body

/-- Everything that goes wrong, request by request. -/
structure Pattern where
  /-- The headers of the first attempt cannot be made. -/
  noClient : Bool := false
  /-- Those of the second, or the token cannot be refreshed. -/
  noRefresh : Bool := false
  failures : Nat → Option Failure

/-- What a call returns: a list, or any other value a caller has given as the fallback. -/
inductive Value (α : Type)
  | list (l : List α)
  | other (repr : String)

section Listing

variable (items : List Item) (params : PageParams)

/-- `per_page`, as the API gets it. -/
def PageParams.size : Nat := params.perPage.getD PER_PAGE

/-- All items, as they are sent. -/
def allItems : List Json := items.map .obj

/-- The page that is served to the request for page `n`. -/
def pageItems (n : Nat) : List Json := ((allItems items).drop (params.size * (params.page.getD n - 1))).take params.size

/-- A reply to the request for page `n`, and what the loop finds in it. -/
def readReply (n : Nat) (failure : Option Failure) : PageReply Json :=
  match receive (failure.elim (.answer 200 (some (.arr (pageItems items params n)))) Failure.reply) with
  | .unauthorized => .unauthorized
  | .raised => .raised
  | .json body => body.iterate.elim .raised .items

/-- How an attempt ends for the caller; after a 401 it gives what it has got. -/
def settle {α : Type} (fallback : Value α) : PagesEnd (Option Failure) α → Option (Value α)
  | .waiting => none
  | .raised _ => some fallback
  | .done out _ => some (.list out)
  | .unauthorized out _ => some (.list out)

/-- One attempt: the loop over the pages. -/
def attempt {α : Type} (item : Json → Option α) (answers : List (Option Failure)) : PagesEnd (Option Failure) α :=
  readPages PER_PAGE (fun n failure => (readReply items params n failure).mapItems item) 1 [] answers

/-- `_paginated_get`, with these answers to its requests; `none` while it waits for another one. -/
def paginatedGet {α : Type} (item : Json → Option α) (fallback : Value α) (noClient noRefresh : Bool)
    (answers : List (Option Failure)) : Option (Value α) :=
  if noClient then some fallback
  else
    match attempt items params item answers with
    -- a second attempt from page one, with a fresh token
    | .unauthorized _ rest => if noRefresh then some fallback else settle fallback (attempt items params item rest)
    | ending => settle fallback ending

/-- The answers to the first `N` requests. -/
def Pattern.answers (pattern : Pattern) (N : Nat) : List (Option Failure) := (List.range N).map pattern.failures

/-- The call returns this value. -/
def Returns {α : Type} (item : Json → Option α) (fallback : Value α) (pattern : Pattern) (v : Value α) : Prop :=
  ∃ N, paginatedGet items params item fallback pattern.noClient pattern.noRefresh (pattern.answers N) = some v

/-- The call returns the whole list, with every item mapped, or the fallback. -/
def CompleteOrFallback (pattern : Pattern) : Prop :=
  ∀ (α : Type) (item : Json → Option α) (fallback : Value α),
    ∃ v, Returns items params item fallback pattern v ∧
      (v = fallback ∨ ∃ out, (allItems items).mapM item = some out ∧ v = .list out)

/-! ## Where an attempt stops -/

variable (pattern : Pattern)

/-- Page `j + 1` of the attempt that begins with request `start` has a hundred entries. -/
def Full (start j : Nat) : Prop :=
  match pattern.failures (start + j) with
  | none => PER_PAGE ≤ (pageItems items params (j + 1)).length
  | some (.malformed (some body) _) => ∃ l, body.iterate = some l ∧ PER_PAGE ≤ l.length
  | some _ => False

/-- The attempt stops at its page `k + 1`. -/
def StopsAt (start k : Nat) : Prop := (∀ j < k, Full items params pattern start j) ∧ ¬ Full items params pattern start k

/-- The pages before are those of the API. -/
def Served (start k : Nat) : Prop := ∀ j < k, pattern.failures (start + j) = none

/-- The first `c` pages that are asked for make up the list. -/
def MakesUp (c : Nat) : Prop := ((List.range c).flatMap fun j => pageItems items params (j + 1)) = allItems items

/-- The attempt stops with an exception, or with the whole list: on a short page, on a 401, or on an empty object or
    text that is taken for one. -/
def GoodStop (start k : Nat) : Prop :=
  match pattern.failures (start + k) with
  | none => Served pattern start k ∧ MakesUp items params (k + 1)
  | some .unauthorized => Served pattern start k ∧ MakesUp items params k
  | some (.malformed (some body) _) =>
    body.iterate = none ∨ body.iterate = some [] ∧ Served pattern start k ∧ MakesUp items params k
  | some _ => True

/-- The attempt that counts, which is the second if the first is ended by a 401, has a good stop. -/
def Complete : Prop :=
  pattern.noClient = true ∨
    ∃ k, StopsAt items params pattern 0 k ∧
      match pattern.failures k with
      | some .unauthorized =>
        pattern.noRefresh = true ∨ ∃ m, StopsAt items params pattern (k + 1) m ∧ GoodStop items params pattern (k + 1) m
      | _ => GoodStop items params pattern 0 k

end Listing

variable {items : List Item} {params : PageParams} {pattern : Pattern}

/-- Without a page of the caller's own, so many pages make up the list as it takes. -/
theorem makesUp_iff (h : params.page = none) (c : Nat) : MakesUp items params c ↔ items.length ≤ c * params.size := by
  have htake : ((List.range c).flatMap fun j => pageItems items params (j + 1)) =
      (allItems items).take (c * params.size) := by
    induction c with
    | zero => rw [List.range_zero, List.flatMap_nil, Nat.zero_mul, List.take_zero]
    | succ c ih =>
      -- one page more takes the next `size` items
      rw [List.range_succ, List.flatMap_append, List.flatMap_singleton, ih, pageItems, h, Option.getD_none,
        Nat.add_sub_cancel, Nat.succ_mul, List.take_add, Nat.mul_comm c]
  rw [MakesUp, htake, List.take_eq_self_iff, allItems, List.length_map]

/-! ## One attempt -/

/-- What the loop finds on page `j + 1` of an attempt. -/
def entries (items : List Item) (params : PageParams) (pattern : Pattern) (start j : Nat) : List Json :=
  match pattern.failures (start + j) with
  | none => pageItems items params (j + 1)
  | some (.malformed (some body) _) => body.iterate.getD []
  | some _ => []

theorem readReply_none (n : Nat) : readReply items params n none = .items (pageItems items params n) := by
  unfold readReply
  rw [Option.elim_none, receive_ok]
  rfl

theorem readReply_malformed (n : Nat) {body : Json} (h : ∀ l, some body ≠ some (.arr l)) :
    readReply items params n (some (.malformed (some body) h)) = body.iterate.elim .raised .items := by
  unfold readReply
  rw [Option.elim_some, Failure.reply, receive_ok]

theorem readReply_unauthorized (n : Nat) : readReply items params n (some .unauthorized) = .unauthorized := rfl

/-- Any other failure is an exception. -/
theorem readReply_raised (n : Nat) {failure : Failure} (hunauthorized : failure ≠ .unauthorized)
    (hbody : ∀ body h, failure ≠ .malformed (some body) h) : readReply items params n (some failure) = .raised := by
  unfold readReply
  rw [Option.elim_some]
  cases failure with
  | unauthorized => exact absurd rfl hunauthorized
  | transport => rfl
  | errorStatus code isError =>
    unfold Failure.reply receive
    dsimp only
    rw [if_neg isError.1, if_neg isError.2]
  | malformed body notPage =>
    cases body with
    | none => rfl
    | some body => exact absurd rfl (hbody body notPage)

theorem eq_unauthorized_of_readReply {n : Nat} {failure : Option Failure}
    (h : readReply items params n failure = .unauthorized) : failure = some .unauthorized := by
  cases failure with
  | none =>
    rw [readReply_none] at h
    cases h
  | some failure =>
    by_cases hunauthorized : failure = .unauthorized
    · rw [hunauthorized]
    by_cases hbody : ∃ body h, failure = .malformed (some body) h
    · obtain ⟨body, hbody, rfl⟩ := hbody
      rw [readReply_malformed] at h
      cases hiterate : body.iterate with
      | none =>
        rw [hiterate] at h
        cases h
      | some l =>
        rw [hiterate] at h
        cases h
    · rw [readReply_raised n hunauthorized fun body hnot heq => hbody ⟨body, hnot, heq⟩] at h
      cases h

theorem goesOn_iff (start j : Nat) :
    GoesOn PER_PAGE (readReply items params) (1 + j) (pattern.failures (start + j)) ↔
      Full items params pattern start j := by
  unfold GoesOn Full
  rw [Nat.add_comm 1 j]
  cases hfailure : pattern.failures (start + j) with
  | none =>
    rw [readReply_none]
    exact ⟨fun ⟨l, hl, hlong⟩ => PageReply.items.inj hl ▸ hlong, fun hlong => ⟨_, rfl, hlong⟩⟩
  | some failure =>
    split
    · cases ‹some failure = none›
    · rename_i body h heq
      cases heq
      rw [readReply_malformed]
      cases body.iterate with
      | none => simp
      | some l => simp
    · rename_i hother heq
      cases heq
      refine iff_of_false ?_ id
      rintro ⟨l, hl, -⟩
      by_cases hunauthorized : failure = .unauthorized
      · rw [hunauthorized, readReply_unauthorized] at hl
        cases hl
      · rw [readReply_raised _ hunauthorized hother] at hl
        cases hl

/-- A full page holds its entries. -/
theorem readReply_of_full {start j : Nat} (h : Full items params pattern start j) :
    readReply items params (1 + j) (pattern.failures (start + j)) = .items (entries items params pattern start j) := by
  unfold Full at h
  unfold entries
  rw [Nat.add_comm 1 j]
  cases hfailure : pattern.failures (start + j) with
  | none => exact readReply_none _
  | some failure =>
    rw [hfailure] at h
    split at h
    · cases ‹some failure = none›
    · rename_i body hbody heq
      cases heq
      obtain ⟨l, hl, -⟩ := h
      rw [readReply_malformed, hl]
      rfl
    · exact h.elim

theorem getElem?_answers {start j N : Nat} (h : start + j < N) :
    ((pattern.answers N).drop start)[j]? = some (pattern.failures (start + j)) := by
  rw [List.getElem?_drop, Pattern.answers, List.getElem?_map, List.getElem?_range h]
  rfl

/-- Where the reading of an attempt ends. -/
theorem ends_iff {start k N : Nat} {r : Option Failure} :
    Ends PER_PAGE (readReply items params) 1 ((pattern.answers N).drop start) k r ↔
      start + k < N ∧ r = pattern.failures (start + k) ∧ StopsAt items params pattern start k := by
  constructor
  · intro h
    have hlt : start + k < N := by
      have hk := (List.getElem?_eq_some_iff.1 h.last).1
      rw [List.length_drop, Pattern.answers, List.length_map, List.length_range] at hk
      omega
    have hr : r = pattern.failures (start + k) := Option.some.inj (h.last.symm.trans (getElem?_answers hlt))
    refine ⟨hlt, hr, fun j hj => ?_, ?_⟩
    · obtain ⟨r', hr', hgo⟩ := h.full j hj
      rw [getElem?_answers (by omega)] at hr'
      rw [← goesOn_iff, Option.some.inj hr']
      exact hgo
    · rw [← goesOn_iff, ← hr]
      exact h.stops
  · rintro ⟨hlt, rfl, hfull, hstops⟩
    refine ⟨fun j hj => ⟨_, getElem?_answers (by omega), (goesOn_iff start j).2 (hfull j hj)⟩, getElem?_answers hlt, ?_⟩
    rw [goesOn_iff]
    exact hstops

/-- **What an attempt gets** that stops at page `k + 1`, before the items are mapped. -/
theorem readPages_of_stopsAt {start k N : Nat} (h : StopsAt items params pattern start k) (hN : start + k < N) :
    readPages PER_PAGE (readReply items params) 1 [] ((pattern.answers N).drop start) =
      match readReply items params (1 + k) (pattern.failures (start + k)) with
      | .unauthorized =>
        .unauthorized ((List.range k).flatMap (entries items params pattern start))
          ((pattern.answers N).drop (start + k + 1))
      | .raised => .raised ((pattern.answers N).drop (start + k + 1))
      | .items l =>
        .done ((List.range k).flatMap (entries items params pattern start) ++ l)
          ((pattern.answers N).drop (start + k + 1)) := by
  have hgot : ∀ j < k, ∃ r', ((pattern.answers N).drop start)[j]? = some r' ∧
      readReply items params (1 + j) r' = .items (entries items params pattern start j) :=
    fun j hj => ⟨_, getElem?_answers (by omega), readReply_of_full (h.1 j hj)⟩
  have hread := readPages_of_full (ends_iff.2 ⟨hN, rfl, h⟩) hgot []
  rw [List.drop_drop, ← Nat.add_assoc] at hread
  rw [hread]
  cases readReply items params (1 + k) (pattern.failures (start + k)) <;> rfl

/-- What the loop finds in an object or in a text is text, and no item is. -/
theorem eq_nil_of_iterate {body : Json} {es : List Json} (hbody : ∀ l, some body ≠ some (.arr l))
    (hes : body.iterate = some es) (hmem : ∀ e ∈ es, e ∈ allItems items) : es = [] := by
  refine List.eq_nil_iff_forall_not_mem.2 fun e he => ?_
  have htext : ∃ s, e = .str s := by
    cases body with
    | arr l => exact absurd rfl (hbody l)
    | str s =>
      rw [← Option.some.inj hes] at he
      obtain ⟨c, -, rfl⟩ := List.mem_map.1 he
      exact ⟨_, rfl⟩
    | obj fields =>
      rw [← Option.some.inj hes] at he
      obtain ⟨field, -, rfl⟩ := List.mem_map.1 he
      exact ⟨_, rfl⟩
    | _ => cases hes
  -- an item is an object
  obtain ⟨s, rfl⟩ := htext
  obtain ⟨item, -, hitem⟩ := List.mem_map.1 (hmem _ he)
  cases hitem

/-- Pages of the API alone make up what their entries do; what else is read is no object. -/
theorem flatMap_entries_eq_iff {start k : Nat} (h : ∀ j < k, Full items params pattern start j) (l : List Json) :
    (List.range k).flatMap (entries items params pattern start) ++ l = allItems items ↔
      Served pattern start k ∧
        ((List.range k).flatMap fun j => pageItems items params (j + 1)) ++ l = allItems items := by
  have hserved : Served pattern start k → (List.range k).flatMap (entries items params pattern start) =
      (List.range k).flatMap fun j => pageItems items params (j + 1) := by
    intro hserved
    refine List.flatMap_congr fun j hj => ?_
    rw [entries, hserved j (List.mem_range.1 hj)]
  constructor
  · intro hall
    have hall' : Served pattern start k := by
      intro j hj
      have hfull := h j hj
      unfold Full at hfull
      cases hfailure : pattern.failures (start + j) with
      | none => rfl
      | some failure =>
        rw [hfailure] at hfull
        split at hfull
        · assumption
        · rename_i body hbody heq
          cases heq
          obtain ⟨es, hes, hlong⟩ := hfull
          -- its entries are among the items, so it has none, and is not a full page
          have hempty : es = [] := by
            refine eq_nil_of_iterate hbody hes fun e he => hall ▸ List.mem_append_left _ ?_
            refine List.mem_flatMap.2 ⟨j, List.mem_range.2 hj, ?_⟩
            rw [entries, hfailure]
            dsimp only
            rw [hes]
            exact he
          rw [hempty] at hlong
          exact absurd hlong (by decide)
        · exact hfull.elim
    exact ⟨hall', hserved hall' ▸ hall⟩
  · rintro ⟨hall, heq⟩
    rw [hserved hall]
    exact heq

/-- What an attempt has got that stops at page `k + 1`; nothing after an exception. -/
def got (items : List Item) (params : PageParams) (pattern : Pattern) (start k : Nat) : Option (List Json) :=
  match readReply items params (1 + k) (pattern.failures (start + k)) with
  | .unauthorized => some ((List.range k).flatMap (entries items params pattern start))
  | .raised => none
  | .items l => some ((List.range k).flatMap (entries items params pattern start) ++ l)

/-- A stop is good if nothing is got, or all. -/
theorem goodStop_iff {start k : Nat} (h : StopsAt items params pattern start k) :
    GoodStop items params pattern start k ↔
      got items params pattern start k = none ∨ got items params pattern start k = some (allItems items) := by
  have hentries := flatMap_entries_eq_iff h.1
  have hnil := hentries []
  simp only [List.append_nil] at hnil
  unfold GoodStop got
  rw [Nat.add_comm 1 k]
  cases hfailure : pattern.failures (start + k) with
  | none =>
    have hmakes : MakesUp items params (k + 1) ↔
        ((List.range k).flatMap fun j => pageItems items params (j + 1)) ++ pageItems items params (k + 1) =
          allItems items := by
      rw [MakesUp, List.range_succ, List.flatMap_append, List.flatMap_singleton]
    rw [readReply_none]
    simp only [reduceCtorEq, false_or, Option.some.injEq]
    rw [hentries, hmakes]
  | some failure =>
    cases failure with
    | unauthorized =>
      rw [readReply_unauthorized]
      simp only [reduceCtorEq, false_or, Option.some.injEq]
      exact hnil.symm
    | errorStatus code isError =>
      rw [readReply_raised _ (by simp) (by simp)]
      simp
    | transport =>
      rw [readReply_raised _ (by simp) (by simp)]
      simp
    | malformed body notPage =>
      cases body with
      | none =>
        rw [readReply_raised _ (by simp) (by simp)]
        simp
      | some body =>
        rw [readReply_malformed]
        show body.iterate = none ∨ body.iterate = some [] ∧ Served pattern start k ∧ MakesUp items params k ↔ _
        cases hbody : body.iterate with
        | none => exact iff_of_true (.inl rfl) (.inl rfl)
        | some l =>
          simp only [Option.elim_some, reduceCtorEq, false_or, Option.some.injEq]
          constructor
          · rintro ⟨rfl, hall⟩
            rw [List.append_nil]
            exact hnil.2 hall
          · intro hall
            have hempty : l = [] := eq_nil_of_iterate notPage hbody fun e he => hall ▸ List.mem_append_right _ he
            rw [hempty, List.append_nil] at hall
            exact ⟨hempty, hnil.1 hall⟩

/-! ## The attempts -/

/-- Items that are left as they are. -/
theorem attempt_some (answers : List (Option Failure)) :
    attempt items params some answers = readPages PER_PAGE (readReply items params) 1 [] answers := by
  unfold attempt
  simp only [PageReply.mapItems_some]

theorem settle_attempt_some {start k N : Nat} (h : StopsAt items params pattern start k) (hN : start + k < N)
    (fallback : Value Json) :
    settle fallback (attempt items params some ((pattern.answers N).drop start)) =
      some ((got items params pattern start k).elim fallback .list) := by
  rw [attempt_some, readPages_of_stopsAt h hN]
  unfold got
  cases readReply items params (1 + k) (pattern.failures (start + k)) <;> rfl

/-- An attempt that does not wait has stopped. -/
theorem exists_stopsAt {start N : Nat}
    (h : attempt items params some ((pattern.answers N).drop start) ≠ .waiting) :
    ∃ k, start + k < N ∧ StopsAt items params pattern start k := by
  by_contra hnot
  refine h ?_
  rw [attempt_some]
  refine readPages_of_not_ends ?_ []
  rintro ⟨k, r, hends⟩
  obtain ⟨hlt, -, hstops⟩ := ends_iff.1 hends
  exact hnot ⟨k, hlt, hstops⟩

/-- A mapped attempt raises, or ends as the attempt itself. -/
theorem attempt_mapsTo {α : Type} (items : List Item) (params : PageParams) (item : Json → Option α)
    (answers : List (Option Failure)) :
    (∃ rest, attempt items params item answers = .raised rest) ∨
      (attempt items params some answers).MapsTo item (attempt items params item answers) := by
  rw [attempt_some]
  exact readPages_mapItems item rfl

/-- Nothing or all, mapped. -/
theorem settle_of_mapsTo {α : Type} {item : Json → Option α} {ending : PagesEnd (Option Failure) Json}
    {ending' : PagesEnd (Option Failure) α} (hmaps : ending.MapsTo item ending') (fallback : Value α)
    (h : settle (.other "None") ending = some (.other "None") ∨
      settle (.other "None") ending = some (.list (allItems items))) :
    ∃ v, settle fallback ending' = some v ∧
      (v = fallback ∨ ∃ out, (allItems items).mapM item = some out ∧ v = .list out) := by
  match ending, ending', hmaps with
  | .waiting, .waiting, _ => exact absurd h (by simp [settle])
  | .raised _, .raised _, _ => exact ⟨fallback, rfl, .inl rfl⟩
  | .unauthorized out _, .unauthorized out' _, ⟨hout, _⟩ =>
    have hall : out = allItems items := by simpa [settle] using h
    exact ⟨_, rfl, .inr ⟨out', hall ▸ hout, rfl⟩⟩
  | .done out _, .done out' _, ⟨hout, _⟩ =>
    have hall : out = allItems items := by simpa [settle] using h
    exact ⟨_, rfl, .inr ⟨out', hall ▸ hout, rfl⟩⟩

/-- With a good stop, the items are mapped or the fallback is returned. -/
theorem settle_of_goodStop {α : Type} {start k N : Nat} (h : StopsAt items params pattern start k)
    (hN : start + k < N) (hgood : GoodStop items params pattern start k) (item : Json → Option α)
    (fallback : Value α) :
    ∃ v, settle fallback (attempt items params item ((pattern.answers N).drop start)) = some v ∧
      (v = fallback ∨ ∃ out, (allItems items).mapM item = some out ∧ v = .list out) := by
  -- what the attempt gets with the items as they are decides it for mapped items
  have hraw := settle_attempt_some h hN (.other "None")
  rcases attempt_mapsTo items params item ((pattern.answers N).drop start) with
    ⟨rest, hraised⟩ | hmaps
  · rw [hraised]
    exact ⟨fallback, rfl, .inl rfl⟩
  · refine settle_of_mapsTo hmaps fallback ?_
    rw [hraw]
    rcases (goodStop_iff h).1 hgood with hgot | hgot
    · exact .inl (by rw [hgot]; rfl)
    · exact .inr (by rw [hgot]; rfl)

/-- Conversely, the stop of items that are left as they are is good. -/
theorem goodStop_of_settle {start k N : Nat} (h : StopsAt items params pattern start k) (hN : start + k < N)
    {v : Value Json} (hv : settle (.other "None") (attempt items params some ((pattern.answers N).drop start)) = some v)
    (hgood : v = .other "None" ∨ v = .list (allItems items)) : GoodStop items params pattern start k := by
  rw [settle_attempt_some h hN, Option.some.injEq] at hv
  refine (goodStop_iff h).2 ?_
  cases hgot : got items params pattern start k with
  | none => exact .inl rfl
  | some out =>
    rw [hgot] at hv
    rw [← hv] at hgood
    simpa using hgood

/-- A 401 ends the attempt, and the answers behind it are those of the second. -/
theorem attempt_of_unauthorized {k N : Nat} (h : StopsAt items params pattern 0 k) (hN : k < N)
    (hunauthorized : pattern.failures k = some .unauthorized) :
    ∃ out, attempt items params some (pattern.answers N) = .unauthorized out ((pattern.answers N).drop (k + 1)) := by
  -- the first attempt has the answers from the start
  have hread := readPages_of_stopsAt h (by rwa [Nat.zero_add] : 0 + k < N)
  rw [Nat.zero_add, hunauthorized, readReply_unauthorized, List.drop_zero] at hread
  rw [attempt_some]
  exact ⟨_, hread⟩

theorem attempt_ne_unauthorized {k N : Nat} (h : StopsAt items params pattern 0 k) (hN : k < N)
    (hother : pattern.failures k ≠ some .unauthorized) (out : List Json) (rest : List (Option Failure)) :
    attempt items params some (pattern.answers N) ≠ .unauthorized out rest := by
  have hread := readPages_of_stopsAt h (by rwa [Nat.zero_add] : 0 + k < N)
  rw [Nat.zero_add, List.drop_zero] at hread
  rw [attempt_some, hread]
  cases hreply : readReply items params (1 + k) (pattern.failures k) with
  | unauthorized => exact absurd (eq_unauthorized_of_readReply hreply) hother
  | raised => simp
  | items l => simp

section Call

variable {α : Type} {item : Json → Option α} {fallback : Value α} {noRefresh : Bool} {answers : List (Option Failure)}

theorem paginatedGet_of_unauthorized {out : List α} {rest : List (Option Failure)}
    (h : attempt items params item answers = .unauthorized out rest) :
    paginatedGet items params item fallback false noRefresh answers =
      if noRefresh then some fallback else settle fallback (attempt items params item rest) := by
  unfold paginatedGet
  rw [if_neg Bool.false_ne_true, h]

theorem paginatedGet_of_ne (h : ∀ out rest, attempt items params item answers ≠ .unauthorized out rest) :
    paginatedGet items params item fallback false noRefresh answers =
      settle fallback (attempt items params item answers) := by
  unfold paginatedGet
  rw [if_neg Bool.false_ne_true]
  cases hattempt : attempt items params item answers with
  | unauthorized out rest => exact absurd hattempt (h out rest)
  | _ => rfl

/-- An item that cannot be mapped ends the first attempt, and the call. -/
theorem paginatedGet_of_raised {rest : List (Option Failure)}
    (h : attempt items params item answers = .raised rest) :
    paginatedGet items params item fallback false noRefresh answers = some fallback := by
  rw [paginatedGet_of_ne (by simp [h]), h]
  rfl

end Call

/-- A good attempt that counts gives every caller the whole list or the fallback. -/
theorem completeOrFallback_of_complete (h : Complete items params pattern) :
    CompleteOrFallback items params pattern := by
  intro α item fallback
  cases hclient : pattern.noClient with
  | true => exact ⟨fallback, ⟨0, by rw [paginatedGet, if_pos hclient]⟩, .inl rfl⟩
  | false =>
    rcases h with hclient' | ⟨k, hstops, hgood⟩
    · rw [hclient] at hclient'
      cases hclient'
    unfold Returns
    rw [hclient]
    by_cases hunauthorized : pattern.failures k = some .unauthorized
    · rw [hunauthorized] at hgood
      -- long enough for both attempts
      obtain ⟨N, hN, hend⟩ : ∃ N, k < N ∧ (pattern.noRefresh = true ∨
          ∃ m, StopsAt items params pattern (k + 1) m ∧ k + 1 + m < N ∧ GoodStop items params pattern (k + 1) m) := by
        rcases hgood with hrefresh | ⟨m, hstops', hgood'⟩
        · exact ⟨k + 1, Nat.lt_succ_self k, .inl hrefresh⟩
        · exact ⟨k + 1 + m + 1, by omega, .inr ⟨m, hstops', Nat.lt_succ_self _, hgood'⟩⟩
      -- an item that cannot be mapped ends the call before the 401 does
      obtain ⟨out, hattempt⟩ := attempt_of_unauthorized hstops hN hunauthorized
      rcases attempt_mapsTo items params item (pattern.answers N) with ⟨rest, hraised⟩ | hmaps
      · exact ⟨fallback, ⟨N, paginatedGet_of_raised hraised⟩, .inl rfl⟩
      rw [hattempt] at hmaps
      obtain ⟨out', hattempt'⟩ := hmaps.unauthorized
      rcases hend with hrefresh | ⟨m, hstops', hN', hgood'⟩
      · exact ⟨fallback, ⟨N, by rw [paginatedGet_of_unauthorized hattempt', if_pos hrefresh]⟩, .inl rfl⟩
      · cases hrefresh : pattern.noRefresh with
        | true => exact ⟨fallback, ⟨N, by rw [paginatedGet_of_unauthorized hattempt', if_pos rfl]⟩, .inl rfl⟩
        | false =>
          obtain ⟨v, hv, hvalue⟩ := settle_of_goodStop hstops' hN' hgood' item fallback
          exact ⟨v, ⟨N, by rw [paginatedGet_of_unauthorized hattempt', if_neg Bool.false_ne_true, hv]⟩, hvalue⟩
    · -- the first attempt is the one that counts
      have hgood' : GoodStop items params pattern 0 k := by
        split at hgood
        · contradiction
        · exact hgood
      obtain ⟨v, hv, hvalue⟩ :=
        settle_of_goodStop hstops (by omega : 0 + k < k + 1) hgood' item fallback
      rw [List.drop_zero] at hv
      refine ⟨v, ⟨k + 1, ?_⟩, hvalue⟩
      rcases attempt_mapsTo items params item (pattern.answers (k + 1)) with
        ⟨rest, hraised⟩ | hmaps
      · rw [paginatedGet_of_raised hraised, ← hv, hraised]
        rfl
      · rw [paginatedGet_of_ne ?_, hv]
        intro out rest heq
        rw [heq] at hmaps
        have hne := attempt_ne_unauthorized hstops (Nat.lt_succ_self k) hunauthorized
        cases hattempt : attempt items params some (pattern.answers (k + 1)) with
        | unauthorized out rest => exact hne out rest hattempt
        | _ =>
          rw [hattempt] at hmaps
          exact hmaps

/-- What a caller gets who takes the items as they are settles the attempt that counts. -/
theorem complete_of_returns {v : Value Json} (h : Returns items params some (.other "None") pattern v)
    (hgood : v = .other "None" ∨ v = .list (allItems items)) : Complete items params pattern := by
  obtain ⟨N, hv⟩ := h
  cases hclient : pattern.noClient with
  | true => exact .inl hclient
  | false =>
    rw [hclient] at hv
    -- a call that returns does not wait, in either attempt
    have hended : attempt items params some ((pattern.answers N).drop 0) ≠ .waiting := by
      intro hwaiting
      rw [List.drop_zero] at hwaiting
      rw [paginatedGet_of_ne (by simp [hwaiting]), hwaiting] at hv
      cases hv
    obtain ⟨k, hN, hstops⟩ := exists_stopsAt hended
    rw [Nat.zero_add] at hN
    refine .inr ⟨k, hstops, ?_⟩
    by_cases hunauthorized : pattern.failures k = some .unauthorized
    · rw [hunauthorized]
      obtain ⟨out, hattempt⟩ := attempt_of_unauthorized hstops hN hunauthorized
      rw [paginatedGet_of_unauthorized hattempt] at hv
      cases hrefresh : pattern.noRefresh with
      | true => exact .inl rfl
      | false =>
        rw [hrefresh, if_neg Bool.false_ne_true] at hv
        have hended' : attempt items params some ((pattern.answers N).drop (k + 1)) ≠ .waiting := by
          intro hwaiting
          rw [hwaiting] at hv
          cases hv
        obtain ⟨m, hN', hstops'⟩ := exists_stopsAt hended'
        exact .inr ⟨m, hstops', goodStop_of_settle hstops' hN' hv hgood⟩
    · rw [paginatedGet_of_ne (attempt_ne_unauthorized hstops hN hunauthorized)] at hv
      have hstop : GoodStop items params pattern 0 k :=
        goodStop_of_settle hstops (by omega : 0 + k < N) (List.drop_zero ▸ hv) hgood
      split
      · contradiction
      · exact hstop

theorem complete_of_completeOrFallback (h : CompleteOrFallback items params pattern) :
    Complete items params pattern := by
  obtain ⟨v, hv, hvalue⟩ := h Json some (.other "None")
  refine complete_of_returns hv (hvalue.imp_right ?_)
  rintro ⟨out, hout, rfl⟩
  rw [mapM_some, Option.some.injEq] at hout
  rw [hout]

/-- **The caller gets the whole list or the fallback** exactly where the attempt that counts has a good stop. -/
theorem complete_or_fallback_iff : CompleteOrFallback items params pattern ↔ Complete items params pattern :=
  ⟨complete_of_completeOrFallback, completeOrFallback_of_complete⟩

/-- A 401 on page two of both attempts. -/
def secondPageRefused : Pattern where
  failures n := if n = 1 ∨ n = 3 then some .unauthorized else none

/-- The first hundred of a hundred and one items are returned as if they were all. -/
theorem partial_list_returned :
    ¬ ∀ items params pattern, CompleteOrFallback items params pattern := by
  intro h
  let items : List Item := List.replicate 101 []
  have hfull : ∀ start, secondPageRefused.failures start = none → Full items {} secondPageRefused start 0 := by
    intro start hstart
    unfold Full
    rw [Nat.add_zero, hstart]
    show PER_PAGE ≤ (((allItems items).drop (PER_PAGE * 0)).take PER_PAGE).length
    rw [Nat.mul_zero, List.drop_zero, List.length_take, allItems, List.length_map, List.length_replicate]
    decide
  -- each attempt has one full page before its 401
  have hstop : ∀ start k, StopsAt items {} secondPageRefused start k → secondPageRefused.failures start = none →
      secondPageRefused.failures (start + 1) = some .unauthorized → k = 1 := by
    intro start k hstops hfirst hsecond
    have hrefused : ¬ Full items {} secondPageRefused start 1 := by
      unfold Full
      rw [hsecond]
      exact id
    have hle : k ≤ 1 := by
      by_contra hlt
      exact hrefused (hstops.1 1 (by omega))
    have hne : k ≠ 0 := by
      rintro rfl
      exact hstops.2 (hfull start hfirst)
    omega
  have hcomplete := complete_of_completeOrFallback (h items {} secondPageRefused)
  rcases hcomplete with hclient | ⟨k, hstops, hgood⟩
  · cases hclient
  obtain rfl := hstop 0 k hstops rfl rfl
  rcases hgood with hrefresh | ⟨m, hstops', hgood'⟩
  · cases hrefresh
  obtain rfl := hstop 2 m hstops' rfl rfl
  have hmakes : MakesUp items {} 1 := hgood'.2
  rw [makesUp_iff rfl, List.length_replicate] at hmakes
  exact absurd hmakes (by decide)

end Pagination
end Forge
end RobotsixMill
