import Mathlib.Data.List.Basic
import Mathlib.Data.List.Nodup

/-!
# `Lib.HashChain` — hash-linked lists

A record of type `ε` names the digest of its predecessor (`prevOf`) and carries a digest of its own
(`hashOf`); `sound e` says that `e`'s digest is the one its content yields. A list is `Chained` from a
starting link `p` when every record is sound and names the digest of the record before it. The rules
below say how chains are extended, restarted and cut.
-/

namespace RobotsixMill
namespace Lib
namespace HashChain

variable {ε η : Type*} (prevOf : ε → Option η) (hashOf : ε → η) (sound : ε → Prop)

/-- Every record is sound and links to the one before it; the first links to `p`. -/
def Chained : Option η → List ε → Prop
  | _, [] => True
  | p, e :: es => prevOf e = p ∧ sound e ∧ Chained (some (hashOf e)) es

/-- The link a next record must carry: the digest of the last record, `p` if there is none. -/
def tip (p : Option η) (es : List ε) : Option η :=
  match es.getLast? with
  | none => p
  | some e => some (hashOf e)

variable {prevOf hashOf sound}

@[simp] theorem tip_nil (p : Option η) : tip hashOf p [] = p := rfl

@[simp] theorem tip_append_singleton (p : Option η) (es : List ε) (e : ε) :
    tip hashOf p (es ++ [e]) = some (hashOf e) := by
  simp [tip]

theorem tip_cons (p : Option η) (e : ε) (es : List ε) :
    tip hashOf p (e :: es) = tip hashOf (some (hashOf e)) es := by
  cases h : es.getLast? with
  | none => rw [List.getLast?_eq_none_iff] at h; subst h; simp [tip]
  | some l => simp [tip, List.getLast?_cons, h]

/-- Two chains joined at the tip of the first are one chain. -/
theorem chained_append {p : Option η} {es fs : List ε} :
    Chained prevOf hashOf sound p (es ++ fs) ↔
      Chained prevOf hashOf sound p es ∧
        Chained prevOf hashOf sound (tip hashOf p es) fs := by
  induction es generalizing p with
  | nil => simp [Chained]
  | cons e es ih =>
      rw [List.cons_append, tip_cons]
      constructor
      · rintro ⟨hp, hs, hrest⟩
        obtain ⟨h1, h2⟩ := ih.1 hrest
        exact ⟨⟨hp, hs, h1⟩, h2⟩
      · rintro ⟨⟨hp, hs, h1⟩, h2⟩
        exact ⟨hp, hs, ih.2 ⟨h1, h2⟩⟩

/-- A chain is extended by a sound record that links to its tip. -/
theorem Chained.snoc {p : Option η} {es : List ε} {e : ε}
    (h : Chained prevOf hashOf sound p es) (hp : prevOf e = tip hashOf p es) (hs : sound e) :
    Chained prevOf hashOf sound p (es ++ [e]) :=
  chained_append.2 ⟨h, hp, hs, trivial⟩

/-- Every record of a chain is sound. -/
theorem Chained.sound_of_mem {p : Option η} {es : List ε}
    (h : Chained prevOf hashOf sound p es) : ∀ e ∈ es, sound e := by
  induction es generalizing p with
  | nil => simp
  | cons a es ih =>
      obtain ⟨_, hs, hrest⟩ := h
      intro e he
      rcases List.mem_cons.1 he with rfl | he
      · exact hs
      · exact ih hrest e he

/-- A record that has a predecessor in the chain names a digest. -/
theorem Chained.prevOf_eq_tip {p : Option η} {es fs : List ε} {e : ε}
    (h : Chained prevOf hashOf sound p (es ++ e :: fs)) : prevOf e = tip hashOf p es :=
  ((chained_append.1 h).2).1

/-- The links of a chain, with the one a next record must carry, are its start and its digests. -/
theorem Chained.links {p : Option η} {es : List ε} (h : Chained prevOf hashOf sound p es) :
    es.map prevOf ++ [tip hashOf p es] = p :: es.map fun e => some (hashOf e) := by
  induction es generalizing p with
  | nil => rfl
  | cons e es ih =>
      obtain ⟨hp, -, hrest⟩ := h
      rw [tip_cons, List.map_cons, List.cons_append, hp, ih hrest, List.map_cons]

/-- Where digests do not collide, no two records of a chain share their predecessor. -/
theorem Chained.nodup_prevOf {es : List ε} (h : Chained prevOf hashOf sound none es)
    (hd : (es.map hashOf).Nodup) : (es.map prevOf).Nodup := by
  have hall : (none :: es.map fun e => some (hashOf e)).Nodup := by
    refine List.nodup_cons.2 ⟨by simp, ?_⟩
    have hmap : (es.map fun e => some (hashOf e)) = (es.map hashOf).map some := by simp
    rw [hmap]
    exact List.Nodup.map (fun _ _ => Option.some.inj) hd
  rw [← h.links] at hall
  exact (List.nodup_append.1 hall).1

/-- A record linked into the middle of a chain shares its predecessor with the one that stands there. -/
theorem Chained.not_nodup_of_fork {p : Option η} {es fs : List ε} {e e' : ε}
    (h : Chained prevOf hashOf sound p (es ++ e' :: fs)) (he : prevOf e = tip hashOf p es) :
    ¬ ((es ++ e' :: fs ++ [e]).map prevOf).Nodup := by
  intro hd
  rw [List.map_append] at hd
  have hmem : prevOf e ∈ (es ++ e' :: fs).map prevOf := by
    rw [he, ← h.prevOf_eq_tip]
    exact List.mem_map.2 ⟨e', by simp, rfl⟩
  exact (List.nodup_append.1 hd).2.2 _ hmem (prevOf e) (by simp) rfl

/-- The beginning of a chain is a chain. -/
theorem Chained.initial {p : Option η} {es fs : List ε} (h : Chained prevOf hashOf sound p fs)
    (hpre : es <+: fs) : Chained prevOf hashOf sound p es := by
  obtain ⟨gs, rfl⟩ := hpre
  exact (chained_append.1 h).1

end HashChain
end Lib
end RobotsixMill
