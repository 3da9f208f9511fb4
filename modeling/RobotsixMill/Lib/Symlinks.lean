import RobotsixMill.Lib.Acyclic
import RobotsixMill.Lib.Table
import Mathlib.Data.List.Infix

/-!
# `Lib.Symlinks` — what a path names, and how it is resolved

A location is the list of the names that lead to it from the root of a file system; a table says which locations are
symbolic links, and where to. Anything that is not a link is a plain entry here, whether it exists or not.

- `walk` — what the operating system opens: it follows every link on its way, and may go on forever;
- `realpath` — how Python resolves a path that need not exist: it follows each link once, and leaves a link that leads
  back to itself where it is;
- `settled_realpath` — what names are resolved to is not a link that leads elsewhere, nor is any directory on the way.
-/

namespace RobotsixMill
namespace Lib

/-- The names from the root to an entry of a file system. -/
abbrev Location := List String

/-- The text of a link: from the root, or from the directory that the link is in. -/
structure LinkTarget where
  absolute : Bool
  names : List String
deriving DecidableEq, Repr

/-- The symbolic links of a file system. -/
abbrev Links := Table Location LinkTarget

/-- The directory in which the names of a target begin. -/
def LinkTarget.start (target : LinkTarget) (dir : Location) : Location := if target.absolute then [] else dir

/-- A name that stands for the directory it is read in. -/
def staysHere (name : String) : Bool := name == "" || name == "."

/-! ## What the operating system opens -/

/-- Where a name leads from a directory, and the names that a link puts before those that follow. -/
def enter (links : Links) (dir : Location) (name : String) : Location × List String :=
  if staysHere name then (dir, [])
  else if name = ".." then (dir.dropLast, [])
  else match links.get (dir ++ [name]) with
    | none => (dir ++ [name], [])
    | some target => (target.start dir, target.names)

/-- The location that names lead to from a directory, in at most so many steps. -/
def walk (links : Links) : Nat → Location → List String → Option Location
  | _, dir, [] => some dir
  | 0, _, _ :: _ => none
  | k + 1, dir, name :: names => walk links k (enter links dir name).1 ((enter links dir name).2 ++ names)

/-- The names lead there. -/
def Opens (links : Links) (dir : Location) (names : List String) (loc : Location) : Prop :=
  ∃ k, walk links k dir names = some loc

/-- A link that leads nowhere. -/
def Dead (links : Links) (dir : Location) (name : String) : Prop := ∀ loc, ¬ Opens links dir [name] loc

variable {links : Links} {dir loc : Location} {name : String} {names : List String}

theorem enter_link {target : LinkTarget} (hstays : staysHere name = false) (hup : name ≠ "..")
    (hlink : links.get (dir ++ [name]) = some target) :
    enter links dir name = (target.start dir, target.names) := by
  rw [enter, hstays, if_neg Bool.false_ne_true, if_neg hup, hlink]

theorem enter_plain (hstays : staysHere name = false) (hup : name ≠ "..") (hlink : links.get (dir ++ [name]) = none) :
    enter links dir name = (dir ++ [name], []) := by
  rw [enter, hstays, if_neg Bool.false_ne_true, if_neg hup, hlink]

theorem walk_nil (k : Nat) : walk links k dir [] = some dir := by
  cases k <;> rw [walk]

/-- A walk comes to the end of its first names, and goes on with the others in fewer steps. -/
theorem walk_append {k : Nat} {first rest : List String} (h : walk links k dir (first ++ rest) = some loc) :
    ∃ mid i j, walk links i dir first = some mid ∧ walk links j mid rest = some loc ∧ i ≤ k ∧ j ≤ k ∧
      (first ≠ [] → j < k) := by
  induction k generalizing dir first with
  | zero =>
      cases first with
      | nil => exact ⟨dir, 0, 0, walk_nil 0, h, le_rfl, le_rfl, fun hne => absurd rfl hne⟩
      | cons name first =>
          rw [List.cons_append, walk] at h
          cases h
  | succ k ih =>
      cases first with
      | nil => exact ⟨dir, 0, k + 1, walk_nil 0, h, Nat.zero_le _, le_rfl, fun hne => absurd rfl hne⟩
      | cons name first =>
          rw [List.cons_append, walk, ← List.append_assoc] at h
          obtain ⟨mid, i, j, hfirst, hrest, hi, hj, -⟩ := ih h
          refine ⟨mid, i + 1, j, ?_, hrest, Nat.succ_le_succ hi, Nat.le_succ_of_le hj, fun _ => Nat.lt_succ_of_le hj⟩
          rw [walk]
          exact hfirst

theorem walk_cons {k : Nat} (h : walk links k dir (name :: names) = some loc) :
    ∃ mid i j, walk links i dir [name] = some mid ∧ walk links j mid names = some loc ∧ i ≤ k ∧ j < k := by
  have h : walk links k dir ([name] ++ names) = some loc := h
  obtain ⟨mid, i, j, hname, hnames, hi, -, hj⟩ := walk_append h
  exact ⟨mid, i, j, hname, hnames, hi, hj (List.cons_ne_nil _ _)⟩

/-! ## How Python resolves a path -/

/-- What is still to be done: a name to read, or the end of the target of a link in some directory. -/
inductive Part
  | name (name : String)
  | resolved (dir : Location) (name : String)
deriving DecidableEq, Repr

/-- The names among the parts. -/
def Part.toName? : Part → Option String
  | .name name => some name
  | .resolved _ _ => none

/-- The path that is resolved so far, the parts that are left, and the links that were met, with what they resolve to
    once that is known. -/
structure Resolving where
  path : Location
  rest : List Part
  seen : Table Location (Option Location) := .empty

/-- One part. -/
def Resolving.step (links : Links) (s : Resolving) (part : Part) (rest : List Part) : Resolving :=
  match part with
  | .resolved dir name => { s with rest, seen := s.seen.put (dir ++ [name]) (some s.path) }
  | .name name =>
    if staysHere name then { s with rest }
    else if name = ".." then { s with path := s.path.dropLast, rest }
    else match links.get (s.path ++ [name]) with
      | none => { s with path := s.path ++ [name], rest }
      | some target =>
        match s.seen.get (s.path ++ [name]) with
        | some (some known) => { s with path := known, rest }
        -- it is being resolved, so it leads back to itself
        | some none => { s with path := s.path ++ [name], rest }
        | none =>
          { path := target.start s.path
            rest := target.names.map .name ++ .resolved s.path name :: rest
            seen := s.seen.put (s.path ++ [name]) none }

/-- So many parts. -/
def Resolving.run (links : Links) : Nat → Resolving → Resolving
  | 0, s => s
  | k + 1, s =>
    match s.rest with
    | [] => s
    | part :: rest => run links k (s.step links part rest)

/-- The names that following a link adds. -/
def namesBelow (links : Links) (link : Location) : List Location :=
  ((links.get link).map LinkTarget.names).getD [] |>.map fun name => link ++ [name]

/-- The parts that there can be yet: those that are left, and those of each link that was not met. -/
def Resolving.cost (links : Links) (s : Resolving) : Nat :=
  s.rest.length + unseenCost (namesBelow links) links.keys s.seen.keys

/-- A path before its first name is read. -/
def Resolving.start (names : List String) : Resolving := { path := [], rest := names.map .name }

/-- `os.path.realpath` of the names, from the root. -/
def realpath (links : Links) (names : List String) : Location :=
  ((Resolving.start names).run links ((Resolving.start names).cost links)).path

/-! ### What is resolved names itself -/

/-- On the way to a location there are proper names only, and no link that leads somewhere. -/
def Settled (links : Links) (loc : Location) : Prop :=
  ∀ dir name, dir ++ [name] <+: loc → staysHere name = false ∧ name ≠ ".." ∧
    (links.get (dir ++ [name]) ≠ none → Dead links dir name)

theorem Settled.nil : Settled links [] := by
  intro dir name hbelow
  exact absurd (List.prefix_nil.1 hbelow) (List.append_ne_nil_of_right_ne_nil _ (List.cons_ne_nil _ _))

theorem Settled.of_prefix {loc' : Location} (h : Settled links loc) (hbelow : loc' <+: loc) : Settled links loc' :=
  fun dir name hdir => h dir name (hdir.trans hbelow)

theorem Settled.snoc (h : Settled links dir) (hstays : staysHere name = false) (hup : name ≠ "..")
    (hlink : links.get (dir ++ [name]) ≠ none → Dead links dir name) : Settled links (dir ++ [name]) := by
  intro dir' name' hbelow
  obtain heq | hshort := List.prefix_concat_iff.1 hbelow
  · obtain ⟨rfl, hname⟩ := List.append_inj' heq rfl
    obtain rfl := List.singleton_inj.1 hname
    exact ⟨hstays, hup, hlink⟩
  · exact h dir' name' hshort

/-- The operating system opens a settled location where it is, or not at all. -/
theorem Settled.opens {k : Nat} (h : Settled links (dir ++ names)) (hwalk : walk links k dir names = some loc) :
    loc = dir ++ names := by
  induction names generalizing dir k with
  | nil =>
      rw [walk_nil] at hwalk
      rw [List.append_nil]
      exact (Option.some.inj hwalk).symm
  | cons name names ih =>
      have hbelow : dir ++ [name] <+: dir ++ name :: names := ⟨names, by simp⟩
      obtain ⟨hstays, hup, hdead⟩ := h dir name hbelow
      have hplain : links.get (dir ++ [name]) = none := by
        by_contra hlink
        obtain ⟨mid, i, -, hmid, -⟩ := walk_cons hwalk
        exact hdead hlink mid ⟨i, hmid⟩
      cases k with
      | zero => cases hwalk
      | succ k =>
          rw [walk, enter_plain hstays hup hplain] at hwalk
          have hnext : dir ++ name :: names = dir ++ [name] ++ names := by simp
          rw [hnext] at h ⊢
          exact ih h hwalk

/-- What holds while names are resolved: a link on the path so far leads nowhere; what the names lead to, the rest leads
    to; what a link that is being resolved leads to, the rest of its target leads to in fewer steps; and what a link
    resolved to is what it leads to. -/
structure Resolving.Sound (links : Links) (names : List String) (s : Resolving) : Prop where
  path : Settled links s.path
  whole : ∀ loc, Opens links [] names loc → Opens links s.path (s.rest.filterMap Part.toName?) loc
  pending : ∀ dir name, s.seen.get (dir ++ [name]) = some none → Part.resolved dir name ∈ s.rest
  ahead : ∀ before after dir name, s.rest = before ++ .resolved dir name :: after → ∀ k loc,
    walk links k dir [name] = some loc → ∃ j < k, walk links j s.path (before.filterMap Part.toName?) = some loc
  known : ∀ dir name loc, s.seen.get (dir ++ [name]) = some (some loc) → Settled links loc ∧
    ∀ loc', Opens links dir [name] loc' → loc = loc'

theorem toName?_names (names : List String) : (names.map Part.name).filterMap Part.toName? = names := by
  induction names with
  | nil => rfl
  | cons name names ih => exact congrArg (name :: ·) ih

theorem Resolving.Sound.start (names : List String) : (Resolving.start names).Sound links names where
  path := .nil
  whole loc h := by
    show Opens links [] ((names.map Part.name).filterMap Part.toName?) loc
    rw [toName?_names]
    exact h
  pending dir name h := by cases h
  ahead before after dir name h := by
    have hmem : Part.resolved dir name ∈ names.map Part.name := by
      show _ ∈ (Resolving.start names).rest
      rw [h]
      exact List.mem_append_right _ List.mem_cons_self
    obtain ⟨_, -, hname⟩ := List.mem_map.1 hmem
    cases hname
  known dir name loc h := by cases h

variable {path : Location} {rest : List Part} {seen : Table Location (Option Location)} {whole : List String}

/-- A name that leads from the path so far to another. -/
theorem Resolving.Sound.move (h : Resolving.Sound links whole { path, rest := .name name :: rest, seen }) {path' : Location}
    (hpath : Settled links path')
    (hahead : ∀ k names loc, walk links k path (name :: names) = some loc → ∃ j ≤ k, walk links j path' names = some loc) :
    Resolving.Sound links whole { path := path', rest, seen } where
  path := hpath
  whole loc hopens := by
    obtain ⟨k, hwalk⟩ := h.whole loc hopens
    obtain ⟨j, -, hj⟩ := hahead k _ loc hwalk
    exact ⟨j, hj⟩
  pending dir name' hseen := by
    obtain heq | hmem := List.mem_cons.1 (h.pending dir name' hseen)
    · cases heq
    · exact hmem
  ahead before after dir name' hrest k loc hwalk := by
    have hrest : rest = before ++ .resolved dir name' :: after := hrest
    obtain ⟨j, hj, hj'⟩ := h.ahead (.name name :: before) after dir name' (by rw [hrest]; rfl) k loc hwalk
    obtain ⟨i, hi, hi'⟩ := hahead j _ loc hj'
    exact ⟨i, hi.trans_lt hj, hi'⟩
  known := h.known

/-- A name that only goes one step. -/
theorem Resolving.Sound.move_enter (h : Resolving.Sound links whole { path, rest := .name name :: rest, seen }) {path' : Location}
    (hpath : Settled links path') (henter : enter links path name = (path', [])) :
    Resolving.Sound links whole { path := path', rest, seen } := by
  apply h.move hpath
  intro k names loc hwalk
  cases k with
  | zero => cases hwalk
  | succ k =>
      rw [walk, henter] at hwalk
      exact ⟨k, Nat.le_succ k, hwalk⟩

/-- The end of a target: what the link resolves to is known. -/
theorem Resolving.Sound.close (h : Resolving.Sound links whole { path, rest := .resolved dir name :: rest, seen }) :
    Resolving.Sound links whole { path, rest, seen := seen.put (dir ++ [name]) (some path) } where
  path := h.path
  whole := h.whole
  pending dir' name' hseen := by
    by_cases hkey : dir' ++ [name'] = dir ++ [name]
    · rw [hkey, Table.get_put_self] at hseen
      cases hseen
    · rw [Table.get_put_ne _ _ hkey] at hseen
      obtain heq | hmem := List.mem_cons.1 (h.pending dir' name' hseen)
      · obtain ⟨rfl, rfl⟩ := Part.resolved.inj heq
        exact absurd rfl hkey
      · exact hmem
  ahead before after dir' name' hrest k loc hwalk := by
    have hrest : rest = before ++ .resolved dir' name' :: after := hrest
    exact h.ahead (.resolved dir name :: before) after dir' name' (by rw [hrest]; rfl) k loc hwalk
  known dir' name' loc hseen := by
    by_cases hkey : dir' ++ [name'] = dir ++ [name]
    · rw [hkey, Table.get_put_self] at hseen
      obtain rfl := Option.some.inj (Option.some.inj hseen)
      refine ⟨h.path, ?_⟩
      rintro loc' ⟨k, hwalk⟩
      obtain ⟨rfl, heq⟩ := List.append_inj' hkey rfl
      obtain rfl := List.singleton_inj.1 heq
      obtain ⟨j, -, hj⟩ := h.ahead [] rest dir' name' rfl k loc' hwalk
      rw [List.filterMap_nil, walk_nil] at hj
      exact Option.some.inj hj
    · rw [Table.get_put_ne _ _ hkey] at hseen
      exact h.known dir' name' loc hseen

/-- A link that is met while it is resolved leads nowhere: whatever it led to, it would lead to in fewer steps. -/
theorem Resolving.Sound.dead (h : Resolving.Sound links whole { path, rest := .name name :: rest, seen })
    (hseen : seen.get (path ++ [name]) = some none) : Dead links path name := by
  obtain heq | hmem := List.mem_cons.1 (h.pending path name hseen)
  · cases heq
  · obtain ⟨before, after, rfl⟩ := List.append_of_mem hmem
    have hnone : ∀ k loc, walk links k path [name] ≠ some loc := by
      intro k
      induction k using Nat.strong_induction_on with
      | _ k ih =>
          intro loc hwalk
          obtain ⟨j, hj, hahead⟩ := h.ahead (.name name :: before) after path name rfl k loc hwalk
          obtain ⟨mid, i, -, hmid, -, hi, -⟩ := walk_cons hahead
          exact ih i (hi.trans_lt hj) mid hmid
    rintro loc ⟨k, hwalk⟩
    exact hnone k loc hwalk

/-- A link that is met for the first time. -/
theorem Resolving.Sound.follow (h : Resolving.Sound links whole { path, rest := .name name :: rest, seen })
    {target : LinkTarget} (henter : enter links path name = (target.start path, target.names)) :
    Resolving.Sound links whole
      { path := target.start path
        rest := target.names.map .name ++ .resolved path name :: rest
        seen := seen.put (path ++ [name]) none } where
  path := by
    show Settled links (if target.absolute then [] else path)
    split
    · exact .nil
    · exact h.path
  whole loc hopens := by
    obtain ⟨k, hwalk⟩ := h.whole loc hopens
    have hwalk : walk links k path (name :: rest.filterMap Part.toName?) = some loc := hwalk
    refine ⟨k - 1, ?_⟩
    rw [List.filterMap_append, toName?_names]
    cases k with
    | zero => cases hwalk
    | succ k =>
        rw [walk, henter] at hwalk
        exact hwalk
  pending dir name' hseen := by
    by_cases hkey : dir ++ [name'] = path ++ [name]
    · obtain ⟨rfl, hname⟩ := List.append_inj' hkey rfl
      obtain rfl := List.singleton_inj.1 hname
      exact List.mem_append_right _ List.mem_cons_self
    · rw [Table.get_put_ne _ _ hkey] at hseen
      obtain heq | hmem := List.mem_cons.1 (h.pending dir name' hseen)
      · cases heq
      · exact List.mem_append_right _ (List.mem_cons_of_mem _ hmem)
  ahead before after dir name' hrest k loc hwalk := by
    -- the marker is that of the link, or one of those that were there
    obtain ⟨tail, hbefore, htail⟩ | ⟨tail, hnames, htail⟩ := List.append_eq_append_iff.1 hrest
    · cases tail with
      | nil =>
          obtain ⟨hmarker, -⟩ := List.cons.inj htail
          obtain ⟨rfl, rfl⟩ := Part.resolved.inj hmarker
          rw [hbefore, List.append_nil, toName?_names]
          cases k with
          | zero => cases hwalk
          | succ k =>
              rw [walk, henter, List.append_nil] at hwalk
              exact ⟨k, Nat.lt_succ_self k, hwalk⟩
      | cons marker tail =>
          obtain ⟨rfl, hrest'⟩ := List.cons.inj htail
          obtain ⟨j, hj, hahead⟩ := h.ahead (.name name :: tail) after dir name' (by rw [hrest']; rfl) k loc hwalk
          rw [hbefore, List.filterMap_append, toName?_names]
          cases j with
          | zero => cases hahead
          | succ j =>
              have hahead : walk links (j + 1) path (name :: tail.filterMap Part.toName?) = some loc := hahead
              rw [walk, henter] at hahead
              exact ⟨j, (Nat.lt_succ_self j).trans hj, hahead⟩
    · cases tail with
      | nil =>
          obtain ⟨hmarker, -⟩ := List.cons.inj htail
          obtain ⟨rfl, rfl⟩ := Part.resolved.inj hmarker
          rw [List.append_nil] at hnames
          rw [← hnames, toName?_names]
          cases k with
          | zero => cases hwalk
          | succ k =>
              rw [walk, henter, List.append_nil] at hwalk
              exact ⟨k, Nat.lt_succ_self k, hwalk⟩
      | cons marker tail =>
          obtain ⟨rfl, -⟩ := List.cons.inj htail
          have hmem : Part.resolved dir name' ∈ target.names.map Part.name := by
            rw [hnames]
            exact List.mem_append_right _ List.mem_cons_self
          obtain ⟨_, -, hname⟩ := List.mem_map.1 hmem
          cases hname
  known dir name' loc hseen := by
    by_cases hkey : dir ++ [name'] = path ++ [name]
    · rw [hkey, Table.get_put_self] at hseen
      cases hseen
    · rw [Table.get_put_ne _ _ hkey] at hseen
      exact h.known dir name' loc hseen

/-- **One part.** -/
theorem Resolving.Sound.step {part : Part} (h : Resolving.Sound links whole { path, rest := part :: rest, seen }) :
    (Resolving.step links { path, rest := part :: rest, seen } part rest).Sound links whole := by
  cases part with
  | resolved dir name => exact h.close
  | name name =>
      rw [Resolving.step]
      split
      · rename_i hstays
        exact h.move_enter h.path (by rw [enter, if_pos hstays])
      · rename_i hstays
        split
        · rename_i hup
          apply h.move_enter
          · exact h.path.of_prefix (List.dropLast_prefix path)
          · rw [enter, if_neg hstays, if_pos hup]
        · rename_i hup
          have hstays : staysHere name = false := by simpa using hstays
          split
          · rename_i hplain
            apply h.move_enter
            · exact h.path.snoc hstays hup fun hlink => absurd hplain hlink
            · exact enter_plain hstays hup hplain
          · rename_i target hlink
            split
            · rename_i known hseen
              obtain ⟨hknown, hleads⟩ := h.known path name known hseen
              apply h.move hknown
              intro k names loc hwalk
              obtain ⟨mid, i, j, hmid, hrest, -, hj⟩ := walk_cons hwalk
              rw [hleads mid ⟨i, hmid⟩]
              exact ⟨j, hj.le, hrest⟩
            · rename_i hseen
              have hdead := h.dead hseen
              apply h.move (h.path.snoc hstays hup fun _ => hdead)
              intro k names loc hwalk
              obtain ⟨mid, i, -, hmid, -⟩ := walk_cons hwalk
              exact absurd ⟨i, hmid⟩ (hdead mid)
            · exact h.follow (enter_link hstays hup hlink)

theorem Resolving.Sound.run (k : Nat) {s : Resolving} (h : s.Sound links whole) : (s.run links k).Sound links whole := by
  induction k generalizing s with
  | zero => exact h
  | succ k ih =>
      rw [Resolving.run]
      split
      · exact h
      · rename_i part rest hrest
        obtain ⟨path, all, seen⟩ := s
        obtain rfl : all = part :: rest := hrest
        exact ih h.step

theorem settled_realpath (names : List String) : Settled links (realpath links names) :=
  (Resolving.Sound.run _ (.start names)).path

end Lib
end RobotsixMill
