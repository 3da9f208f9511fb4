import RobotsixMill.Lib.PyText

/-!
# `Core.DiffContext` — thinning the context of a diff

`limitDiffContext` goes through the lines of a unified diff, holds back each run of context lines, and cuts it down
when it knows what follows. It splits the text with `str.splitlines`, which breaks lines at more characters than the
newline.

- `Thinned` — which lines of a diff may be dropped, and `render`, the text with a marker where some were;
- `unbroken_diff_thinned` — the result is a thinning of the diff when no line has another break inside;
- `form_feed_drops_change` — a changed line with a form feed loses its end.
-/

namespace RobotsixMill
namespace Core
open Lib

/-! ## The code -/

/-- `text.splitlines(keepends=True)`, the current line held back in `cur` (reversed). -/
def splitKeepends (cur : List Char) : List Char → List (List Char)
  | [] => if cur = [] then [] else [cur.reverse]
  | '\r' :: '\n' :: cs => ('\n' :: '\r' :: cur).reverse :: splitKeepends [] cs
  | c :: cs => if isLineBreak c then (c :: cur).reverse :: splitKeepends [] cs else splitKeepends (c :: cur) cs

/-- The marker for dropped lines. -/
def omittedMarker (n : Nat) : List Char := s!"[... {n} context lines omitted ...]\n".toList

/-- `mode` of `_emit_context_run`. -/
inductive TrimMode
  | start
  | atEnd
  | middle
deriving DecidableEq, Repr

/-- `_emit_context_run`: what it appends to `out`. -/
def emitContextRun (run : List (List Char)) (context_lines : Nat) : TrimMode → List (List Char)
  | .start =>
    let keep := min context_lines run.length
    (if keep < run.length then [omittedMarker (run.length - keep)] else []) ++ run.drop (run.length - keep)
  | .atEnd =>
    let keep := min context_lines run.length
    run.take keep ++ if keep < run.length then [omittedMarker (run.length - keep)] else []
  | .middle =>
    if run.length ≤ 2 * context_lines then run
    else
      let omitted := run.length - 2 * context_lines
      run.take context_lines ++ omittedMarker omitted :: run.drop (run.length - context_lines)

/-- `line.startswith(p)`. -/
def lineStarts (line : List Char) (p : String) : Bool := p.toList.isPrefixOf line

/-- The loop over the lines: what is still appended to `out`. -/
def thinLines (context_lines : Nat) (run : List (List Char)) (in_hunk seen_change : Bool) :
    List (List Char) → List (List Char)
  | [] => emitContextRun run context_lines (if seen_change then .atEnd else .start)
  | line :: rest =>
    if lineStarts line "@@" then
      emitContextRun run context_lines (if seen_change then .atEnd else .start) ++
        line :: thinLines context_lines [] true false rest
    else if lineStarts line " " then thinLines context_lines (run ++ [line]) in_hunk seen_change rest
    -- inside a hunk such a line is a change whose content begins with `--` or `++`
    else if !in_hunk && (lineStarts line "--- " || lineStarts line "+++ ") then
      emitContextRun run context_lines (if seen_change then .atEnd else .start) ++
        line :: thinLines context_lines [] in_hunk false rest
    else if lineStarts line "+" || lineStarts line "-" || lineStarts line "\\" then
      emitContextRun run context_lines (if seen_change then .middle else .start) ++
        line :: thinLines context_lines [] in_hunk true rest
    else
      -- `diff --git`, `index` and the like
      emitContextRun run context_lines (if seen_change then .atEnd else .start) ++
        line :: thinLines context_lines [] false false rest

/-- `limit_diff_context`. -/
def limitDiffContext (diff : List Char) (context_lines : Int) : List Char :=
  if context_lines ≤ 0 then diff
  else (thinLines context_lines.toNat [] false false (splitKeepends [] diff)).flatten

/-! ## The lines of a diff -/

/-- The lines of a text, each with its newline. -/
def newlineLines (cur : List Char) : List Char → List (List Char)
  | [] => if cur = [] then [] else [cur.reverse]
  | c :: cs => if c = '\n' then (c :: cur).reverse :: newlineLines [] cs else newlineLines (c :: cur) cs

/-- What a line is in a diff. -/
inductive DiffLineKind
  /-- Outside the hunks: `diff --git`, `index`, the file headers and so on. -/
  | outer
  | hunkHeader
  | context
  | change
  /-- `\ No newline at end of file`. -/
  | noNewline
deriving DecidableEq, Repr

/-- How such a line begins. -/
def DiffLineKind.Fits (line : List Char) : DiffLineKind → Prop
  | .outer => lineStarts line "@@" = false ∧ lineStarts line " " = false
  | .hunkHeader => lineStarts line "@@" = true
  | .context => lineStarts line " " = true
  | .change => lineStarts line "+" = true ∨ lineStarts line "-" = true
  | .noNewline => lineStarts line "\\" = true

/-- The lines of a diff, each with what it is. -/
abbrev DiffLines := List (DiffLineKind × List Char)

/-- Lines of a diff: those of a hunk come behind its header. `in_hunk` tells whether a hunk is on. -/
def WellFormedDiff : Bool → DiffLines → Prop
  | _, [] => True
  | in_hunk, (kind, line) :: rest =>
    kind.Fits line ∧
      match kind with
      | .outer => WellFormedDiff false rest
      | .hunkHeader => WellFormedDiff true rest
      | _ => in_hunk = true ∧ WellFormedDiff true rest

/-! ## A thinned diff -/

/-- The marker of the lines dropped at one place, if there are any. -/
def omitted : Nat → List (List Char)
  | 0 => []
  | n + 1 => [omittedMarker (n + 1)]

/-- The lines that are kept, with a marker at each place where some were dropped; `n` were dropped just before. -/
def render : Nat → List ((DiffLineKind × List Char) × Bool) → List (List Char)
  | n, [] => omitted n
  | n, (line, true) :: rest => omitted n ++ line.2 :: render 0 rest
  | n, (_, false) :: rest => render (n + 1) rest

/-- A choice of the lines to keep: all that do not begin with a space, and the context lines within `k` lines of a
    changed line with context in between only. -/
structure Thinned (k : Nat) (d : DiffLines) (kept : List ((DiffLineKind × List Char) × Bool)) : Prop where
  lines : kept.map Prod.fst = d
  others : ∀ x ∈ kept, lineStarts x.1.2 " " = false → x.2 = true
  after : ∀ pre c mid x post, kept = pre ++ c :: (mid ++ x :: post) → c.1.1 = .change →
    (∀ y ∈ mid, y.1.1 = .context) → x.1.1 = .context → mid.length < k → x.2 = true
  before : ∀ pre x mid c post, kept = pre ++ x :: (mid ++ c :: post) → c.1.1 = .change →
    (∀ y ∈ mid, y.1.1 = .context) → x.1.1 = .context → mid.length < k → x.2 = true

/-- The text is a thinning of the diff. -/
def IsThinning (k : Nat) (d : DiffLines) (text : List Char) : Prop :=
  ∃ kept, Thinned k d kept ∧ text = (render 0 kept).flatten

/-- No line break inside: the line ends at the first one, or at a carriage return with a newline behind it. -/
def Unbroken (line : List Char) : Prop :=
  ∃ content ending, line = content ++ ending ∧ (∀ c ∈ content, isLineBreak c = false) ∧
    ending ∈ [[], ['\n'], ['\r', '\n'], ['\r']]

/-! ## The lines that the code keeps -/

section Runs

variable {k n : Nat} {mode : TrimMode} {run : DiffLines} {rest : List ((DiffLineKind × List Char) × Bool)}

/-- A run of context lines with what `_emit_context_run` keeps of it. -/
def markRun (k : Nat) (run : DiffLines) : TrimMode → List ((DiffLineKind × List Char) × Bool)
  | .start => (run.take (run.length - k)).map (·, false) ++ (run.drop (run.length - k)).map (·, true)
  | .atEnd => (run.take k).map (·, true) ++ (run.drop k).map (·, false)
  | .middle =>
    if run.length ≤ 2 * k then run.map (·, true)
    else (run.take k).map (·, true) ++ (((run.drop k).take (run.length - 2 * k)).map (·, false) ++
      (run.drop (run.length - k)).map (·, true))

theorem render_kept (xs : DiffLines) : render 0 (xs.map (·, true) ++ rest) = xs.map Prod.snd ++ render 0 rest := by
  induction xs with
  | nil => rfl
  | cons x xs ih =>
    show omitted 0 ++ x.2 :: render 0 (xs.map (·, true) ++ rest) = _
    rw [ih]
    rfl

theorem render_dropped (xs : DiffLines) : render n (xs.map (·, false) ++ rest) = render (n + xs.length) rest := by
  induction xs generalizing n with
  | nil => rfl
  | cons x xs ih =>
    show render (n + 1) (xs.map (·, false) ++ rest) = _
    rw [ih, List.length_cons, Nat.add_assoc, Nat.add_comm 1]

/-- Where a kept line follows, or nothing, the marker is due. -/
theorem render_omitted (h : ∀ x ∈ rest.head?, x.2 = true) : render n rest = omitted n ++ render 0 rest := by
  cases rest with
  | nil =>
    show omitted n = omitted n ++ []
    rw [List.append_nil]
  | cons x rest =>
    obtain ⟨line, kept⟩ := x
    obtain rfl : kept = true := h _ rfl
    rfl

theorem map_fst_markRun : (markRun k run mode).map Prod.fst = run := by
  have hmap : ∀ (b : Bool) (xs : DiffLines), (xs.map (·, b)).map Prod.fst = xs := by
    intro b xs
    rw [List.map_map]
    exact List.map_id xs
  cases mode with
  | start =>
    unfold markRun
    rw [List.map_append, hmap, hmap, List.take_append_drop]
  | atEnd =>
    unfold markRun
    rw [List.map_append, hmap, hmap, List.take_append_drop]
  | middle =>
    unfold markRun
    by_cases hshort : run.length ≤ 2 * k
    · rw [if_pos hshort, hmap]
    · -- the last `k` lines are what the kept and the dropped ones leave
      rw [if_neg hshort, List.map_append, List.map_append, hmap, hmap, hmap]
      have hlast : run.drop (run.length - k) = (run.drop k).drop (run.length - 2 * k) := by
        rw [List.drop_drop]
        congr 1
        omega
      rw [hlast, List.take_append_drop, List.take_append_drop]

theorem omitted_of_pos (h : 0 < n) : omitted n = [omittedMarker n] := by
  obtain ⟨m, rfl⟩ := Nat.exists_eq_succ_of_ne_zero (Nat.ne_of_gt h)
  rfl

theorem emitContextRun_start (lines : List (List Char)) :
    emitContextRun lines k .start = omitted (lines.length - k) ++ lines.drop (lines.length - k) := by
  show (if min k lines.length < lines.length then [omittedMarker (lines.length - min k lines.length)] else []) ++
    lines.drop (lines.length - min k lines.length) = _
  have hdrop : lines.length - min k lines.length = lines.length - k := by omega
  rw [hdrop]
  by_cases hlong : k < lines.length
  · rw [if_pos (by omega), omitted_of_pos (by omega)]
  · rw [if_neg (by omega), Nat.sub_eq_zero_of_le (not_lt.1 hlong)]
    rfl

theorem emitContextRun_atEnd (lines : List (List Char)) :
    emitContextRun lines k .atEnd = lines.take k ++ omitted (lines.length - k) := by
  show (lines.take (min k lines.length) ++
    if min k lines.length < lines.length then [omittedMarker (lines.length - min k lines.length)] else []) = _
  have hdrop : lines.length - min k lines.length = lines.length - k := by omega
  rw [hdrop, ← List.take_eq_take_min]
  by_cases hlong : k < lines.length
  · rw [if_pos (by omega), omitted_of_pos (by omega)]
  · rw [if_neg (by omega), Nat.sub_eq_zero_of_le (not_lt.1 hlong)]
    rfl

theorem emitContextRun_middle (lines : List (List Char)) (h : ¬lines.length ≤ 2 * k) :
    emitContextRun lines k .middle =
      lines.take k ++ (omitted (lines.length - 2 * k) ++ lines.drop (lines.length - k)) := by
  show (if lines.length ≤ 2 * k then lines else lines.take k ++
    omittedMarker (lines.length - 2 * k) :: lines.drop (lines.length - k)) = _
  rw [if_neg h, omitted_of_pos (by omega)]
  rfl

/-- What is rendered of a marked run is what the code emits. -/
theorem render_markRun (h : ∀ x ∈ rest.head?, x.2 = true) :
    render 0 (markRun k run mode ++ rest) = emitContextRun (run.map Prod.snd) k mode ++ render 0 rest := by
  have hhead : ∀ xs : DiffLines, ∀ x ∈ (xs.map (·, true) ++ rest).head?, x.2 = true := by
    intro xs
    cases xs with
    | nil => exact h
    | cons y ys =>
      intro x hx
      cases hx
      rfl
  cases mode with
  | start =>
    unfold markRun
    rw [List.append_assoc, render_dropped, render_omitted (hhead _), render_kept, emitContextRun_start, List.length_map,
      List.map_drop, List.append_assoc, Nat.zero_add, List.length_take_of_le (Nat.sub_le ..)]
  | atEnd =>
    unfold markRun
    rw [List.append_assoc, render_kept, render_dropped, render_omitted h, emitContextRun_atEnd, List.length_map,
      List.map_take, List.append_assoc, Nat.zero_add, List.length_drop]
  | middle =>
    unfold markRun
    by_cases hshort : run.length ≤ 2 * k
    · rw [if_pos hshort, render_kept]
      unfold emitContextRun
      rw [List.length_map, if_pos hshort]
    · have hdropped : ((run.drop k).take (run.length - 2 * k)).length = run.length - 2 * k := by
        rw [List.length_take_of_le]
        rw [List.length_drop]
        omega
      rw [if_neg hshort, List.append_assoc, render_kept, List.append_assoc, render_dropped, render_omitted (hhead _),
        render_kept, emitContextRun_middle _ (by rw [List.length_map]; exact hshort), List.length_map, List.map_take,
        List.map_drop, Nat.zero_add, hdropped, List.append_assoc, List.append_assoc]

section Marks

variable {A B pre mid post : List ((DiffLineKind × List Char) × Bool)} {x : (DiffLineKind × List Char) × Bool}

theorem kept_of_marked {xs : DiffLines} (hx : x ∈ xs.map (·, true)) : x.2 = true := by
  obtain ⟨line, -, rfl⟩ := List.mem_map.1 hx
  rfl

/-- What stands within the first part comes from it. -/
theorem mem_left_of_append_eq (h : A ++ B = mid ++ x :: post) (hlength : mid.length < A.length) : x ∈ A := by
  have hx : (A ++ B)[mid.length]? = some x := by
    rw [h, List.getElem?_append_right (Nat.le_refl _), Nat.sub_self]
    rfl
  rw [List.getElem?_append_left hlength] at hx
  exact List.mem_of_getElem? hx

theorem mem_right_of_append_eq (h : A ++ B = pre ++ x :: mid) (hlength : mid.length < B.length) : x ∈ B := by
  -- read backwards, it is the case of the first part
  have hreverse : B.reverse ++ A.reverse = mid.reverse ++ x :: pre.reverse := by
    rw [← List.reverse_append, h, List.reverse_append, List.reverse_cons, List.append_assoc]
    rfl
  have hx := mem_left_of_append_eq hreverse (by rw [List.length_reverse, List.length_reverse]; exact hlength)
  exact List.mem_reverse.1 hx

theorem length_markRun (k : Nat) (run : DiffLines) (mode : TrimMode) : (markRun k run mode).length = run.length := by
  rw [← List.length_map, map_fst_markRun]

/-- The first `k` lines of a run behind a change are kept. -/
theorem markRun_front (hmode : mode ≠ .start) (h : markRun k run mode = mid ++ x :: post) (hk : mid.length < k) :
    x.2 = true := by
  have hlength : mid.length < run.length := by
    rw [← length_markRun k run mode, h, List.length_append, List.length_cons]
    omega
  cases mode with
  | start => exact absurd rfl hmode
  | atEnd =>
    unfold markRun at h
    refine kept_of_marked (mem_left_of_append_eq h ?_)
    rw [List.length_map, List.length_take]
    exact lt_min hk hlength
  | middle =>
    unfold markRun at h
    by_cases hshort : run.length ≤ 2 * k
    · rw [if_pos hshort] at h
      dsimp only at h
      refine @kept_of_marked _ run ?_
      rw [h]
      exact List.mem_append_right _ List.mem_cons_self
    · rw [if_neg hshort] at h
      refine kept_of_marked (mem_left_of_append_eq h ?_)
      rw [List.length_map, List.length_take]
      exact lt_min hk hlength

/-- The last `k` lines of a run before a change are kept. -/
theorem markRun_back (hmode : mode ≠ .atEnd) (h : markRun k run mode = pre ++ x :: mid) (hk : mid.length < k) :
    x.2 = true := by
  have hlength : mid.length < run.length := by
    rw [← length_markRun k run mode, h, List.length_append, List.length_cons]
    omega
  cases mode with
  | atEnd => exact absurd rfl hmode
  | start =>
    unfold markRun at h
    refine kept_of_marked (mem_right_of_append_eq h ?_)
    rw [List.length_map, List.length_drop]
    omega
  | middle =>
    unfold markRun at h
    by_cases hshort : run.length ≤ 2 * k
    · rw [if_pos hshort] at h
      dsimp only at h
      refine @kept_of_marked _ run ?_
      rw [h]
      exact List.mem_append_right _ List.mem_cons_self
    · rw [if_neg hshort, ← List.append_assoc] at h
      refine kept_of_marked (mem_right_of_append_eq h ?_)
      rw [List.length_map, List.length_drop]
      omega

end Marks

end Runs

/-! ## The loop -/

section Loop

variable {k : Nat}

/-- The lines with what the loop keeps of them. -/
def keptLines (k : Nat) (run : DiffLines) (in_hunk seen_change : Bool) :
    DiffLines → List ((DiffLineKind × List Char) × Bool)
  | [] => markRun k run (if seen_change then .atEnd else .start)
  | line :: rest =>
    if lineStarts line.2 "@@" then
      markRun k run (if seen_change then .atEnd else .start) ++ (line, true) :: keptLines k [] true false rest
    else if lineStarts line.2 " " then keptLines k (run ++ [line]) in_hunk seen_change rest
    else if !in_hunk && (lineStarts line.2 "--- " || lineStarts line.2 "+++ ") then
      markRun k run (if seen_change then .atEnd else .start) ++ (line, true) :: keptLines k [] in_hunk false rest
    else if lineStarts line.2 "+" || lineStarts line.2 "-" || lineStarts line.2 "\\" then
      markRun k run (if seen_change then .middle else .start) ++ (line, true) :: keptLines k [] in_hunk true rest
    else
      markRun k run (if seen_change then .atEnd else .start) ++ (line, true) :: keptLines k [] false false rest

/-- A line that is no context line ends the run; what comes before it is kept by some mode, and the loop goes on in some
    state. -/
structure LoopStep (k : Nat) (run : DiffLines) (in_hunk seen_change : Bool) (line : DiffLineKind × List Char)
    (rest : DiffLines) (mode : TrimMode) (in_hunk' seen_change' : Bool) : Prop where
  thin : thinLines k (run.map Prod.snd) in_hunk seen_change (line.2 :: rest.map Prod.snd) =
    emitContextRun (run.map Prod.snd) k mode ++ line.2 :: thinLines k [] in_hunk' seen_change' (rest.map Prod.snd)
  kept : keptLines k run in_hunk seen_change (line :: rest) =
    markRun k run mode ++ (line, true) :: keptLines k [] in_hunk' seen_change' rest
  front : seen_change = true → mode ≠ .start
  back : line.1 = .change → mode ≠ .atEnd ∧ seen_change' = true

theorem lineStarts_eq_false {line : List Char} {p q : String} {c d : Char} (h : lineStarts line p = true)
    (hp : p.toList.head? = some c) (hq : q.toList.head? = some d) (hne : c ≠ d) : lineStarts line q = false := by
  unfold lineStarts at h ⊢
  obtain ⟨ps, hps⟩ := List.head?_eq_some_iff.1 hp
  obtain ⟨qs, hqs⟩ := List.head?_eq_some_iff.1 hq
  rw [hps] at h
  rw [hqs]
  cases line with
  | nil => rfl
  | cons e line =>
    rw [List.isPrefixOf_cons_cons, Bool.and_eq_true, beq_iff_eq] at h
    rw [List.isPrefixOf_cons_cons, Bool.and_eq_false_iff, beq_eq_false_iff_ne]
    exact .inl fun hde => hne (h.1.trans hde.symm)

/-- Behind a change no run is trimmed as one at the start. -/
theorem ne_start_of_seen {seen_change : Bool} {mode : TrimMode} (hmode : mode ≠ .start) (h : seen_change = true) :
    (if seen_change then mode else .start) ≠ .start := by
  rw [if_pos h]
  exact hmode

theorem loopStep_hunkHeader {run : DiffLines} {in_hunk seen_change : Bool} {line : DiffLineKind × List Char}
    (rest : DiffLines) (hkind : line.1 = .hunkHeader) (hfits : lineStarts line.2 "@@" = true) :
    LoopStep k run in_hunk seen_change line rest (if seen_change then .atEnd else .start) true false where
  thin := by
    rw [thinLines, if_pos hfits]
  kept := by
    rw [keptLines, if_pos hfits]
  front := ne_start_of_seen TrimMode.noConfusion
  back := by
    intro h
    rw [hkind] at h
    cases h

/-- A line outside the hunks, however the code takes it. -/
theorem loopStep_outer {run : DiffLines} {in_hunk seen_change : Bool} {line : DiffLineKind × List Char}
    (rest : DiffLines) (hkind : line.1 = .outer) (hhunk : lineStarts line.2 "@@" = false)
    (hcontext : lineStarts line.2 " " = false) :
    ∃ mode in_hunk' seen_change', LoopStep k run in_hunk seen_change line rest mode in_hunk' seen_change' := by
  have hback : ∀ {mode : TrimMode} {seen : Bool}, line.1 = .change → mode ≠ .atEnd ∧ seen = true := by
    intro mode seen h
    rw [hkind] at h
    cases h
  by_cases hheader : (!in_hunk && (lineStarts line.2 "--- " || lineStarts line.2 "+++ ")) = true
  · refine ⟨if seen_change then .atEnd else .start, in_hunk, false, ?_, ?_,
      ne_start_of_seen TrimMode.noConfusion, hback⟩
    · rw [thinLines, hhunk, if_neg Bool.false_ne_true, hcontext, if_neg Bool.false_ne_true, if_pos hheader]
    · rw [keptLines, hhunk, if_neg Bool.false_ne_true, hcontext, if_neg Bool.false_ne_true, if_pos hheader]
  · by_cases hchange : (lineStarts line.2 "+" || lineStarts line.2 "-" || lineStarts line.2 "\\") = true
    · refine ⟨if seen_change then .middle else .start, in_hunk, true, ?_, ?_,
        ne_start_of_seen TrimMode.noConfusion, hback⟩
      · rw [thinLines, hhunk, if_neg Bool.false_ne_true, hcontext, if_neg Bool.false_ne_true, if_neg hheader,
          if_pos hchange]
      · rw [keptLines, hhunk, if_neg Bool.false_ne_true, hcontext, if_neg Bool.false_ne_true, if_neg hheader,
          if_pos hchange]
    · refine ⟨if seen_change then .atEnd else .start, false, false, ?_, ?_,
        ne_start_of_seen TrimMode.noConfusion, hback⟩
      · rw [thinLines, hhunk, if_neg Bool.false_ne_true, hcontext, if_neg Bool.false_ne_true, if_neg hheader,
          if_neg hchange]
      · rw [keptLines, hhunk, if_neg Bool.false_ne_true, hcontext, if_neg Bool.false_ne_true, if_neg hheader,
          if_neg hchange]

/-- A changed line of a hunk, or the note about a missing newline. -/
theorem loopStep_change {run : DiffLines} {seen_change : Bool} {line : DiffLineKind × List Char} (rest : DiffLines)
    (hfits : (lineStarts line.2 "+" || lineStarts line.2 "-" || lineStarts line.2 "\\") = true) :
    LoopStep k run true seen_change line rest (if seen_change then .middle else .start) true true := by
  have hother : lineStarts line.2 "@@" = false ∧ lineStarts line.2 " " = false := by
    simp only [Bool.or_eq_true] at hfits
    rcases hfits with (h | h) | h
    · exact ⟨lineStarts_eq_false h rfl rfl (by decide), lineStarts_eq_false h rfl rfl (by decide)⟩
    · exact ⟨lineStarts_eq_false h rfl rfl (by decide), lineStarts_eq_false h rfl rfl (by decide)⟩
    · exact ⟨lineStarts_eq_false h rfl rfl (by decide), lineStarts_eq_false h rfl rfl (by decide)⟩
  obtain ⟨hhunk, hcontext⟩ := hother
  refine ⟨?_, ?_, ne_start_of_seen TrimMode.noConfusion, fun _ => ⟨?_, rfl⟩⟩
  · rw [thinLines, hhunk, if_neg Bool.false_ne_true, hcontext, if_neg Bool.false_ne_true, Bool.not_true,
      Bool.false_and, if_neg Bool.false_ne_true, if_pos hfits]
  · rw [keptLines, hhunk, if_neg Bool.false_ne_true, hcontext, if_neg Bool.false_ne_true, Bool.not_true,
      Bool.false_and, if_neg Bool.false_ne_true, if_pos hfits]
  · cases seen_change <;> exact TrimMode.noConfusion

/-- What the loop keeps of the pending run and the lines behind it. -/
structure KeptSpec (k : Nat) (seen_change : Bool) (d : DiffLines) (kept : List ((DiffLineKind × List Char) × Bool)) :
    Prop extends Thinned k d kept where
  /-- Behind a change, the first `k` context lines are kept. -/
  front : seen_change = true → ∀ mid x post, kept = mid ++ x :: post → (∀ y ∈ mid, y.1.1 = .context) →
    x.1.1 = .context → mid.length < k → x.2 = true

/-- A run of context lines. -/
def IsRun (run : DiffLines) : Prop := ∀ l ∈ run, l.1 = .context ∧ lineStarts l.2 " " = true

theorem IsRun.marked {run : DiffLines} (h : IsRun run) {mode : TrimMode} {x : (DiffLineKind × List Char) × Bool}
    (hx : x ∈ markRun k run mode) : x.1.1 = .context ∧ lineStarts x.1.2 " " = true := by
  refine h x.1 ?_
  have hmem := List.mem_map_of_mem (f := Prod.fst) hx
  rw [map_fst_markRun] at hmem
  exact hmem

theorem keptSpec_nil {seen_change : Bool} {run : DiffLines} (hrun : IsRun run) {mode : TrimMode}
    (hfront : seen_change = true → mode ≠ .start) : KeptSpec k seen_change run (markRun k run mode) where
  lines := map_fst_markRun
  others x hx hspace := by
    rw [(hrun.marked hx).2] at hspace
    cases hspace
  after pre c mid x post heq hchange _ _ _ := by
    have hmem : c ∈ markRun k run mode := heq ▸ List.mem_append_right _ List.mem_cons_self
    rw [(hrun.marked hmem).1] at hchange
    cases hchange
  before pre x mid c post heq hchange _ _ _ := by
    have hmem : c ∈ markRun k run mode :=
      heq ▸ List.mem_append_right _ (List.mem_cons_of_mem _ (List.mem_append_right _ List.mem_cons_self))
    rw [(hrun.marked hmem).1] at hchange
    cases hchange
  front hseen mid x post heq _ _ hk := markRun_front (hfront hseen) heq hk

/-- Where one split of a list has its element outside the first part of another. -/
theorem append_cons_eq_of_not_mem {α : Type*} {A B P Q : List α} {l c : α} (h : A ++ l :: B = P ++ c :: Q)
    (hc : c ∉ A) : (P = A ∧ c = l ∧ Q = B) ∨ ∃ P', P = A ++ l :: P' ∧ B = P' ++ c :: Q := by
  rcases List.append_eq_append_iff.1 h with ⟨as, hP, hrest⟩ | ⟨bs, hA, hrest⟩
  · cases as with
    | nil =>
      rw [List.append_nil] at hP
      obtain ⟨rfl, rfl⟩ := List.cons.inj hrest
      exact .inl ⟨hP, rfl, rfl⟩
    | cons a as =>
      obtain ⟨rfl, hB⟩ := List.cons.inj hrest
      exact .inr ⟨as, hP, hB⟩
  · cases bs with
    | nil =>
      rw [List.append_nil] at hA
      obtain ⟨rfl, rfl⟩ := List.cons.inj hrest
      exact .inl ⟨hA.symm, rfl, rfl⟩
    | cons b bs =>
      obtain ⟨rfl, -⟩ := List.cons.inj hrest
      exact absurd (hA ▸ List.mem_append_right _ List.mem_cons_self) hc

/-- A line that is no context line, with what is kept before and behind it. -/
theorem keptSpec_cons {seen_change seen_change' : Bool} {run rest : DiffLines} {line : DiffLineKind × List Char}
    {mode : TrimMode} {kept : List ((DiffLineKind × List Char) × Bool)} (hrun : IsRun run)
    (hline : line.1 ≠ .context) (hfront : seen_change = true → mode ≠ .start)
    (hback : line.1 = .change → mode ≠ .atEnd ∧ seen_change' = true) (h : KeptSpec k seen_change' rest kept) :
    KeptSpec k seen_change (run ++ line :: rest) (markRun k run mode ++ (line, true) :: kept) where
  lines := by
    rw [List.map_append, map_fst_markRun, List.map_cons, h.lines]
  others x hx hspace := by
    rcases List.mem_append.1 hx with hx | hx
    · rw [(hrun.marked hx).2] at hspace
      cases hspace
    · rcases List.mem_cons.1 hx with rfl | hx
      · rfl
      · exact h.others x hx hspace
  after pre c mid x post heq hchange hmid hx hk := by
    have hc : c ∉ markRun k run mode := by
      intro hmem
      rw [(hrun.marked hmem).1] at hchange
      cases hchange
    -- the change is `line` itself, or stands behind it
    rcases append_cons_eq_of_not_mem heq hc with ⟨-, rfl, hrest⟩ | ⟨pre', -, hrest⟩
    · exact h.front (hback hchange).2 mid x post hrest.symm hmid hx hk
    · exact h.after pre' c mid x post hrest hchange hmid hx hk
  before pre x mid c post heq hchange hmid hx hk := by
    have hc : c ∉ markRun k run mode := by
      intro hmem
      rw [(hrun.marked hmem).1] at hchange
      cases hchange
    have heq' : markRun k run mode ++ (line, true) :: kept = (pre ++ x :: mid) ++ c :: post := by
      rw [heq, List.append_assoc]
      rfl
    rcases append_cons_eq_of_not_mem heq' hc with ⟨hmarked, rfl, -⟩ | ⟨pre', hsplit, hrest⟩
    · exact markRun_back (hback hchange).1 hmarked.symm hk
    · -- the stretch of context lines begins behind `line`
      have hbehind : ∃ pre'', pre' = pre'' ++ x :: mid := by
        rcases List.append_eq_append_iff.1 hsplit with ⟨as, -, hstretch⟩ | ⟨bs, -, hstretch⟩
        · have hmem : (line, true) ∈ x :: mid := hstretch ▸ List.mem_append_right _ List.mem_cons_self
          rcases List.mem_cons.1 hmem with rfl | hmem
          · exact absurd hx hline
          · exact absurd (hmid _ hmem) hline
        · cases bs with
          | nil =>
            obtain ⟨rfl, -⟩ := List.cons.inj hstretch
            exact absurd hx hline
          | cons b bs => exact ⟨bs, (List.cons.inj hstretch).2⟩
      obtain ⟨pre'', rfl⟩ := hbehind
      refine h.before pre'' x mid c post ?_ hchange hmid hx hk
      rw [hrest, List.append_assoc]
      rfl
  front hseen mid x post heq hmid hx hk := by
    have heq' : (mid ++ [x]) ++ post = markRun k run mode ++ (line, true) :: kept := by
      rw [heq, List.append_assoc]
      rfl
    -- a stretch of context lines from the start ends before `line`
    have hwithin : ∃ post', markRun k run mode = mid ++ x :: post' := by
      rcases List.append_eq_append_iff.1 heq' with ⟨as, hmarked, -⟩ | ⟨bs, hstretch, hrest⟩
      · exact ⟨as, by rw [hmarked, List.append_assoc]; rfl⟩
      · cases bs with
        | nil => exact ⟨[], by rw [hstretch, List.append_nil]⟩
        | cons b bs =>
          obtain ⟨rfl, -⟩ := List.cons.inj hrest
          have hmem : (line, true) ∈ mid ++ [x] := hstretch ▸ List.mem_append_right _ List.mem_cons_self
          rcases List.mem_append.1 hmem with hmem | hmem
          · exact absurd (hmid _ hmem) hline
          · rw [← List.mem_singleton.1 hmem] at hx
            exact absurd hx hline
    obtain ⟨post', hmarked⟩ := hwithin
    exact markRun_front (hfront hseen) hmarked hk

/-- **The loop**: what it appends is the rendering of the lines it keeps, and these are a thinning. -/
theorem keptLines_spec (d : DiffLines) : ∀ (run : DiffLines) (inside in_hunk seen_change : Bool),
    WellFormedDiff inside d → (inside = true → in_hunk = true) → IsRun run →
    thinLines k (run.map Prod.snd) in_hunk seen_change (d.map Prod.snd) =
        render 0 (keptLines k run in_hunk seen_change d) ∧
      KeptSpec k seen_change (run ++ d) (keptLines k run in_hunk seen_change d) := by
  induction d with
  | nil =>
    intro run inside in_hunk seen_change _ _ hrun
    have hrender : render 0 (markRun k run (if seen_change then .atEnd else .start)) =
        emitContextRun (run.map Prod.snd) k (if seen_change then .atEnd else .start) := by
      rw [← List.append_nil (markRun ..), render_markRun (fun x hx => by cases hx)]
      exact List.append_nil _
    refine ⟨hrender.symm, ?_⟩
    rw [List.append_nil]
    exact keptSpec_nil hrun (ne_start_of_seen TrimMode.noConfusion)
  | cons line rest ih =>
    intro run inside in_hunk seen_change hwf hinside hrun
    obtain ⟨kind, text⟩ := line
    obtain ⟨hfits, hrest⟩ := hwf
    -- every kind but the context line ends the run
    have hstep : ∀ {mode in_hunk' seen_change' inside'},
        LoopStep k run in_hunk seen_change (kind, text) rest mode in_hunk' seen_change' → kind ≠ .context →
        WellFormedDiff inside' rest → (inside' = true → in_hunk' = true) →
        thinLines k (run.map Prod.snd) in_hunk seen_change (((kind, text) :: rest).map Prod.snd) =
            render 0 (keptLines k run in_hunk seen_change ((kind, text) :: rest)) ∧
          KeptSpec k seen_change (run ++ (kind, text) :: rest)
            (keptLines k run in_hunk seen_change ((kind, text) :: rest)) := by
      intro mode in_hunk' seen_change' inside' hloop hkind hwf' hinside'
      obtain ⟨hrender, hspec⟩ := ih [] inside' in_hunk' seen_change' hwf' hinside' (List.forall_mem_nil _)
      refine ⟨?_, ?_⟩
      · have hhead : ∀ x ∈ (((kind, text), true) :: keptLines k [] in_hunk' seen_change' rest).head?, x.2 = true := by
          intro x hx
          cases hx
          rfl
        rw [List.map_cons, hloop.thin, hloop.kept, render_markRun hhead]
        exact congrArg (_ ++ text :: ·) hrender
      · rw [hloop.kept]
        exact keptSpec_cons hrun hkind hloop.front hloop.back hspec
    cases kind with
    | outer =>
      obtain ⟨mode, in_hunk', seen_change', hloop⟩ :=
        @loopStep_outer k run in_hunk seen_change (.outer, text) rest rfl hfits.1 hfits.2
      exact hstep hloop DiffLineKind.noConfusion hrest fun h => by cases h
    | hunkHeader =>
      exact hstep (loopStep_hunkHeader rest rfl hfits) DiffLineKind.noConfusion hrest fun _ => rfl
    | context =>
      obtain ⟨hin, hwf'⟩ := hrest
      have hspace : lineStarts text " " = true := hfits
      have hhunk : lineStarts text "@@" = false := lineStarts_eq_false hspace rfl rfl (by decide)
      have hrun' : IsRun (run ++ [(.context, text)]) := by
        intro l hl
        rcases List.mem_append.1 hl with hl | hl
        · exact hrun l hl
        · rw [List.mem_singleton.1 hl]
          exact ⟨rfl, hfits⟩
      obtain ⟨hrender, hspec⟩ := ih _ true in_hunk seen_change hwf' (fun _ => hinside hin) hrun'
      have hkept : keptLines k run in_hunk seen_change ((.context, text) :: rest) =
          keptLines k (run ++ [(.context, text)]) in_hunk seen_change rest := by
        rw [keptLines, hhunk, if_neg Bool.false_ne_true, if_pos hspace]
      rw [hkept]
      refine ⟨?_, ?_⟩
      · rw [← hrender, List.map_cons, thinLines, hhunk, if_neg Bool.false_ne_true, if_pos hspace, List.map_append]
        rfl
      · rw [List.append_assoc] at hspec
        exact hspec
    | change =>
      obtain ⟨hin, hwf'⟩ := hrest
      have hchange : (lineStarts text "+" || lineStarts text "-" || lineStarts text "\\") = true := by
        rcases hfits with h | h
        · rw [h, Bool.true_or, Bool.true_or]
        · rw [h, Bool.or_true, Bool.true_or]
      rw [hinside hin] at hstep ⊢
      exact hstep (loopStep_change rest hchange) DiffLineKind.noConfusion hwf' fun _ => rfl
    | noNewline =>
      obtain ⟨hin, hwf'⟩ := hrest
      have hchange : (lineStarts text "+" || lineStarts text "-" || lineStarts text "\\") = true := by
        rw [show lineStarts text "\\" = true from hfits, Bool.or_true]
      rw [hinside hin] at hstep ⊢
      exact hstep (loopStep_change rest hchange) DiffLineKind.noConfusion hwf' fun _ => rfl

end Loop

/-! ## The lines of the text -/

section Lines

variable {cur as bs : List Char}

theorem flatten_splitKeepends (cur cs : List Char) : (splitKeepends cur cs).flatten = cur.reverse ++ cs := by
  induction cur, cs using splitKeepends.induct with
  | case1 => rfl
  | case2 cur hcur =>
    rw [splitKeepends, if_neg hcur, List.flatten_singleton, List.append_nil]
  | case3 cur cs ih =>
    rw [splitKeepends, List.flatten_cons, ih]
    simp
  | case4 cur c cs hcr hbreak ih =>
    rw [splitKeepends.eq_3 _ _ _ hcr, if_pos hbreak, List.flatten_cons, ih]
    simp
  | case5 cur c cs hcr hbreak ih =>
    rw [splitKeepends.eq_3 _ _ _ hcr, if_neg hbreak, ih]
    simp

theorem splitKeepends_append (h : ∀ c ∈ as, isLineBreak c = false) :
    splitKeepends cur (as ++ bs) = splitKeepends (as.reverse ++ cur) bs := by
  induction as generalizing cur with
  | nil => rfl
  | cons c as ih =>
    have hbreak : isLineBreak c = false := h c List.mem_cons_self
    have hskip : ∀ ds, c = '\r' → as ++ bs ≠ '\n' :: ds := by
      rintro ds rfl
      exact absurd hbreak (by decide)
    rw [List.cons_append, splitKeepends.eq_3 _ _ _ hskip, hbreak, if_neg Bool.false_ne_true,
      ih fun d hd => h d (List.mem_cons_of_mem _ hd), List.reverse_cons, List.append_assoc]
    rfl

theorem newlineLines_append (h : '\n' ∉ as) : newlineLines cur (as ++ bs) = newlineLines (as.reverse ++ cur) bs := by
  induction as generalizing cur with
  | nil => rfl
  | cons c as ih =>
    have hc : c ≠ '\n' := fun hc => h (hc ▸ List.mem_cons_self)
    rw [List.cons_append, newlineLines, if_neg hc, ih fun hmem => h (List.mem_cons_of_mem _ hmem), List.reverse_cons,
      List.append_assoc]
    rfl

/-- A line with a newline, which has no other break inside. -/
theorem splitKeepends_line (h : Unbroken (as ++ ['\n'])) :
    splitKeepends [] (as ++ '\n' :: bs) = (as ++ ['\n']) :: splitKeepends [] bs := by
  obtain ⟨content, ending, heq, hcontent, hending⟩ := h
  have hnewline : ∀ cs : List Char, splitKeepends cs ('\n' :: bs) = ('\n' :: cs).reverse :: splitKeepends [] bs := by
    intro cs
    rw [splitKeepends.eq_3 _ _ _ (fun ds hds => by cases hds), if_pos (by decide)]
  simp only [List.mem_cons, List.not_mem_nil, or_false] at hending
  -- the ending is the newline, alone or behind a carriage return
  rcases hending with rfl | rfl | rfl | rfl
  · have hmem : '\n' ∈ content := by
      rw [← List.append_nil content, ← heq]
      exact List.mem_append_right _ List.mem_cons_self
    exact absurd (hcontent _ hmem) (by decide)
  · obtain rfl := List.append_cancel_right heq
    rw [splitKeepends_append hcontent, hnewline, List.append_nil, List.reverse_cons, List.reverse_reverse]
  · have hsplit : as ++ ['\n'] = (content ++ ['\r']) ++ ['\n'] := by
      rw [heq, List.append_assoc]
      rfl
    obtain rfl := List.append_cancel_right hsplit
    rw [List.append_assoc, splitKeepends_append hcontent, List.append_nil]
    show ('\n' :: '\r' :: content.reverse).reverse :: splitKeepends [] bs = _
    rw [List.reverse_cons, List.reverse_cons, List.reverse_reverse]
  · have hlast := congrArg List.getLast? heq
    rw [List.getLast?_concat, List.getLast?_concat] at hlast
    exact absurd hlast (by decide)

/-- A last line without a newline. -/
theorem splitKeepends_lastLine (h : Unbroken as) (hne : as ≠ []) (hnewline : '\n' ∉ as) :
    splitKeepends [] as = [as] := by
  obtain ⟨content, ending, rfl, hcontent, hending⟩ := h
  simp only [List.mem_cons, List.not_mem_nil, or_false] at hending
  rw [splitKeepends_append hcontent, List.append_nil]
  rcases hending with rfl | rfl | rfl | rfl
  · rw [List.append_nil] at hne
    show (if content.reverse = [] then [] else [content.reverse.reverse]) = [content ++ []]
    rw [if_neg (mt List.reverse_eq_nil_iff.1 hne), List.reverse_reverse, List.append_nil]
  · exact absurd (List.mem_append_right _ List.mem_cons_self) hnewline
  · exact absurd (List.mem_append_right _ (List.mem_cons_of_mem _ List.mem_cons_self)) hnewline
  · rw [splitKeepends.eq_3 _ _ _ (fun ds _ hds => by cases hds), if_pos (by decide), List.reverse_cons,
      List.reverse_reverse]
    rfl

/-- Where no line has another break inside, `splitlines` finds the lines. -/
theorem splitKeepends_eq_newlineLines : ∀ {text : List Char}, (∀ line ∈ newlineLines [] text, Unbroken line) →
    splitKeepends [] text = newlineLines [] text := by
  intro text
  induction hn : text.length using Nat.strong_induction_on generalizing text with
  | _ n ih =>
  intro h
  by_cases hmem : '\n' ∈ text
  · obtain ⟨before, rest, rfl, hbefore⟩ := List.eq_append_cons_of_mem hmem
    have hlines : newlineLines [] (before ++ '\n' :: rest) = (before ++ ['\n']) :: newlineLines [] rest := by
      rw [newlineLines_append hbefore, newlineLines, if_pos rfl, List.append_nil, List.reverse_cons,
        List.reverse_reverse]
    rw [hlines] at h ⊢
    rw [splitKeepends_line (h _ List.mem_cons_self)]
    refine congrArg _ (ih rest.length ?_ rfl fun line hline => h line (List.mem_cons_of_mem _ hline))
    rw [← hn, List.length_append, List.length_cons]
    omega
  · have hlines : newlineLines [] text = if text = [] then [] else [text] := by
      have happend : newlineLines [] (text ++ []) = newlineLines (text.reverse ++ []) [] := newlineLines_append hmem
      rw [List.append_nil, List.append_nil] at happend
      rw [happend, newlineLines, List.reverse_reverse]
      by_cases hnil : text = []
      · rw [if_pos hnil, hnil]
        rfl
      · rw [if_neg hnil, if_neg (mt List.reverse_eq_nil_iff.1 hnil)]
    rw [hlines] at h ⊢
    by_cases hnil : text = []
    · rw [if_pos hnil, hnil]
      rfl
    · rw [if_neg hnil] at h ⊢
      exact splitKeepends_lastLine (h _ List.mem_cons_self) hnil hmem

end Lines

/-- **The thinned diff.** Where no line of a diff has a line break inside that is not its own, the result keeps every
    line that does not begin with a space and every context line within `context_lines` lines of a change, and tells
    for each place how many were dropped there. -/
theorem unbroken_diff_thinned (text : List Char) (d : DiffLines) (context_lines : Int) (hpos : 0 < context_lines)
    (hlines : newlineLines [] text = d.map Prod.snd) (hwf : WellFormedDiff false d)
    (hunbroken : ∀ line ∈ d, Unbroken line.2) :
    IsThinning context_lines.toNat d (limitDiffContext text context_lines) := by
  have hsplit : splitKeepends [] text = d.map Prod.snd := by
    rw [splitKeepends_eq_newlineLines, hlines]
    intro line hline
    rw [hlines] at hline
    obtain ⟨l, hl, rfl⟩ := List.mem_map.1 hline
    exact hunbroken l hl
  obtain ⟨hrender, hspec⟩ :=
    @keptLines_spec context_lines.toNat d [] false false false hwf (fun h => h) (List.forall_mem_nil _)
  refine ⟨_, hspec.toThinned, ?_⟩
  have hnot : ¬context_lines ≤ 0 := by omega
  unfold limitDiffContext
  rw [if_neg hnot, hsplit]
  exact congrArg List.flatten hrender

/-- A hunk of a file with carriage returns; its last line has no newline. -/
def shortHunk : DiffLines :=
  [(.hunkHeader, "@@ -1,2 +1,3 @@\n".toList), (.context, " one\n".toList), (.context, " two\r\n".toList),
    (.change, "+--- new".toList)]

theorem unbroken_diff_thinned_shortHunk :
    IsThinning 1 shortHunk (limitDiffContext (shortHunk.map Prod.snd).flatten 1) := by
  refine unbroken_diff_thinned _ shortHunk 1 (by decide) rfl ⟨rfl, rfl, rfl, rfl, rfl, .inl rfl, rfl, trivial⟩ ?_
  have hplain : ∀ content : List Char, content.all (fun c => !isLineBreak c) = true →
      ∀ c ∈ content, isLineBreak c = false := by
    intro content h c hc
    simpa using List.all_eq_true.1 h c hc
  intro line hline
  simp only [shortHunk, List.mem_cons, List.not_mem_nil, or_false] at hline
  rcases hline with rfl | rfl | rfl | rfl
  · exact ⟨"@@ -1,2 +1,3 @@".toList, ['\n'], rfl, hplain _ (by decide), by decide⟩
  · exact ⟨" one".toList, ['\n'], rfl, hplain _ (by decide), by decide⟩
  · exact ⟨" two".toList, ['\r', '\n'], rfl, hplain _ (by decide), by decide⟩
  · exact ⟨"+--- new".toList, [], rfl, hplain _ (by decide), by decide⟩

/-- A changed line with a character twice inside. -/
def brokenHunk (c : Char) : DiffLines :=
  [(.hunkHeader, "@@ -0,0 +1 @@\n".toList), (.change, "+a".toList ++ c :: " b".toList ++ c :: " c\n".toList)]

/-- A thinning of lines that do not begin with a space is the text as it is. -/
theorem eq_of_isThinning {k : Nat} {d : DiffLines} {text : List Char} (hspace : ∀ l ∈ d, lineStarts l.2 " " = false)
    (h : IsThinning k d text) : text = (d.map Prod.snd).flatten := by
  obtain ⟨kept, hthinned, htext⟩ := h
  have hall : ∀ x ∈ kept, x.2 = true := by
    intro x hx
    refine hthinned.others x hx (hspace x.1 ?_)
    rw [← hthinned.lines]
    exact List.mem_map_of_mem (f := Prod.fst) hx
  have hkept : kept = d.map (·, true) := by
    rw [← hthinned.lines, List.map_map]
    refine (List.map_id kept).symm.trans (List.map_congr_left fun x hx => ?_)
    exact Prod.ext rfl (hall x hx)
  rw [htext, hkept, ← List.append_nil (d.map (·, true)), render_kept]
  exact congrArg List.flatten (List.append_nil _)

/-- **Every other line break loses a part of a change**: what stands behind it counts as context. -/
theorem break_drops_change {c : Char} (hc : isLineBreak c = true) (hne : c ≠ '\n') :
    ¬IsThinning 1 (brokenHunk c) (limitDiffContext ((brokenHunk c).map Prod.snd).flatten 1) := by
  have hspace : ∀ l ∈ brokenHunk c, lineStarts l.2 " " = false := by
    intro l hl
    simp only [brokenHunk, List.mem_cons, List.not_mem_nil, or_false] at hl
    rcases hl with rfl | rfl <;> rfl
  -- the breaks of `str.splitlines`, the newline apart
  have hbreaks : c = Char.ofNat 11 ∨ c = Char.ofNat 12 ∨ c = '\r' ∨ c = Char.ofNat 28 ∨ c = Char.ofNat 29 ∨
      c = Char.ofNat 30 ∨ c = Char.ofNat 0x85 ∨ c = Char.ofNat 0x2028 ∨ c = Char.ofNat 0x2029 := by
    have hten : c.toNat ≠ 10 := fun h => hne (by rw [← Char.ofNat_toNat c, h])
    have hcases : c.toNat = 11 ∨ c.toNat = 12 ∨ c.toNat = 13 ∨ c.toNat = 28 ∨ c.toNat = 29 ∨ c.toNat = 30 ∨
        c.toNat = 0x85 ∨ c.toNat = 0x2028 ∨ c.toNat = 0x2029 := by
      simp only [isLineBreak, Bool.or_eq_true, Bool.and_eq_true, decide_eq_true_eq, beq_iff_eq] at hc
      omega
    rw [← Char.ofNat_toNat c]
    rcases hcases with h | h | h | h | h | h | h | h | h <;> rw [h] <;> decide
  refine fun hthinning => absurd (eq_of_isThinning hspace hthinning) ?_
  rcases hbreaks with rfl | rfl | rfl | rfl | rfl | rfl | rfl | rfl | rfl <;> decide

/-- A changed line with form feeds. -/
theorem form_feed_drops_change : WellFormedDiff false (brokenHunk (Char.ofNat 12)) ∧
    newlineLines [] ((brokenHunk (Char.ofNat 12)).map Prod.snd).flatten =
      (brokenHunk (Char.ofNat 12)).map Prod.snd ∧
    ¬IsThinning 1 (brokenHunk (Char.ofNat 12))
      (limitDiffContext ((brokenHunk (Char.ofNat 12)).map Prod.snd).flatten 1) :=
  ⟨⟨rfl, .inl rfl, rfl, trivial⟩, rfl, break_drops_change rfl (by decide)⟩

end Core
end RobotsixMill
