import RobotsixMill.Lib.DelimitedText
import RobotsixMill.Stages.ImplementLoop

/-!
# `Stages.EditClaims` — the edits a run says it made

The messages of a run hold its tool calls. From them the guards of the empty diff read which edit tools were
called, which paths they named, and the edits themselves, to be made again on a clean tree. The arguments of a
call are kept as an object or as a JSON text; `_part_args` reads both, `_claimed_rawpath_from_part` only the
first.

- `detectEditClaimContradiction_eq_nil` — nothing is claimed exactly if no edit tool was called;
- `editsFormatterReverted` — the replay, and what git says of the tree it leaves.
-/

namespace RobotsixMill
namespace Stages
open Lib

/-! ## Messages -/

/-- The arguments of a call by name: `args.get(name)` where that is a text. -/
abbrev CallArgs := String → Option String

/-- `part["args"]`; of a text, what `json.loads` makes of it if that is an object. -/
inductive PartArgs
  | object (fields : CallArgs)
  | text (decoded : Option CallArgs)
  | other

/-- A part of a message that is an object. -/
structure MessagePart where
  partKind : String
  toolName : String := ""
  args : PartArgs := .other

/-- `new_messages`: nothing, a text that is no JSON list, or a list. A message or part that is no object is
    `none`. -/
inductive NewMessages
  | empty
  | malformed
  | list (messages : List (Option (List (Option MessagePart))))

/-- `_REPLAYABLE_EDIT_TOOLS`. -/
def REPLAYABLE_EDIT_TOOLS : List String := ["write_file", "edit_file", "delete_file", "Write", "Edit"]

/-- The tool calls of a list of messages, in order. -/
def toolCallsOf (messages : List (Option (List (Option MessagePart)))) : List MessagePart :=
  (messages.flatMap fun msg => (msg.getD []).filterMap id).filter fun part => decide (part.partKind = "tool-call")

/-- The calls of edit tools among them. -/
def editCallsOf (messages : List (Option (List (Option MessagePart)))) : List MessagePart :=
  (toolCallsOf messages).filter fun part => EDIT_TOOL_NAMES.contains part.toolName

/-- The edit calls; a malformed text has none (`fail_open`). -/
def NewMessages.editCalls : NewMessages → List MessagePart
  | .list messages => editCallsOf messages
  | .empty | .malformed => []

/-- The names of the tools that were called. -/
def NewMessages.toolNames : NewMessages → List String
  | .list messages => (toolCallsOf messages).map MessagePart.toolName
  | .empty | .malformed => []

/-- `detect_edit_claim_contradiction` without changes. -/
def detectEditClaimContradiction (m : NewMessages) : List String :=
  (runInvokedEditTools m.toolNames).eraseDups.insertionSort fun a b => a ≤ b

/-- `isinstance(path, str) and path`. -/
def nonemptyText (field : Option String) : Option String := field.filter fun s => decide (s ≠ "")

/-- The target of an edit: `path` where it is present, else `file_path`. -/
def targetOf (args : CallArgs) : Option String :=
  (nonemptyText (args "path")).orElse fun _ => nonemptyText (args "file_path")

/-- `_part_args`. -/
def partArgs (part : MessagePart) : Option CallArgs :=
  match part.args with
  | .object fields => some fields
  | .text decoded => decoded
  | .other => none

/-- `_claimed_rawpath_from_part` on an edit call: only an object is looked into. -/
def claimedRawpathFromPart (part : MessagePart) : Option String :=
  match part.args with
  | .object fields => targetOf fields
  | .text _ | .other => none

/-- `run_claimed_edited_rawpaths`. -/
def runClaimedEditedRawpaths (m : NewMessages) : List String :=
  (m.editCalls.filterMap claimedRawpathFromPart).eraseDups

/-- The paths the edit calls name, however their arguments are kept. -/
def editedRawpaths (m : NewMessages) : List String :=
  m.editCalls.filterMap fun part => (partArgs part).bind targetOf

theorem runInvokedEditTools_toolNames (m : NewMessages) :
    runInvokedEditTools m.toolNames = m.editCalls.map MessagePart.toolName := by
  cases m with
  | empty => rfl
  | malformed => rfl
  | list messages => exact List.filter_map

theorem detectEditClaimContradiction_eq_nil {m : NewMessages} :
    detectEditClaimContradiction m = [] ↔ m.editCalls = [] := by
  unfold detectEditClaimContradiction
  rw [runInvokedEditTools_toolNames]
  constructor
  · intro h
    rw [List.eq_nil_iff_forall_not_mem] at h ⊢
    intro part hpart
    refine h part.toolName ?_
    rw [List.mem_insertionSort, List.mem_eraseDups]
    exact List.mem_map.2 ⟨part, hpart, rfl⟩
  · intro h
    rw [h]
    rfl

/-! ## The edits themselves -/

/-- An edit that can be made again. -/
inductive ReplayOp
  | delete (path : String)
  | write (path content : String)
  | edit (path old new : String)
deriving DecidableEq, Repr

def ReplayOp.path : ReplayOp → String
  | .delete path | .write path _ | .edit path _ _ => path

/-- The edit of one call, if it can be made again from its arguments. -/
def replayableEdit (part : MessagePart) : Option ReplayOp :=
  if part.toolName ∉ REPLAYABLE_EDIT_TOOLS then none
  else
    (partArgs part).bind fun args =>
      (targetOf args).bind fun path =>
        if part.toolName = "delete_file" then some (.delete path)
        else if part.toolName = "write_file" ∨ part.toolName = "Write" then
          (args "content").map fun content => .write path content
        else
          (args "old_string").bind fun old => (args "new_string").map fun new => .edit path old new

/-- `extract_replayable_edits`; one call that cannot be made again gives up on all. -/
def extractReplayableEdits : NewMessages → Option (List ReplayOp)
  | .empty => some []
  | .malformed => none
  | .list messages => (editCallsOf messages).mapM replayableEdit

/-! ## The clone they are replayed on -/

/-- The texts of the files, by absolute path. -/
abbrev FileTree := String → Option String

/-- The clone of a ticket: its files, and what the file system, git and the formatter say of them. -/
structure EditedClone where
  files : FileTree
  /-- `_resolve_in_repo`; `none` outside the clone. -/
  resolve : String → Option String
  /-- Output of `git status --porcelain` on a tree; `none` when git fails. -/
  statusOf : FileTree → Option String
  /-- `ruff format` on the given files. -/
  format : List String → FileTree → FileTree
  /-- Does a read or a write of the replay raise? -/
  replayRaises : Bool := false
  /-- The path as `git check-ignore` gets it, relative to the clone; `none` outside. -/
  relative : String → Option String
  pathExists : String → Bool
  /-- Exit code of `git check-ignore --quiet`; `none` when it cannot be run. -/
  checkIgnore : String → Option Int
  /-- Is the path matched by an ignore rule? -/
  gitignored : String → Bool

/-- `abs_path.suffix == ".py"`. -/
def isPythonFile (path : String) : Bool :=
  let name := path.toList.reverse.takeWhile (· ≠ '/')
  ".py".toList.reverse.isPrefixOf name && decide (3 < name.length)

/-- One edit made again; `none` where the replay gives up. -/
def ReplayOp.apply (tree : FileTree) (path : String) : ReplayOp → Option FileTree
  | .delete _ => some (fun p => if p = path then none else tree p)
  | .write _ content => some (fun p => if p = path then some content else tree p)
  | .edit _ old new =>
    (tree path).bind fun text => (cutAt old.toList text.toList).map fun cut =>
      fun p => if p = path then some (String.ofList (cut.1 ++ new.toList ++ cut.2)) else tree p

/-- The edits in order, each at its resolved path. -/
def replayAll : FileTree → List (ReplayOp × String) → Option FileTree
  | tree, [] => some tree
  | tree, (op, path) :: rest => (op.apply tree path).bind fun tree' => replayAll tree' rest

/-- Python files the replay touched and did not delete. -/
def pyTouched (ops : List (ReplayOp × String)) : List String :=
  (ops.filter fun op => match op.1 with
    | .delete _ => false
    | _ => isPythonFile op.2).map Prod.snd

/-- `_edits_formatter_reverted`. -/
def editsFormatterReverted (c : EditedClone) (m : NewMessages) : Option Bool :=
  match extractReplayableEdits m with
  | none | some [] => none
  | some (op :: ops) =>
    ((op :: ops).mapM fun op => (c.resolve op.path).map fun path => (op, path)).bind fun resolved =>
      if c.replayRaises then none
      else
        (replayAll c.files resolved).bind fun tree =>
          let py_touched := pyTouched resolved
          let tree := if py_touched.isEmpty then tree else c.format py_touched tree
          (c.statusOf tree).map fun out => decide (strip out = "")

/-! ## Ignored paths -/

/-- `p.lstrip("/")`. -/
def lstripSlash (p : String) : String := String.ofList (p.toList.dropWhile (· = '/'))

/-- `ignored_existing_paths`; `none` when a command cannot be run. -/
def ignoredExistingPaths (c : EditedClone) (paths : List String) : Option (List String) :=
  let rels := (paths.map lstripSlash).filter fun rel => decide (rel ≠ "") && c.pathExists rel
  (rels.mapM fun rel => (c.checkIgnore rel).map fun rc => (rel, rc)).map fun results =>
    (results.filter fun result => decide (result.2 = 0)).map Prod.fst

/-- `_claimed_gitignored_edits`: any error finds nothing. -/
def claimedGitignoredEdits (c : EditedClone) (m : NewMessages) : List String :=
  (ignoredExistingPaths c ((runClaimedEditedRawpaths m).filterMap c.relative).eraseDups).getD []

/-- No edited path of the clone is matched by an ignore rule. -/
def NoIgnoredEdits (c : EditedClone) (m : NewMessages) : Prop :=
  ∀ raw ∈ editedRawpaths m, ∀ rel, c.relative raw = some rel → c.gitignored rel = false

end Stages
end RobotsixMill
