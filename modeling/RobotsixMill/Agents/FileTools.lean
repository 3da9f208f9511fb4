import Mathlib.Logic.Function.Basic
import RobotsixMill.Lib.Runs
import RobotsixMill.Lib.Utf8

/-!
# `Agents.FileTools` — the file tools of an agent, step by step

The tools of one `build_fs_tools` share a cache of what was read. The calls of one answer of the model run at the
same time, and commands run beside them, so a call is cut into its steps: it reads, from the cache or from the disk,
stores what it read, writes, and evicts. A tool that writes holds the lock of its path all along; `read_file` takes
no lock, and `run_command` and `parallel_commands` know neither locks nor cache.

- `editContent` — what `edit_file` makes of the text it has read;
- `editRequest`, `writeRequest`, `deleteRequest` — the checks before the lock;
- `FsState`, `advance`, `FsStep` — the disk, the cache and the calls, and their steps.
-/

namespace RobotsixMill
namespace Agents
open Lib

abbrev Text := List Char
abbrev Bytes := List UInt8

/-- What the tools are built with, and what they ask of code that is not theirs. -/
structure FsSettings (Path : Type*) where
  /-- `_safe`, which resolves the path. -/
  safe : String → Except String Path
  /-- The suffix is that of a PDF. -/
  isPdf : Path → Bool
  /-- `_extract_pdf_text`, which answers with a text when it fails as well. -/
  extractPdfText : Path → Option Bytes → Text
  lintOnEdit : Bool := true
  /-- What `compile` has against a text. -/
  syntaxError : String → Text → Option String
  /-- What is against a text as a periodic agent's file, if the path is that of one. -/
  rejectPeriodic : String → Text → Option String
  writeBlockedPrefixes : List String := []

section Checks

variable {Path : Type*} (s : FsSettings Path)

/-- `_check_write_allowed`. -/
def checkWriteAllowed (path : String) : Option String :=
  (s.writeBlockedPrefixes.find? fun p => startsWith path p).map fun p =>
    s!"write blocked: path {pyRepr path} starts with blocked prefix {pyRepr p}. The document agent " ++
      s!"is not permitted to modify files under {pyRepr p} — those are source/test directories."

/-- `_check_python_syntax`. -/
def checkPythonSyntax (path : String) (content : Text) : Option String :=
  if endsWith path ".py" = false then none
  else if s.lintOnEdit = false then none
  else s.syntaxError path content

/-- `_read_cached` past the cache, for a file with these bytes; `none` is an error. -/
def readText (p : Path) (bytes : Option Bytes) : Option Text :=
  if s.isPdf p then some (s.extractPdfText p bytes) else bytes.map readReplace

/-! ## The calls -/

/-- A call of `edit_file` on the path `path`, given as `label`. -/
structure EditJob (Path : Type*) where
  label : String
  path : Path
  oldString : Text
  newString : Text
  count : Int := 1
  replaceAll : Bool := false

/-- Occurrences in a text, which may begin at any character. -/
abbrev inText : Char → Bool := fun _ => true

/-- The `count` that `edit_file` goes by. -/
def EditJob.times (e : EditJob Path) (found : Nat) : Int := if e.replaceAll && found ≠ 0 then found else e.count

/-- What `edit_file` writes, or answers with, when it has read `content`. -/
def editContent (e : EditJob Path) (content : Text) : Except String Text :=
  let found := occurrences inText e.oldString content
  let count := e.times found
  if found = 0 then
    .error s!"edit_file: old_string not found in {e.label} — read the file and retry, or use write_file"
  else if count = 1 ∧ found > 1 ∧ e.oldString ≠ [] then
    .error (s!"edit_file: old_string appears {found} times in {e.label} — pass count={found} to replace all, " ++
      "or a smaller count to replace fewer")
  else if (found : Int) < count then
    .error (s!"edit_file: old_string appears {found} time(s) in {e.label}, but {count} replacement(s) were " ++
      "requested — read the file and retry, or use write_file")
  else
    let new := replaced inText e.oldString e.newString count content
    match checkPythonSyntax s e.label new with
    | some problem => .error problem
    | none => .ok new

/-- A call past the checks on its arguments. -/
inductive Job (Path : Type*)
  /-- `read_file`, which takes no lock. -/
  | read (p : Path)
  | write (p : Path) (content : Text)
  | edit (e : EditJob Path)
  | delete (p : Path)

def Job.path : Job Path → Path
  | .read p | .write p _ | .delete p => p
  | .edit e => e.path

/-- The call holds the lock of its path. -/
def Job.locks : Job Path → Bool
  | .read _ => false
  | .write _ _ | .edit _ | .delete _ => true

/-- `path or file_path or target_file`. -/
def pathArgument (path filePath targetFile : Option String) : Option String :=
  [path, filePath, targetFile].findSome? fun given => given.filter (· ≠ "")

/-- `edit_file` up to the lock. -/
def editRequest (path filePath targetFile : Option String) (oldString newString : Option Text) (count : Int)
    (replaceAll : Bool) : Except String (Job Path) :=
  match pathArgument path filePath targetFile with
  | none => .error "error: edit_file requires `path` (the repo-relative file to edit)"
  | some path =>
    match oldString, newString with
    | some old, some new =>
      match checkWriteAllowed s path with
      | some blocked => .error blocked
      | none =>
        match s.safe path with
        | .error e => .error s!"error: {e}"
        | .ok p => .ok (.edit { label := path, path := p, oldString := old, newString := new, count, replaceAll })
    | _, _ => .error "error: edit_file requires both `old_string` and `new_string`"

/-- `write_file` up to the lock. -/
def writeRequest (path filePath targetFile : Option String) (content : Option Text) : Except String (Job Path) :=
  match pathArgument path filePath targetFile with
  | none => .error "error: write_file requires `path` (the repo-relative file to write)"
  | some path =>
    match content with
    | none => .error "error: write_file requires `content`"
    | some content =>
      match checkWriteAllowed s path with
      | some blocked => .error blocked
      | none =>
        match checkPythonSyntax s path content with
        | some problem => .error problem
        | none =>
          match s.rejectPeriodic path content with
          | some rejected => .error rejected
          | none =>
            match s.safe path with
            | .error e => .error s!"error: {e}"
            | .ok p => .ok (.write p content)

/-- `delete_file` up to the lock. -/
def deleteRequest (path : String) : Except String (Job Path) :=
  match checkWriteAllowed s path with
  | some blocked => .error blocked
  | none =>
    match s.safe path with
    | .error e => .error s!"error: {e}"
    | .ok p => .ok (.delete p)

end Checks

/-! ## The steps -/

/-- How far a call is. -/
inductive Stage
  | started
  /-- It has read the disk, and not stored the text. -/
  | loaded (text : Text)
  /-- `edit_file` has the text to work on. -/
  | ready (text : Text)
  /-- It has written, and not evicted. -/
  | written
  | succeeded
  | failed

/-- The call is over. -/
def Stage.ended : Stage → Bool
  | .succeeded | .failed => true
  | _ => false

/-- The disk, the cache and the calls. -/
structure FsState (Path : Type*) where
  disk : Path → Option Bytes
  cache : Path → Option Text
  calls : Nat → Option (Job Path × Stage) := fun _ => none

section Steps

variable {Path : Type*} [DecidableEq Path] (s : FsSettings Path)

namespace FsState

/-- The call `i` is at this stage. -/
def enter (σ : FsState Path) (i : Nat) (job : Job Path) (stage : Stage) : FsState Path :=
  { σ with calls := Function.update σ.calls i (some (job, stage)) }

def writeDisk (σ : FsState Path) (p : Path) (bytes : Option Bytes) : FsState Path :=
  { σ with disk := Function.update σ.disk p bytes }

def store (σ : FsState Path) (p : Path) (text : Option Text) : FsState Path :=
  { σ with cache := Function.update σ.cache p text }

end FsState

/-- The next step of the call `i`, which does `job` and is at `stage`, if nothing goes wrong. -/
def advance (σ : FsState Path) (i : Nat) (job : Job Path) (stage : Stage) : FsState Path :=
  match job, stage with
  | .read p, .started =>
    match σ.cache p with
    | some _ => σ.enter i job .succeeded
    | none =>
      match readText s p (σ.disk p) with
      | none => σ.enter i job .failed
      | some text => σ.enter i job (.loaded text)
  | .read p, .loaded text => (σ.store p (some text)).enter i job .succeeded
  | .edit e, .started =>
    match σ.cache e.path with
    | some text => σ.enter i job (.ready text)
    | none =>
      match readText s e.path (σ.disk e.path) with
      | none => σ.enter i job .failed
      | some text => σ.enter i job (.loaded text)
  | .edit e, .loaded text => (σ.store e.path (some text)).enter i job (.ready text)
  | .edit e, .ready text =>
    match editContent s e text with
    | .error _ => σ.enter i job .failed
    | .ok new => (σ.writeDisk e.path (some (encode new))).enter i job .written
  | .write p content, .started => (σ.writeDisk p (some (encode content))).enter i job .written
  | .delete p, .started =>
    match σ.disk p with
    | none => σ.enter i job .failed
    | some _ => (σ.writeDisk p none).enter i job .written
  | _, .written => (σ.store job.path none).enter i job .succeeded
  | _, _ => σ

/-- The next thing the call does is to change the file. -/
def Job.writesNext : Job Path → Stage → Bool
  | .edit _, .ready _ | .write _ _, .started | .delete _, .started => true
  | _, _ => false

inductive FsEvent (Path : Type*)
  /-- The call begins, with the lock if it takes one. -/
  | begin (i : Nat) (job : Job Path)
  | advance (i : Nat)
  /-- The call ends in an error; a write that fails leaves the file with these bytes. -/
  | fail (i : Nat) (left : Option Bytes)
  /-- A command rewrites, creates or deletes a file. -/
  | command (p : Path) (bytes : Option Bytes)

/-- The lock of `p` is held. -/
def LockHeld (σ : FsState Path) (p : Path) : Prop :=
  ∃ i job stage, σ.calls i = some (job, stage) ∧ job.locks = true ∧ job.path = p ∧ stage.ended = false

/-- **One step** of the tools. -/
inductive FsStep : FsState Path → FsEvent Path → FsState Path → Prop
  | begin {σ : FsState Path} (i : Nat) (job : Job Path) (fresh : σ.calls i = none)
      (lock : job.locks = true → ¬ LockHeld σ job.path) : FsStep σ (.begin i job) (σ.enter i job .started)
  | advance {σ : FsState Path} (i : Nat) (job : Job Path) (stage : Stage) (call : σ.calls i = some (job, stage))
      (going : stage.ended = false) : FsStep σ (.advance i) (advance s σ i job stage)
  | fail {σ : FsState Path} (i : Nat) (job : Job Path) (stage : Stage) (left : Option Bytes)
      (call : σ.calls i = some (job, stage)) (going : stage.ended = false) (before : stage ≠ .written)
      (unwritten : job.writesNext stage = false → left = σ.disk job.path) :
      FsStep σ (.fail i left) ((σ.writeDisk job.path left).enter i job .failed)
  | command {σ : FsState Path} (p : Path) (bytes : Option Bytes) :
      FsStep σ (.command p bytes) (σ.writeDisk p bytes)

end Steps

end Agents
end RobotsixMill
