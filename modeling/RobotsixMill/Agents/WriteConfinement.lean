import RobotsixMill.Agents.FileTools
import RobotsixMill.Lib.Symlinks
import RobotsixMill.Lib.DelimitedText

/-!
# `Agents.WriteConfinement` — where do the file tools write?

A call that changes a file passes two checks. `_safe` resolves the path, links and all, and wants it in the
repository or in an extra root. `_check_write_allowed` looks at the text of the path alone, and wants it not to begin
with a blocked prefix. So every file that is changed is where it should be, but one below a blocked directory is
refused only if it is spelled as the prefix is.

- `changes_resolved` — the file that a call changes is the one that its path was resolved to;
- `confined_iff` — exactly which calls are kept out of the blocked directories;
- `dotted_path_evades` — a call that is not.
-/

namespace RobotsixMill
namespace Agents
open Lib

/-- What the tools of an agent are confined to, in a file system with these links. -/
structure Workspace where
  links : Links
  root : List String
  rootExists : Bool := true
  extraRoots : List (List String) := []
  /-- the stage run that owns the tools was abandoned -/
  abandoned : Bool := false

/-- The names of a path; those of a path like `a//b` or `a/` are empty where there is nothing. -/
def pathNames (path : String) : List String := (splitChar '/' path.toList).map String.ofList

/-- `root / rel`, as names from the root of the file system. -/
def joinPath (root : List String) (rel : String) : List String :=
  if startsWith rel "/" then pathNames rel else root ++ pathNames rel

/-- `_safe`. -/
def Workspace.safe (w : Workspace) (rel : String) : Except String Location :=
  if w.abandoned then
    .error (s!"path {pyRepr rel}: the stage run owning this tool was abandoned " ++
      "(deadline expired) — stop; a fresh run has taken over the ticket")
  else if !w.rootExists then
    .error "workspace repo directory does not exist — the repository has not been cloned yet"
  -- `lstat` takes no such name
  else if rel.toList.contains (Char.ofNat 0) then .error "lstat: embedded null character in path"
  else
    let p := realpath w.links (joinPath w.root rel)
    let root := realpath w.links w.root
    if p ≠ root && !root.isPrefixOf p then
      if w.extraRoots.any fun extra => (realpath w.links extra).isPrefixOf p then .ok p
      else
        .error (s!"path {pyRepr rel} escapes the repository — all filesystem tools " ++
          "(read_file, list_dir, run_command) are sandboxed to the repo " ++
          "checkout, so files outside it (installed dependencies under " ++
          "site-packages, /usr/local/lib, /etc, other workspaces) are NOT " ++
          "reachable by any tool. Do NOT retry this path and do NOT fall " ++
          "back to run_command/grep/cat on it — it will fail the same way.")
    else .ok p

/-- The tools in this workspace. -/
def Workspace.tools (w : Workspace) (s : FsSettings Location) : FsSettings Location := { s with safe := w.safe }

/-! ## What a call changes -/

/-- A call of a tool that changes files, with the arguments it is given. -/
inductive WriteCall
  | writeFile (path filePath targetFile : Option String) (content : Option Text)
  | editFile (path filePath targetFile : Option String) (oldString newString : Option Text) (count : Int)
      (replaceAll : Bool)
  | deleteFile (path : String)

/-- The path that a call is about, if it names one. -/
def WriteCall.path : WriteCall → Option String
  | .writeFile path filePath targetFile _ => pathArgument path filePath targetFile
  | .editFile path filePath targetFile _ _ _ _ => pathArgument path filePath targetFile
  | .deleteFile path => some path

/-- What the checks make of a call. -/
def WriteCall.request (s : FsSettings Location) : WriteCall → Except String (Job Location)
  | .writeFile path filePath targetFile content => writeRequest s path filePath targetFile content
  | .editFile path filePath targetFile oldString newString count replaceAll =>
    editRequest s path filePath targetFile oldString newString count replaceAll
  | .deleteFile path => deleteRequest s path

/-- What is on the disk, and what the operating system lets the tools do there. -/
structure Disk where
  text : Location → Option Text
  writable : Location → Bool
  removable : Location → Bool

section Changes

variable (w : Workspace) (s : FsSettings Location) (disk : Disk)

/-- The job is done, and changes the file at `loc`: a file is opened wherever its links lead, and removed from the
    directory that it is found in. -/
def CarriesOut (job : Job Location) (loc : Location) : Prop :=
  match job with
  | .read _ => False
  | .write p _ => Opens w.links [] p loc ∧ disk.writable loc = true
  | .edit e => (∃ text new, disk.text e.path = some text ∧ editContent s e text = .ok new) ∧
      Opens w.links [] e.path loc ∧ disk.writable loc = true
  | .delete p => ∃ dir name parent, p = dir ++ [name] ∧ Opens w.links [] dir parent ∧ loc = parent ++ [name] ∧
      disk.removable loc = true

/-- The call creates, changes or removes the file at `loc`. -/
def Changes (call : WriteCall) (loc : Location) : Prop :=
  ∃ job, call.request (w.tools s) = .ok job ∧ CarriesOut w s disk job loc

/-- It is in the repository or in an extra root. -/
def Workspace.Inside (loc : Location) : Prop :=
  realpath w.links w.root <+: loc ∨ ∃ extra ∈ w.extraRoots, realpath w.links extra <+: loc

/-- The place that a blocked prefix stands for. -/
def Workspace.place (p : String) : Location := realpath w.links (joinPath w.root p)

/-- It is below a blocked place. -/
def Blocked (loc : Location) : Prop := ∃ p ∈ s.writeBlockedPrefixes, w.place p <+: loc

/-- **The confinement of a call.** -/
def Confined (call : WriteCall) : Prop := ∀ loc, Changes w s disk call loc → w.Inside loc ∧ ¬ Blocked w s loc

/-- A call whose path is resolved to a blocked place, is not spelled as one, and is otherwise carried out. -/
structure Evades (call : WriteCall) : Prop where
  spelled : ∃ path, call.path = some path ∧ Blocked w s (w.place path) ∧
    ∀ p ∈ s.writeBlockedPrefixes, startsWith path p = false
  carriedOut : ∃ job loc, call.request (w.tools { s with writeBlockedPrefixes := [] }) = .ok job ∧
    CarriesOut w s disk job loc

end Changes

variable {w : Workspace} {s : FsSettings Location} {disk : Disk} {call : WriteCall} {job : Job Location} {loc : Location}

/-! ## The two checks -/

/-- `_safe` lets a path pass that is resolved to a place inside. -/
theorem Workspace.safe_ok {rel : String} {p : Location} (h : w.safe rel = .ok p) : p = w.place rel ∧ w.Inside p := by
  rw [Workspace.safe] at h
  split at h
  · cases h
  · split at h
    · cases h
    · split at h
      · cases h
      · dsimp only at h
        split at h
        · split at h
          · rename_i hextra
            obtain rfl := Except.ok.inj h
            obtain ⟨extra, hmem, hbelow⟩ := List.any_eq_true.1 hextra
            exact ⟨rfl, Or.inr ⟨extra, hmem, List.isPrefixOf_iff_prefix.1 hbelow⟩⟩
          · cases h
        · rename_i hroot
          obtain rfl := Except.ok.inj h
          refine ⟨rfl, Or.inl ?_⟩
          by_cases heq : realpath w.links (joinPath w.root rel) = realpath w.links w.root
          · rw [heq]
          · simpa [heq] using hroot

theorem checkWriteAllowed_eq_none_iff {path : String} :
    checkWriteAllowed s path = none ↔ ∀ p ∈ s.writeBlockedPrefixes, startsWith path p = false := by
  rw [checkWriteAllowed, Option.map_eq_none_iff, List.find?_eq_none]
  simp only [Bool.not_eq_true]

/-- A call that passes the checks is about the file that its path was resolved to. -/
theorem request_ok (h : call.request (w.tools s) = .ok job) :
    ∃ path, call.path = some path ∧ w.safe path = .ok job.path := by
  cases call with
  | writeFile path filePath targetFile content =>
      rw [WriteCall.request, writeRequest] at h
      split at h
      · cases h
      · rename_i path hpath
        split at h
        · cases h
        · split at h
          · cases h
          · split at h
            · cases h
            · split at h
              · cases h
              · split at h
                · cases h
                · rename_i p hsafe
                  obtain rfl := Except.ok.inj h
                  exact ⟨path, hpath, hsafe⟩
  | editFile path filePath targetFile oldString newString count replaceAll =>
      rw [WriteCall.request, editRequest] at h
      split at h
      · cases h
      · rename_i path hpath
        split at h
        · split at h
          · cases h
          · split at h
            · cases h
            · rename_i p hsafe
              obtain rfl := Except.ok.inj h
              exact ⟨path, hpath, hsafe⟩
        · cases h
  | deleteFile path =>
      rw [WriteCall.request, deleteRequest] at h
      split at h
      · cases h
      · split at h
        · cases h
        · rename_i p hsafe
          obtain rfl := Except.ok.inj h
          exact ⟨path, rfl, hsafe⟩

/-- The blocked prefixes add one check, of the text of the path. -/
theorem request_ok_iff {path : String} (hpath : call.path = some path) : call.request (w.tools s) = .ok job ↔
    (∀ p ∈ s.writeBlockedPrefixes, startsWith path p = false) ∧
      call.request (w.tools { s with writeBlockedPrefixes := [] }) = .ok job := by
  rw [← checkWriteAllowed_eq_none_iff]
  have hfree : checkWriteAllowed (w.tools { s with writeBlockedPrefixes := [] }) path = none :=
    checkWriteAllowed_eq_none_iff.2 fun p hp => absurd hp List.not_mem_nil
  have hsame : checkWriteAllowed (w.tools s) path = checkWriteAllowed s path := rfl
  cases call with
  | writeFile path filePath targetFile content =>
      have hpath : pathArgument path filePath targetFile = _ := hpath
      rw [WriteCall.request, WriteCall.request, writeRequest, writeRequest, hpath]
      cases content with
      | none => simp
      | some content =>
          dsimp only
          rw [hfree, hsame]
          cases checkWriteAllowed s _ with
          | some blocked => simp
          | none =>
              rw [and_iff_right rfl]
              rfl
  | editFile path filePath targetFile oldString newString count replaceAll =>
      have hpath : pathArgument path filePath targetFile = _ := hpath
      rw [WriteCall.request, WriteCall.request, editRequest, editRequest, hpath]
      cases oldString with
      | none => simp
      | some old =>
          cases newString with
          | none => simp
          | some new =>
              dsimp only
              rw [hfree, hsame]
              cases checkWriteAllowed s _ with
              | some blocked => simp
              | none =>
                  rw [and_iff_right rfl]
                  rfl
  | deleteFile path' =>
      obtain rfl := Option.some.inj hpath
      rw [WriteCall.request, WriteCall.request, deleteRequest, deleteRequest, hfree, hsame]
      cases checkWriteAllowed s path' with
      | some blocked => simp
      | none =>
          rw [and_iff_right rfl]
          rfl

/-! ## The file that is changed -/

/-- A resolved path is changed where it is. -/
theorem path_of_carriesOut (hsettled : Settled w.links job.path) (h : CarriesOut w s disk job loc) :
    loc = job.path := by
  have hopens (p : Location) (hp : Settled w.links p) (hloc : Opens w.links [] p loc) : loc = p := by
    obtain ⟨k, hwalk⟩ := hloc
    exact Settled.opens hp hwalk
  cases job with
  | read p => exact h.elim
  | write p content => exact hopens p hsettled h.1
  | edit e => exact hopens e.path hsettled h.2.1
  | delete p =>
      obtain ⟨dir, name, parent, rfl, ⟨k, hwalk⟩, rfl, -⟩ := h
      have hdir : Settled w.links dir := Settled.of_prefix hsettled (List.prefix_append dir [name])
      have hparent : parent = [] ++ dir := Settled.opens hdir hwalk
      rw [hparent]
      rfl

theorem changes_resolved (h : Changes w s disk call loc) :
    ∃ path, call.path = some path ∧ loc = w.place path ∧ w.Inside loc := by
  obtain ⟨job, hrequest, hcarries⟩ := h
  obtain ⟨path, hpath, hsafe⟩ := request_ok hrequest
  obtain ⟨hplace, hinside⟩ := w.safe_ok hsafe
  have hsettled : Settled w.links job.path := by
    rw [hplace]
    exact settled_realpath _
  obtain rfl := path_of_carriesOut hsettled hcarries
  exact ⟨path, hpath, hplace, hinside⟩

/-- **Which calls are confined.** Whatever the links, the file that a call changes is in the repository or in an extra
    root. It is below no blocked place exactly unless the path is resolved to one, is not spelled with a blocked
    prefix, and the call is otherwise carried out. -/
theorem confined_iff : Confined w s disk call ↔ ¬ Evades w s disk call := by
  constructor
  · intro hconfined hevades
    obtain ⟨path, hpath, hblocked, hspelled⟩ := hevades.spelled
    obtain ⟨job, loc, hrequest, hcarries⟩ := hevades.carriedOut
    have hchanges : Changes w s disk call loc := ⟨job, (request_ok_iff hpath).2 ⟨hspelled, hrequest⟩, hcarries⟩
    obtain ⟨path', hpath', hplace, -⟩ := changes_resolved hchanges
    obtain rfl : path = path' := Option.some.inj (hpath.symm.trans hpath')
    apply (hconfined loc hchanges).2
    rw [hplace]
    exact hblocked
  · intro hnot loc hchanges
    obtain ⟨path, hpath, hplace, hinside⟩ := changes_resolved hchanges
    refine ⟨hinside, fun hblocked => hnot ?_⟩
    obtain ⟨job, hrequest, hcarries⟩ := hchanges
    obtain ⟨hspelled, hfree⟩ := (request_ok_iff hpath).1 hrequest
    exact ⟨⟨path, hpath, hplace ▸ hblocked, hspelled⟩, ⟨job, loc, hfree, hcarries⟩⟩

/-! ## A path that begins with a dot -/

/-- A clone without links. -/
def plainClone : Workspace := { links := .empty, root := ["srv", "clone"] }

/-- The tools of the agent that writes the documentation. -/
def documentTools : FsSettings Location where
  safe := plainClone.safe
  isPdf _ := false
  extractPdfText _ _ := []
  syntaxError _ _ := none
  rejectPeriodic _ _ := none
  writeBlockedPrefixes := ["www/", "src/"]

/-- A disk that is empty, and lets everything be written. -/
def blankDisk : Disk where
  text _ := none
  writable _ := true
  removable _ := true

/-- `write_file("./src/app.py", "")`. -/
def dottedWrite : WriteCall := .writeFile (some "./src/app.py") none none (some [])

theorem dotted_path_evades : ¬ ∀ (w : Workspace) (s : FsSettings Location) (disk : Disk) (call : WriteCall),
    Confined w s disk call := by
  intro hclaim
  have hchanges : Changes plainClone documentTools blankDisk dottedWrite ["srv", "clone", "src", "app.py"] :=
    ⟨.write ["srv", "clone", "src", "app.py"] [], rfl, ⟨4, rfl⟩, rfl⟩
  apply (hclaim _ _ _ _ _ hchanges).2
  refine ⟨"src/", by decide, ?_⟩
  show ["srv", "clone", "src"] <+: _
  exact ⟨["app.py"], rfl⟩

end Agents
end RobotsixMill
