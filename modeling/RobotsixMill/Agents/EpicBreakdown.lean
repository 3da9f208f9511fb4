import RobotsixMill.Core.Models
import RobotsixMill.Lib.PyText
import RobotsixMill.Lib.Table
import Mathlib.Data.List.Sort

/-!
# `Agents.EpicBreakdown` — the dependencies of an epic's new children

`planChildDependencies` wires a batch of freshly created children. Base edges put them in a chain, or
behind the child that creates their repository. Where a child imports from the repo of a sibling, a bump
child is created between the two: the consumer waits for the bump, the bump for all children of the
producer repo. The two kinds of edges are computed apart and merged.

- `detectCrossRepoDeps` — the bump children and their edges;
- `computeBaseEdges` — the chain, or the star around the child that creates the repository.
-/

namespace RobotsixMill
namespace Agents
open RobotsixMill.Core Lib

/-- A repository id of the configuration. -/
abbrev RepoId := String

/-- One newly created child. -/
structure Child where
  id : TicketId
  title : String
  body : String
deriving DecidableEq, Repr

/-- The callables and the configuration of the cross-repo detection. -/
structure CrossRepo where
  childBoardId : TicketId → BoardId
  /-- The n-th call of `create_child`; `none` when it raises. -/
  createChild : Nat → String → String → Option TicketId
  /-- `get_repos_config().repos`: repo ids with their boards. -/
  repos : List (RepoId × BoardId)

/-- What the planning reads from the texts of the children. -/
structure BreakdownContext where
  /-- `_is_init_repo_child`. -/
  isInitRepoChild : String → String → Bool
  /-- `_parse_prereq_packages`, in the order the set is iterated. -/
  parsePrereqPackages : String → List String
  /-- The order in which a set of repo ids is iterated. -/
  setOrder : List RepoId → List RepoId
  setOrder_perm : ∀ l, (setOrder l).Perm l

/-! ## Cross-repo detection -/

section Detect

variable (ctx : BreakdownContext) (x : CrossRepo) (children : List Child)

/-- The repo of a board: the first one configured for it. -/
def repoOfBoard (board : BoardId) : Option RepoId :=
  (x.repos.find? fun entry => decide (entry.2 = board)).map Prod.fst

/-- The children with a repo. -/
def childRepoPairs : List (TicketId × RepoId) :=
  children.filterMap fun c => (repoOfBoard x (x.childBoardId c.id)).map fun repo => (c.id, repo)

/-- `_build_child_repo_map`. -/
def buildChildRepoMap : Table TicketId RepoId := .ofPairs (childRepoPairs x children)

/-- `rid.lower().replace("-", "_")`. -/
def packageName (rid : RepoId) : String :=
  String.ofList ((lower rid).toList.map fun c => if c = '-' then '_' else c)

/-- `_build_package_repo_map`. -/
def buildPackageRepoMap (repoIds : List RepoId) : Table String RepoId :=
  .ofPairs (repoIds.map fun rid => (packageName rid, rid))

/-- `set(child_repo.values())`, as iterated. -/
def repoIdsPresent : List RepoId :=
  ctx.setOrder ((buildChildRepoMap x children).rows.map Prod.snd).eraseDups

/-- The children of each repo. -/
def repoChildren : Table RepoId (List TicketId) :=
  (buildChildRepoMap x children).rows.foldl
    (fun t row => t.upsert row.2 fun ids => ids.getD [] ++ [row.1]) .empty

/-- One prerequisite of a child on the repo of a sibling. -/
structure Use where
  consumerRepo : RepoId
  producerRepo : RepoId
  consumer : TicketId
  package : String
deriving DecidableEq, Repr

/-- The prerequisites the grouping loops run over, in their order. -/
def crossRepoUses : List Use :=
  children.flatMap fun c =>
    match (buildChildRepoMap x children).get c.id with
    | none => []
    | some consumerRepo =>
      (ctx.parsePrereqPackages c.body).filterMap fun pkg =>
        match (buildPackageRepoMap (repoIdsPresent ctx x children)).get pkg with
        | none => none
        | some producerRepo =>
          if producerRepo = consumerRepo then none
          else if ((repoChildren x children).get producerRepo).getD [] = [] then none
          else some { consumerRepo, producerRepo, consumer := c.id, package := pkg }

/-- The consumers and the packages of a (consumer repo, producer repo) pair. -/
abbrev Candidate := List TicketId × List String

/-- Enter one use. -/
def addUse (u : Use) (entry : Option Candidate) : Candidate :=
  let (consumers, packages) := entry.getD ([], [])
  (if u.consumer ∈ consumers then consumers else consumers ++ [u.consumer],
    if u.package ∈ packages then packages else packages ++ [u.package])

/-- `_group_bump_candidates`. -/
def groupBumpCandidates : Table (RepoId × RepoId) Candidate :=
  (crossRepoUses ctx x children).foldl
    (fun t u => t.upsert (u.consumerRepo, u.producerRepo) (addUse u)) .empty

end Detect

/-! ### Bump children -/

/-- `", ".join(sorted(packages))`. -/
def packageList (packages : List String) : String :=
  ", ".intercalate (packages.insertionSort (· ≤ ·))

def bumpTitle (consumerRepo producerRepo : RepoId) (packages : List String) : String :=
  s!"Bump {consumerRepo}'s {producerRepo} pin to include {packageList packages}"

/-- `text.split()[0]`. -/
def firstWord (text : String) : String :=
  String.ofList ((text.toList.dropWhile isPySpace).takeWhile fun c => !isPySpace c)

def bumpBody (consumerRepo producerRepo : RepoId) (packages : List String) : String :=
  let pkgs := packageList packages
  "## Scope\n\n" ++
  s!"Bump the git-rev pin of `{producerRepo}` in " ++
  s!"`{consumerRepo}`'s `pyproject.toml` to the latest commit " ++
  s!"on `{producerRepo}`'s default branch, then regenerate " ++
  "the lockfile so that the following symbols become " ++
  s!"importable: {pkgs}.\n\n" ++
  "## Steps\n\n" ++
  s!"1. Determine the latest commit hash of `{producerRepo}` " ++
  "on its default branch (the producer children have merged " ++
  "by this point).\n" ++
  "2. Update `pyproject.toml`: change the `rev` for the " ++
  s!"`{producerRepo}` dependency to the new hash.\n" ++
  s!"3. Run `uv lock --upgrade-package {firstWord pkgs}`.\n" ++
  "4. Commit both `pyproject.toml` and `uv.lock`.\n\n" ++
  "## Acceptance criteria\n\n" ++
  s!"- `pyproject.toml` pins `{producerRepo}` to a commit " ++
  s!"that includes the symbols: {pkgs}.\n" ++
  "- `uv.lock` is regenerated and consistent.\n"

/-- Dependency lists by ticket. -/
abbrev EdgeMap := Table TicketId (List TicketId)

/-- The edges of one bump child. -/
def bumpEdges (bumpId : TicketId) (consumerIds producerIds : List TicketId) : EdgeMap :=
  consumerIds.foldl (fun t cid => t.upsert cid fun deps => deps.getD [] ++ [bumpId])
    (Table.empty.put bumpId producerIds)

section Plan

variable (ctx : BreakdownContext) (x : CrossRepo) (children : List Child)

/-- The id the n-th call of `create_child` gives the bump child of a candidate. -/
def bumpId (n : Nat) (pair : RepoId × RepoId) (candidate : Candidate) : Option TicketId :=
  x.createChild n (bumpTitle pair.1 pair.2 candidate.2) (bumpBody pair.1 pair.2 candidate.2)

/-- Step 6 of `_detect_cross_repo_deps`: create the bump children and wire them. -/
def wireBumps : Nat → List ((RepoId × RepoId) × Candidate) → EdgeMap → EdgeMap
  | _, [], edges => edges
  | n, (pair, candidate) :: rest, edges =>
    let producerIds := ((repoChildren x children).get pair.2).getD []
    if producerIds = [] then wireBumps n rest edges
    else
      match bumpId x n pair candidate with
      | none => wireBumps (n + 1) rest edges
      | some bump => wireBumps (n + 1) rest (edges.update (bumpEdges bump candidate.1 producerIds))

/-- `_detect_cross_repo_deps`. -/
def detectCrossRepoDeps : EdgeMap :=
  if (repoIdsPresent ctx x children).length ≤ 1 then .empty
  else wireBumps x children 0 (groupBumpCandidates ctx x children).rows .empty

end Plan

/-! ## The plan -/

/-- A chain, the first child after the predecessor. -/
def chainEdges : Option TicketId → List Child → EdgeMap → EdgeMap
  | _, [], edges => edges
  | prev, c :: cs, edges =>
    chainEdges (some c.id) cs (match prev with
      | none => edges
      | some p => edges.put c.id [p])

/-- The first child that creates a repository, and the others. -/
def splitInit (ctx : BreakdownContext) (children : List Child) : Option (Child × List Child) :=
  match children.span fun c => !ctx.isInitRepoChild c.title c.body with
  | (_, []) => none
  | (before, init :: after) => some (init, before ++ after)

/-- `_compute_base_edges`. -/
def computeBaseEdges (ctx : BreakdownContext) (children : List Child) (predecessorId : Option TicketId) :
    EdgeMap :=
  match splitInit ctx children with
  | some (init, others) =>
    let start : EdgeMap := match predecessorId with
      | none => .empty
      | some p => Table.empty.put init.id [p]
    others.foldl (fun t c => t.put c.id [init.id]) start
  | none => chainEdges predecessorId children .empty

/-- `plan_child_dependencies`; `cross` is absent when a callable or the configuration is. -/
def planChildDependencies (ctx : BreakdownContext) (children : List Child)
    (predecessorId : Option TicketId) (cross : Option CrossRepo) : EdgeMap :=
  let edges := computeBaseEdges ctx children predecessorId
  match cross with
  | none => edges
  | some x =>
    (detectCrossRepoDeps ctx x children).rows.foldl
      (fun t row => t.upsert row.1 fun deps => deps.getD [] ++ row.2) edges

end Agents
end RobotsixMill
