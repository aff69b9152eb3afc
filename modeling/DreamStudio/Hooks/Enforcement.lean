import DreamStudio.Library.Least
import DreamStudio.Library.Table
import DreamStudio.WorkOrders.Boundary
import Mathlib.Data.List.Sort
import Mathlib.Data.Prod.Lex

namespace DreamStudio.Hooks

open Library WorkOrders

/-- The columns of `business_projects` that the hooks read. -/
structure HookProject where
  projectId : Text
  name : String
  status : String
  projectPath : Text
  deriving DecidableEq

/-- The columns of `business_work_orders` that the hooks read. -/
structure HookWorkOrder where
  workOrderId : Text
  projectId : Text
  milestoneId : Text
  title : Text
  description : Text
  status : String
  startedAt : Text
  sequenceOrder : Option Int
  createdAt : Text

structure HookMilestone where
  milestoneId : Text
  orderIndex : Option Int

def HookProject.key (r : HookProject) : Option String := r.projectId

def HookWorkOrder.key (r : HookWorkOrder) : Option String := r.workOrderId

/-- The authority as the hooks find it. `dependencies` pairs a work order with one it waits for. -/
structure HookAuthority where
  projects : List HookProject
  workOrders : List HookWorkOrder
  milestones : List HookMilestone
  dependencies : List (String × String)
  projects_unique : Table.Unique HookProject.key projects
  workOrders_unique : Table.Unique HookWorkOrder.key workOrders

/-- A resolved path: the names under the root. -/
abbrev ResolvedPath := List String

/-- `str(path)`. -/
def ResolvedPath.text (path : ResolvedPath) : String := "/" ++ "/".intercalate path

/-- Where a hook runs: the resolution of a path that is stored, and the two directories whose files
are exempt. -/
structure HookEnv where
  py : Stdlib
  resolve : String → Option ResolvedPath
  dsHome : ResolvedPath
  tempRoot : ResolvedPath

/-- `_is_under`. -/
def isUnder (lower : String → String) (path root : ResolvedPath) : Bool :=
  root.isPrefixOf path || (root.map lower).isPrefixOf (path.map lower)

/-- `path.relative_to(root)`, with the case of letters ignored where it has to be. -/
def relativeTo (lower : String → String) (path root : ResolvedPath) : Option ResolvedPath :=
  if root.isPrefixOf path then some (path.drop root.length)
  else if (root.map lower).isPrefixOf (path.map lower) then some ((path.map lower).drop root.length)
  else none

/-- The exemption that stands before the query, in `match_registered_project` and in `enforce`. -/
def HookEnv.exempt (env : HookEnv) (path : ResolvedPath) : Bool :=
  isUnder env.py.lower path env.dsHome || isUnder env.py.lower path env.tempRoot

structure RegisteredProject where
  projectId : Text
  name : String
  projectPath : Text
  deriving DecidableEq

def HookProject.registered (r : HookProject) : RegisteredProject :=
  ⟨r.projectId, r.name, r.projectPath⟩

inductive Attribution
  | moduleBoundary
  | mostRecentlyStarted
  deriving DecidableEq

structure ActiveWorkOrder where
  workOrderId : Text
  title : Text
  description : String
  attribution : Attribution
  claimants : List Text := []
  deriving DecidableEq

structure NextWorkOrder where
  workOrderId : Text
  title : Text
  deriving DecidableEq

/-- `ORDER BY column DESC`: NULL comes last. -/
def notBefore : Text → Text → Bool
  | _, none => true
  | none, some _ => false
  | some a, some b => b ≤ a

def compareNulls {α : Type} [Ord α] (nullsLast : Bool) : Option α → Option α → Ordering
  | none, none => .eq
  | none, some _ => if nullsLast then .gt else .lt
  | some _, none => if nullsLast then .lt else .gt
  | some a, some b => compare a b

namespace HookAuthority

variable (t : HookAuthority)

/-- `status IN ('active', 'paused') AND project_path IS NOT NULL`. -/
def registeredRows : List HookProject :=
  t.projects.filter fun r => (r.status = "active" ∨ r.status = "paused") ∧ r.projectPath ≠ none

def inProgressRows (projectId : String) : List HookWorkOrder :=
  (t.workOrders.filter fun r => r.projectId = some projectId ∧
    r.status = "in_progress").insertionSort
    fun r s => notBefore r.startedAt s.startedAt

/-- The `order_index` of a work order's milestone. -/
def milestoneIndex (r : HookWorkOrder) : Option Int :=
  (t.milestones.find? fun m => r.milestoneId ≠ none ∧ m.milestoneId = r.milestoneId).bind
    (·.orderIndex)

/-- A dependency of the work order is not closed. -/
def waits (r : HookWorkOrder) : Bool :=
  t.dependencies.any fun (w, d) =>
    r.workOrderId = some w ∧ t.workOrders.any fun dep => dep.workOrderId = some d ∧
      dep.status ≠ "closed"

/-- `ORDER BY m.order_index ASC, wo.sequence_order ASC NULLS LAST, wo.created_at ASC`. -/
def comesFirst (r s : HookWorkOrder) : Bool :=
  let index := compareNulls false (t.milestoneIndex r) (t.milestoneIndex s)
  let sequence := compareNulls true r.sequenceOrder s.sequenceOrder
  let created := compareNulls false r.createdAt s.createdAt
  index.then (sequence.then created) ≠ .gt

/-- The created work orders of a project that `keep` keeps, the next one first. -/
def createdRows (keep : HookWorkOrder → Bool) (projectId : String) : List HookWorkOrder :=
  (t.workOrders.filter fun r => r.projectId = some projectId ∧ r.status = "created" ∧
    keep r).insertionSort
    fun r s => t.comesFirst r s

end HookAuthority

/-- What `min` compares candidates by before it comes to the rows. -/
def candidateKey (size : String → Nat) (root : HookProject → Option ResolvedPath)
    (r : HookProject) : Bool ×ₗ Int :=
  toLex (r.status ≠ "active", -(((root r).elim 0 fun path => size path.text : Nat) : Int))

def candidates (env : HookEnv) (root : HookProject → Option ResolvedPath) (path : ResolvedPath)
    (rows : List HookProject) : List HookProject :=
  rows.filter fun r => (root r).any (isUnder env.py.lower path ·)

namespace Enforcement

variable (env : HookEnv) (t : HookAuthority)

/-- `_resolve(row["project_path"])`. -/
def root (r : HookProject) : Option ResolvedPath := r.projectPath.bind env.resolve

def pathKey : HookProject → Bool ×ₗ Int := candidateKey String.length (root env)

/-- `match_registered_project`. Two rows are not ordered: `min` raises where it has to compare
them. -/
def matchRegisteredProject (path : ResolvedPath) : Except String (Option RegisteredProject) :=
  if env.exempt path then .ok none
  else
    match firstLeastOrStuck (pathKey env) (candidates env (root env) path t.registeredRows) with
    | none => .error "'<' not supported between instances of 'sqlite3.Row' and 'sqlite3.Row'"
    | some best => .ok (best.map (·.registered))

/-- `as_posix()` of a relative path. -/
def asPosix (path : ResolvedPath) : String := if path = [] then "." else "/".intercalate path

/-- `g.replace("\\", "/").strip("/")`. -/
def normalizeGlob (g : String) : List Char :=
  let slashed := g.toList.map fun c => if c = '\\' then '/' else c
  ((slashed.dropWhile (· = '/')).reverse.dropWhile (· = '/')).reverse

/-- `path_in_boundary`, on paths that are resolved. -/
def pathInBoundary (file root : ResolvedPath) (globs : List String) : Bool :=
  if globs = [] then true
  else
    match relativeTo env.py.lower file root with
    | none => true
    | some rel =>
      let relLower := env.py.lower (asPosix rel)
      globs.any fun g =>
        let gNorm := env.py.lower (String.ofList (normalizeGlob g))
        relLower = gNorm || startsWith relLower
          (String.ofList ((gNorm.toList.reverse.dropWhile (· = '/')).reverse ++ ['/']))

/-- A declared boundary of the row has the path. -/
def holds (file root : ResolvedPath) (r : HookWorkOrder) : Bool :=
  let globs := boundaryGlobs env.py (r.description.getD "")
  globs ≠ [] && pathInBoundary env file root globs

def asDict (attribution : Attribution) (r : HookWorkOrder) : ActiveWorkOrder :=
  { workOrderId := r.workOrderId, title := r.title, description := r.description.getD ""
    attribution := attribution }

def matched (edited : Option (ResolvedPath × ResolvedPath)) (rows : List HookWorkOrder) :
    List HookWorkOrder :=
  match edited with
  | none => []
  | some (file, root) => rows.filter (holds env file root)

/-- `in_progress_work_order`. -/
def inProgressWorkOrder (projectId : String) (edited : Option (ResolvedPath × ResolvedPath)) :
    Option ActiveWorkOrder :=
  match t.inProgressRows projectId with
  | [] => none
  | first :: rest =>
    match matched env edited (first :: rest) with
    | [] => some (asDict .mostRecentlyStarted first)
    | chosen :: others =>
      some { asDict .moduleBoundary chosen with claimants := (chosen :: others).map (·.workOrderId) }

/-- `next_created_work_order`. -/
def nextCreatedWorkOrder (projectId : String) : Option NextWorkOrder :=
  (t.createdRows (!t.waits ·) projectId).head?.map fun r => ⟨r.workOrderId, r.title⟩

end Enforcement

end DreamStudio.Hooks
