import Mathlib.Data.List.Sort
import DreamStudio.Library.Dict
import DreamStudio.Projections.Task
import DreamStudio.WorkOrders.Boundary
import DreamStudio.WorkOrders.Status

namespace DreamStudio.WorkOrders

open Library Projections

structure GapTask where
  title : String
  description : String := ""
  acceptanceCriteria : Option String := none
  why : Option String := none

structure Gap where
  title : String
  description : String
  category : Option String := none
  workOrderType : Option String := none
  gapKey : Option String := none
  tasks : List GapTask

/-- A row of `business_work_orders`. -/
structure GapWorkOrder where
  workOrderId : String
  projectId : String
  milestoneId : Option String
  title : String
  description : Option String
  workOrderType : Option String
  status : WorkOrderStatus
  sequenceOrder : Option Int
  createdAt : String
  deriving DecidableEq

/-- A row of `business_tasks`. -/
structure GapTaskRow where
  taskId : String
  workOrderId : String
  projectId : String
  title : String
  description : Option String
  acceptanceCriteria : Option String
  status : TaskStatus
  createdAt : String
  deriving DecidableEq

structure Authority where
  works : List GapWorkOrder
  tasks : List GapTaskRow

structure AdmissionRequest where
  title : String
  acceptanceCriteria : Option String
  why : Option String
  workOrderDescription : String
  existingTitles : List String
  existingCriteria : Dict String String
  named : String

structure Admission where
  admitted : Bool
  refusals : List String
  unknowns : List String

structure Unfiled where
  title : String
  description : String
  gapKey : String
  refusals : List String
  unknowns : List String
  spawnedWorkOrderId : Option String
  origin : Nat × Nat

structure Noted where
  title : String
  gapKey : String
  unknowns : List String

/-- What a call meets: the clock, the ids drawn, what the round table makes of each task of each
gap, and which events could be written. -/
structure GapWorld where
  now : String
  newWorkOrderId : Nat → String
  newTaskId : Nat × Nat → String
  admitTask : Nat × Nat → AdmissionRequest → Admission
  taskEmitted : Nat × Nat → Bool
  workOrderEmitted : Nat → Bool

def openStatuses : List WorkOrderStatus := [.created, .inProgress]

/-- `(s or "").strip().lower()`. -/
def normalised (py : Stdlib) (s : String) : String := py.lower (pyStrip s)

/-- `instr(description, part) > 0`. -/
def instr (description : Option String) (part : String) : Bool := description.any (contains · part)

def splitFirst (marker : List Char) : List Char → Option (List Char × List Char)
  | [] => if marker = [] then some ([], []) else none
  | c :: text =>
    if marker.isPrefixOf (c :: text) then some ([], (c :: text).drop marker.length)
    else (splitFirst marker text).map fun (before, after) => (c :: before, after)

def bracketed (marker : String) (description : Option String) : Option String :=
  match splitFirst marker.toList (description.getD "").toList with
  | none => none
  | some (_, rest) =>
    let key := rest.takeWhile (· ≠ ']')
    if ']' ∈ rest ∧ key ≠ [] then some (String.ofList key) else none

/-- `key.split("::", 1)[1]`, or the whole key. -/
def categoryHalf (key : String) : String :=
  match splitFirst "::".toList key.toList with
  | some (_, category) => String.ofList category
  | none => key

def scopeHalf (key : String) : Option String :=
  (splitFirst "::".toList key.toList).map fun (scope, _) => String.ofList scope

def spawnMarker : String := "[gap-key: "

def attachMarker : String := "[gap-attached: "

section Category

variable (py : Stdlib)

/-- `re.sub(r"[^a-z0-9]+", "-", text).strip("-")`. -/
def slug (text : String) : String :=
  let kept := fun c : Char => ('a' ≤ c && c ≤ 'z') || ('0' ≤ c && c ≤ '9')
  "-".intercalate (((text.toList.splitOnP (!kept ·)).filter (· ≠ [])).map String.ofList)

/-- `_gap_category`. -/
def gapCategory (gap : Gap) : String :=
  let explicit := normalised py (gap.category.getD "")
  if explicit ≠ "" then slug explicit else slug (normalised py gap.title)

/-- `_ADVISORY_PROJECT_WIDE_CATEGORIES`. -/
def advisoryProjectWideCategories : List String :=
  ["missing-behavioral-ac", "add-missing-adversarial-tests-for-durable-reachable-failure-modes",
    "add-missing-test-coverage"]

/-- `_category_open_spawn_count`. -/
def categoryOpenSpawnCount (a : Authority) (projectId category : String) : Nat :=
  a.works.countP fun w =>
    w.projectId = projectId ∧ w.status ∈ openStatuses ∧
      instr w.description ("::" ++ category ++ "]")

/-- `_gap_key`. -/
def gapKeyOf (a : Authority) (projectId reviewed : String) (gap : Gap) : String :=
  let category := gapCategory py gap
  if category ∈ advisoryProjectWideCategories then "advisory::" ++ category
  else if projectId ≠ "" ∧ 2 ≤ categoryOpenSpawnCount a projectId category then
    "advisory::" ++ category
  else reviewed ++ "::" ++ category

/-- `_gap_key_marker`. -/
def gapKeyMarker (gapKey : String) : String := spawnMarker ++ gapKey ++ "]"

end Category

section Text

/-- `compose_declared_reason`. -/
def composeDeclaredReason (description : String) (why : Option String) : String :=
  let words := (((why.getD "").toList.splitOnP pySpace).filter (· ≠ [])).map String.ofList
  let declared := " ".intercalate words
  if declared = "" then description
  else
    let body := pyRstrip description
    body ++ (if body = "" then "" else "\n\n") ++
      "Filed with no executable criterion, on a declared reason:" ++ " " ++ declared

def noEventWarning : String :=
  "\n\n[WARNING: no canonical event was emitted for this task — it will not survive a projection " ++
    "rebuild. Re-run verify once the spool is writable.]"

/-- `if not acceptance_criteria`. -/
def uncriterioned (criteria : Option String) : Bool := criteria.getD "" = ""

end Text

section Attach

variable (py : Stdlib) (world : GapWorld)

/-- `existing`: the titles on a work order. -/
def existingTitles (a : Authority) (workOrderId : String) : List String :=
  (a.tasks.filter (·.workOrderId = workOrderId)).map fun r => normalised py r.title

/-- `existing_criteria`: the open task that holds each criterion. -/
def existingCriteria (a : Authority) (workOrderId : String) : Dict String String :=
  (a.tasks.filter (·.workOrderId = workOrderId)).foldl
    (fun held r =>
      let criterion := pyStrip (r.acceptanceCriteria.getD "")
      if r.status ∈ [.pending, .inProgress] ∧ criterion ≠ "" then Dict.set held criterion r.title
      else held)
    []

def workOrderDescription (a : Authority) (workOrderId : String) : String :=
  ((a.works.find? (·.workOrderId = workOrderId)).bind (·.description)).getD ""

structure Attached where
  added : Nat := 0
  unfiled : List Unfiled := []
  noted : List Noted := []

structure AttachState where
  authority : Authority
  titles : List String
  criteria : Dict String String
  attached : Attached

structure AttachTarget where
  workOrderId : String
  projectId : String
  gapKey : String
  description : String

def attachRequest (s : AttachState) (target : AttachTarget) (task : GapTask) :
    AdmissionRequest where
  title := task.title
  acceptanceCriteria := task.acceptanceCriteria
  why := task.why
  workOrderDescription := target.description
  existingTitles := s.titles
  existingCriteria := s.criteria
  named := task.title ++ " " ++ task.description

def attachedRow (target : AttachTarget) (origin : Nat × Nat) (task : GapTask) : GapTaskRow where
  taskId := world.newTaskId origin
  workOrderId := target.workOrderId
  projectId := target.projectId
  title := task.title
  description :=
    let stamped := task.description ++
      (if target.gapKey = "" then "" else "\n\n" ++ attachMarker ++ target.gapKey ++ "]")
    let declared :=
      if uncriterioned task.acceptanceCriteria then composeDeclaredReason stamped
        task.why else stamped
    some (declared ++ if world.taskEmitted origin then "" else noEventWarning)
  acceptanceCriteria := task.acceptanceCriteria
  status := .pending
  createdAt := world.now

def attachTask (target : AttachTarget) (s : AttachState) (item : GapTask × Nat × Nat) :
    AttachState :=
  let (task, origin) := item
  if normalised py task.title ∈ s.titles then s
  else
    let verdict := world.admitTask origin (attachRequest s target task)
    if !verdict.admitted then
      { s with
        attached.unfiled := s.attached.unfiled ++
          [{ title := task.title, description := task.description, gapKey := target.gapKey
             refusals := verdict.refusals, unknowns := verdict.unknowns, spawnedWorkOrderId := none
             origin := origin }] }
    else
      let criterion := pyStrip (task.acceptanceCriteria.getD "")
      { authority :=
          { s.authority with tasks := s.authority.tasks ++ [attachedRow world target origin task] }
        titles := s.titles ++ [normalised py task.title]
        criteria := if criterion = "" then s.criteria else Dict.set s.criteria criterion task.title
        attached :=
          { added := s.attached.added + 1
            unfiled := s.attached.unfiled
            noted := s.attached.noted ++
              if verdict.unknowns = [] then []
              else [⟨task.title, target.gapKey, verdict.unknowns⟩] } }

def withOrigin (gap : Nat) (tasks : List GapTask) : List (GapTask × Nat × Nat) :=
  tasks.zipIdx.map fun (task, j) => (task, gap, j)

/-- `_attach_gap_tasks`. -/
def attachGapTasks (gap : Nat) (a : Authority) (workOrderId projectId : String)
    (tasks : List GapTask) (gapKey : String := "") : Attached × Authority :=
  let target : AttachTarget :=
    { workOrderId := workOrderId, projectId := projectId, gapKey := gapKey
      description := workOrderDescription a workOrderId }
  let start : AttachState :=
    { authority := a, titles := existingTitles py a workOrderId
      criteria := existingCriteria a workOrderId, attached := {} }
  let last := (withOrigin gap tasks).foldl (attachTask py world target) start
  (last.attached, last.authority)

end Attach

/-- What `_insert_gap_work_orders` is called with, besides the gaps. -/
structure InsertCall where
  projectId : String
  milestoneId : Option String
  reviewedWorkOrderId : String
  reviewedWoTitle : String
  reviewedWoSequence : Option Int
  reviewedWoIncomplete : Bool

inductive GapRoute
  | attachedToReviewed (tasksAdded : Nat) (attachmentPressure : Option String)
  | respawnSuppressed
  | mergedIntoExisting
  | spawned (tasksFiled : Nat) (eventEmitted : Bool) (refusedTaskCount : Option Nat)

structure GapRecord where
  workOrderId : String
  title : String
  type : String
  gapKey : String
  route : GapRoute
  unfiledFindings : List Unfiled
  admissionUnknowns : List Noted

structure InsertState where
  authority : Authority
  spawned : List GapRecord
  unfiledOnSpawn : List Unfiled
  newWoCounter : Nat

inductive Routing
  | attach
  | suppress (workOrderId : String)
  | merge (workOrderId : String)
  | spawn
  deriving DecidableEq

section Insert

variable (py : Stdlib) (world : GapWorld) (call : InsertCall)

/-- `ORDER BY CASE status …, created_at ASC`, rows that tie in the order they were inserted. -/
def priorTo (w w' : GapWorkOrder) : Prop :=
  let rank := fun w : GapWorkOrder =>
    if w.status = .inProgress then 0 else if w.status = .created then 1 else 2
  rank w < rank w' ∨ rank w = rank w' ∧ w.createdAt ≤ w'.createdAt

instance : DecidableRel priorTo := fun _ _ => inferInstanceAs (Decidable (_ ∨ _ ∧ _))

def priorRow (a : Authority) (needle : String) : Option GapWorkOrder :=
  ((a.works.filter fun w => w.projectId = call.projectId ∧ instr w.description needle).insertionSort
    priorTo).head?

/-- `_work_order_is_open`. -/
def Authority.isOpen (a : Authority) (workOrderId : String) : Bool :=
  (a.works.find? (·.workOrderId = workOrderId)).any (·.status ∈ openStatuses)

def searchNeedle (gap : Gap) (gapKey : String) : String :=
  if startsWith gapKey "advisory::" then "::" ++ gapCategory py gap ++ "]" else gapKeyMarker gapKey

def routeGap (a : Authority) (gap : Gap) : Routing :=
  let gapKey := gapKeyOf py a call.projectId call.reviewedWorkOrderId gap
  let projectWide := startsWith gapKey "advisory::"
  let prior := priorRow call a (searchNeedle py gap gapKey)
  let settled := prior.any fun p =>
    p.status ∉ openStatuses && !projectWide && p.workOrderId ≠ call.reviewedWorkOrderId
  if !settled ∧ call.reviewedWoIncomplete ∧ a.isOpen call.reviewedWorkOrderId then .attach
  else
    match prior with
    | none => .spawn
    | some p =>
      if p.status ∈ openStatuses then .merge p.workOrderId
      else if projectWide then .spawn
      else .suppress p.workOrderId

/-- `_attached_gap_keys`. -/
def attachedGapKeys (a : Authority) (workOrderId : String) : List String :=
  (((a.tasks.filter (·.workOrderId = workOrderId)).filterMap fun r =>
    bracketed attachMarker r.description)).dedup

def attachmentPressure (a : Authority) (gapKey : String) : Option String :=
  let rounds := (attachedGapKeys a call.reviewedWorkOrderId ∪ [gapKey]).length
  if 3 ≤ rounds then
    some ("this work order has absorbed gaps on " ++ toString rounds ++
      " separate reviews. Consider " ++
      "carrying the remainder into a new work order and closing this one at its true scope, rather " ++
      "than letting one work order grow without bound.")
  else none

def baseSeq (a : Authority) : Int :=
  let reviewed := call.reviewedWoSequence.getD 0
  match call.milestoneId with
  | none => reviewed
  | some milestoneId =>
    if milestoneId = "" then reviewed
    else
      ((a.works.filter (·.milestoneId = some milestoneId)).filterMap (·.sequenceOrder)).foldl max
        reviewed

def spawnDescription (gap : Gap) (gapKey : String) : String :=
  "Spawned by review of '" ++ call.reviewedWoTitle ++ "' on " ++ pyTake 10 world.now ++ ": " ++
    gap.description ++ " " ++ gapKeyMarker gapKey

def spawnedRow (base : Int) (counter i : Nat) (gap : Gap) (gapKey : String) : GapWorkOrder where
  workOrderId := world.newWorkOrderId i
  projectId := call.projectId
  milestoneId := call.milestoneId
  title := gap.title
  description := some (spawnDescription world call gap gapKey ++
    if world.workOrderEmitted i then "" else noEventWarning)
  workOrderType := some (gap.workOrderType.getD "cleanup")
  status := .created
  sequenceOrder := some (base + counter + 1)
  createdAt := world.now

def spawnTaskDescription (task : GapTask) : String :=
  if uncriterioned task.acceptanceCriteria then composeDeclaredReason task.description task.why
  else task.description

def spawnRequest (description : String) (task : GapTask) : AdmissionRequest where
  title := task.title
  acceptanceCriteria := task.acceptanceCriteria
  why := task.why
  workOrderDescription := description
  existingTitles := []
  existingCriteria := []
  named := task.title ++ " " ++ spawnTaskDescription task

def spawnedTask (origin : Nat × Nat) (task : GapTask) : GapTaskRow where
  taskId := world.newTaskId origin
  workOrderId := world.newWorkOrderId origin.1
  projectId := call.projectId
  title := task.title
  description := some (spawnTaskDescription task ++
    if world.taskEmitted origin then "" else noEventWarning)
  acceptanceCriteria := task.acceptanceCriteria
  status := .pending
  createdAt := world.now

def spawnRefusal (origin : Nat × Nat) (gap : Gap) (task : GapTask) (verdict : Admission) :
    Unfiled where
  title := task.title
  description := spawnTaskDescription task
  gapKey := gap.gapKey.getD ""
  refusals := verdict.refusals
  unknowns := verdict.unknowns
  spawnedWorkOrderId := some (world.newWorkOrderId origin.1)
  origin := origin

def spawnTask (gap : Gap) (description : String) (s : List GapTaskRow × List Unfiled)
    (item : GapTask × Nat × Nat) : List GapTaskRow × List Unfiled :=
  let (task, origin) := item
  let verdict := world.admitTask origin (spawnRequest description task)
  if verdict.admitted then (s.1 ++ [spawnedTask world call origin task], s.2)
  else (s.1, s.2 ++ [spawnRefusal world origin gap task verdict])

def spawnTasks (i : Nat) (gap : Gap) (description : String) : List GapTaskRow × List Unfiled :=
  (withOrigin i gap.tasks).foldl (spawnTask world call gap description) ([], [])

def attachTasks (gap : Gap) : List GapTask :=
  if gap.tasks = [] then [{ title := gap.title, description := gap.description }] else gap.tasks

def insertGap (base : Int) (s : InsertState) (item : Gap × Nat) : InsertState :=
  let (gap, i) := item
  let a := s.authority
  let gapKey := gapKeyOf py a call.projectId call.reviewedWorkOrderId gap
  let record (workOrderId : String) (route : GapRoute) (attached : Attached) : GapRecord :=
    { workOrderId := workOrderId, title := gap.title, type := gap.workOrderType.getD "cleanup"
      gapKey := gapKey, route := route, unfiledFindings := attached.unfiled
      admissionUnknowns := attached.noted }
  match routeGap py call a gap with
  | .attach =>
    let (attached, a') := attachGapTasks py world i a call.reviewedWorkOrderId call.projectId
      (attachTasks gap) gapKey
    { s with
      authority := a'
      spawned := s.spawned ++ [record call.reviewedWorkOrderId
        (.attachedToReviewed attached.added (attachmentPressure call a gapKey)) attached] }
  | .suppress workOrderId =>
    { s with spawned := s.spawned ++ [record workOrderId .respawnSuppressed {}] }
  | .merge workOrderId =>
    let (attached, a') := attachGapTasks py world i a workOrderId call.projectId gap.tasks
    { s with
      authority := a'
      spawned := s.spawned ++ [record workOrderId .mergedIntoExisting attached] }
  | .spawn =>
    let (rows, refused) := spawnTasks world call i gap (spawnDescription world call gap gapKey)
    { authority :=
        { works := a.works ++ [spawnedRow world call base s.newWoCounter i gap gapKey]
          tasks := a.tasks ++ rows }
      spawned := s.spawned ++ [record (world.newWorkOrderId i)
        (.spawned rows.length (world.workOrderEmitted i)
          (if gap.tasks ≠ [] ∧ rows = [] then some gap.tasks.length else none)) {}]
      unfiledOnSpawn := s.unfiledOnSpawn ++ refused
      newWoCounter := s.newWoCounter + 1 }

def redistribute (records : List GapRecord) (unfiledOnSpawn : List Unfiled) : List GapRecord :=
  if unfiledOnSpawn = [] then records
  else
    let own := records.map fun r =>
      { r with
        unfiledFindings := unfiledOnSpawn.filter fun item =>
          item.spawnedWorkOrderId.getD "" = r.workOrderId }
    let orphaned := unfiledOnSpawn.filter fun item =>
      item.spawnedWorkOrderId ∉ records.map fun r => some r.workOrderId
    match own with
    | [] => []
    | r :: rs => { r with unfiledFindings := r.unfiledFindings ++ orphaned } :: rs

def insertGaps (a : Authority) (gaps : List Gap) : InsertState :=
  gaps.zipIdx.foldl (insertGap py world call (baseSeq call a))
    { authority := a, spawned := [], unfiledOnSpawn := [], newWoCounter := 0 }

/-- `_insert_gap_work_orders`. -/
def insertGapWorkOrders (a : Authority) (gaps : List Gap) : List GapRecord × Authority :=
  let s := insertGaps py world call a gaps
  (redistribute s.spawned s.unfiledOnSpawn, s.authority)

end Insert

end DreamStudio.WorkOrders
