import DreamStudio.Projections.WorkOrder

namespace DreamStudio.Projections

open Library

/-- `TASK_STATUSES`. -/
inductive TaskStatus
  | pending
  | inProgress
  | complete
  | done
  | cancelled
  | deleted
  deriving DecidableEq

namespace TaskStatus

/-- `TASK_DONE_STATUSES + TASK_ABANDONED_STATUSES`. -/
def settled : List TaskStatus := [complete, done, cancelled, deleted]

/-- `is_open`. -/
def isOpen (s : TaskStatus) : Bool := s ∉ settled

end TaskStatus

/-- The types `TaskProjection` consumes. -/
inductive TaskEventType
  | created
  | started
  | completed
  | cancelled
  | deleted
  | acRepointed
  deriving DecidableEq

namespace TaskEventType

def text : TaskEventType → String
  | created => "task.created"
  | started => "task.started"
  | completed => "task.completed"
  | cancelled => "task.cancelled"
  | deleted => "task.deleted"
  | acRepointed => "task.ac_repointed"

def all : List TaskEventType := [created, started, completed, cancelled, deleted, acRepointed]

def ofText (eventType : String) : Option TaskEventType := all.find? (·.text = eventType)

theorem ofText_text (type : TaskEventType) : ofText type.text = some type := by
  cases type <;> rfl

end TaskEventType

/-- A row of `business_tasks`. -/
structure TaskRow where
  taskId : Text
  workOrderId : Text := none
  projectId : Text := none
  title : Text := none
  description : Text := none
  acceptanceCriteria : Text := none
  status : TaskStatus := .pending
  createdAt : Text := none
  updatedAt : Nat
  sourceEventId : Text := none
  lastEventId : Text := none

abbrev TaskTable := List TaskRow

def TaskRow.key (r : TaskRow) : Option String := r.taskId

/-- The NOT NULL columns. -/
def TaskRow.admits (r : TaskRow) : Bool :=
  r.workOrderId.isSome && r.projectId.isSome && r.title.isSome && r.createdAt.isSome

structure TaskColumns where
  workOrderId : Text
  projectId : Text
  title : Text
  description : Text := none
  createdAt : Text

def TaskRow.columns (r : TaskRow) : TaskColumns where
  workOrderId := r.workOrderId
  projectId := r.projectId
  title := r.title
  description := r.description
  createdAt := r.createdAt

def skeletonTitle : String := "(pending)"

/-- The tables a task's keys are looked up in: `_resolve_project_id` of a project key and a work
order, and whether a work order and a project are there. -/
structure TaskKeys where
  resolveProjectId : Text → Text → Text
  references : Text → Text → Bool

namespace TaskTable

def isAlreadyProcessed (t : TaskTable) (eventId : String) : Bool :=
  t.any fun r => r.sourceEventId = some eventId ∨ r.lastEventId = some eventId

/-- `INSERT OR IGNORE`: only a row that would go in can fail its foreign keys. -/
def insert (keys : TaskKeys) (t : TaskTable) (row : TaskRow) : Except Failure TaskTable :=
  if row.admits && !t.any (fun r => Table.SameKey TaskRow.key r row) && 
      !keys.references row.workOrderId row.projectId then
    .error ⟨"FOREIGN KEY constraint failed", "sqlite3.IntegrityError"⟩
  else .ok (Table.insertOrIgnore TaskRow.key TaskRow.admits t row)

def ensureSkeleton (keys : TaskKeys) (t : TaskTable) (taskId workOrderId projectId : Text)
    (now : Nat) : Except Failure TaskTable :=
  t.insert keys
    { taskId := taskId, workOrderId := workOrderId, projectId := projectId
      title := skeletonTitle, createdAt := some (toString now), updatedAt := now }

def backfill (row r : TaskRow) : TaskRow :=
  { r with
    workOrderId := coalesce r.workOrderId row.workOrderId
    projectId := coalesce r.projectId row.projectId
    title := if r.title = some skeletonTitle then row.title else coalesce r.title row.title
    description := coalesce r.description row.description
    acceptanceCriteria := coalesce r.acceptanceCriteria row.acceptanceCriteria
    createdAt := coalesce r.createdAt row.createdAt
    sourceEventId := coalesce r.sourceEventId row.sourceEventId
    updatedAt := row.updatedAt }

/-- `UPDATE … WHERE task_id = ?`. -/
def set (t : TaskTable) (taskId : Text) (f : TaskRow → TaskRow) : TaskTable :=
  Table.update (fun r => r.taskId = taskId ∧ taskId ≠ none) f t

def fill (t : TaskTable) (taskId : Text) (row : TaskRow) : Except Failure TaskTable :=
  if t.any fun r => (r.taskId = taskId ∧ taskId ≠ none) ∧ (backfill row r).admits = false then
    .error ⟨"NOT NULL constraint failed: business_tasks.title", "sqlite3.IntegrityError"⟩
  else .ok (t.set taskId (backfill row))

def handleCreated (keys : TaskKeys) (t : TaskTable) (taskId workOrderId projectId : Text)
    (payload : Json) (eventId ts : String) (now : Nat) : Except Failure (Nat × TaskTable) := do
  let title ← bindParam ((← payloadGet payload "title").or (.str skeletonTitle))
  let description ← bindParam (← payloadGet payload "description")
  let acceptanceCriteria ← bindParam (← payloadGet payload "acceptance_criteria")
  let row : TaskRow := {
    taskId := taskId, workOrderId := workOrderId, projectId := projectId, title := title
    description := description, acceptanceCriteria := acceptanceCriteria, createdAt := some ts
    updatedAt := now, sourceEventId := some eventId, lastEventId := some eventId }
  return (1, ← (← t.insert keys row).fill taskId row)

/-- `_handle_started`: a task that has settled stays as it is. -/
def handleStarted (t : TaskTable) (taskId : Text) (eventId : String) (now : Nat) : TaskTable :=
  t.set taskId fun r =>
    if r.status ∈ TaskStatus.settled then r
    else { r with status := .inProgress, updatedAt := now, lastEventId := some eventId }

/-- `_handle_completed`, `_handle_cancelled` and `_handle_deleted`. -/
def handleEnded (status : TaskStatus) (t : TaskTable) (taskId : Text)
    (eventId : String) (now : Nat) :
    TaskTable :=
  t.set taskId fun r => { r with status := status, updatedAt := now, lastEventId := some eventId }

def handleCompleted := handleEnded .complete

def handleCancelled := handleEnded .cancelled

def handleDeleted := handleEnded .deleted

def handleAcRepointed (t : TaskTable) (taskId : Text) (payload : Json)
    (eventId : String) (now : Nat) :
    Except Failure (Nat × TaskTable) := do
  let criteria ← payloadGet payload "acceptance_criteria"
  if criteria.truthy then
    let criteria ← bindParam criteria
    return (1, t.set taskId fun r =>
      { r with acceptanceCriteria := criteria, sourceEventId := some eventId, updatedAt := now })
  else return (0, t)

/-- The dispatch of `handle` on every type but created. -/
def handleTyped (t : TaskTable) (type : Option TaskEventType) (taskId : Text) (payload : Json)
    (eventId : String) (now : Nat) : Except Failure (Nat × TaskTable) :=
  match type with
  | some .started => return (1, t.handleStarted taskId eventId now)
  | some .completed => return (1, t.handleCompleted taskId eventId now)
  | some .cancelled => return (1, t.handleCancelled taskId eventId now)
  | some .deleted => return (1, t.handleDeleted taskId eventId now)
  | some .acRepointed => t.handleAcRepointed taskId payload eventId now
  | some .created | none => return (0, t)

end TaskTable

/-- `TaskProjection.handle`. The task, work order and project of an event are columns the ingestor
has filled from its trace. -/
def handleTask (keys : TaskKeys) (e : Event) (now : Nat) (t : TaskTable) :
    Except Failure (Nat × TaskTable) :=
  if t.isAlreadyProcessed e.eventId then .ok (0, t)
  else if e.taskId.getD "" = "" then .ok (0, t)
  else
    let payload := e.payload.or (.obj [])
    let projectId := keys.resolveProjectId e.projectId e.workOrderId
    match TaskEventType.ofText e.eventType with
    | some .created =>
      t.handleCreated keys e.taskId e.workOrderId projectId payload e.eventId e.eventTimestamp now
    | type => do
      let t ← t.ensureSkeleton keys e.taskId e.workOrderId projectId now
      t.handleTyped type e.taskId payload e.eventId now

def taskProjection (keys : TaskKeys) : Projection TaskTable where
  name := "task_projection"
  consumedEventTypes := TaskEventType.all.map (·.text)
  sourceCanonical := .business
  retryPolicy := { maxRetries := 3, delayFor := fun attempt => 1000000 * 2 ^ attempt }
  handle := handleTask keys
  preRebuild := fun _ => []

end DreamStudio.Projections
