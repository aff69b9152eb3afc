import DreamStudio.Projections.WorkOrder

namespace DreamStudio.Projections

open Library

/-- The types `MilestoneProjection` consumes. -/
inductive MilestoneEventType
  | created
  | completed
  | deleted
  deriving DecidableEq

namespace MilestoneEventType

def text : MilestoneEventType → String
  | created => "milestone.created"
  | completed => "milestone.completed"
  | deleted => "milestone.deleted"

def all : List MilestoneEventType := [created, completed, deleted]

def ofText (eventType : String) : Option MilestoneEventType := all.find? (·.text = eventType)

end MilestoneEventType

/-- A row of `business_milestones`, the columns the projection writes. -/
structure MilestoneRow where
  milestoneId : Text
  projectId : Text := none
  title : Text := none
  description : Text := none
  status : Text := some "pending"
  orderIndex : Text := some "0"
  createdAt : Text := none
  updatedAt : Nat
  sourceEventId : Text := none
  lastEventId : Text := none

abbrev MilestoneTable := List MilestoneRow

namespace MilestoneRow

def key (r : MilestoneRow) : Option String := r.milestoneId

/-- The NOT NULL columns. -/
def admits (r : MilestoneRow) : Bool :=
  r.projectId.isSome && r.title.isSome && r.status.isSome && r.createdAt.isSome

def skeletonTitle : String := "(pending)"

end MilestoneRow

namespace MilestoneTable

def isAlreadyProcessed (t : MilestoneTable) (eventId : String) : Bool :=
  t.any fun r => r.sourceEventId = some eventId ∨ r.lastEventId = some eventId

/-- `INSERT OR IGNORE`: only a row that would go in can fail its foreign key. -/
def insert (registered : Text → Bool) (t : MilestoneTable) (row : MilestoneRow) :
    Except Failure MilestoneTable :=
  if row.admits && !t.any (fun r => Table.SameKey MilestoneRow.key r row) &&
    !registered row.projectId then
    .error ⟨"FOREIGN KEY constraint failed", "sqlite3.IntegrityError"⟩
  else .ok (Table.insertOrIgnore MilestoneRow.key MilestoneRow.admits t row)

/-- `UPDATE … WHERE milestone_id = ?`. -/
def set (t : MilestoneTable) (milestoneId : String) (f : MilestoneRow → MilestoneRow) :
    MilestoneTable :=
  Table.update (fun r => r.key = some milestoneId) f t

def ensureSkeleton (registered : Text → Bool) (t : MilestoneTable) (milestoneId : String)
    (projectId : Text) (now : Nat) : Except Failure MilestoneTable :=
  t.insert registered
    { milestoneId := milestoneId, projectId := projectId, title := some MilestoneRow.skeletonTitle
      createdAt := some (toString now), updatedAt := now }

def backfill (row r : MilestoneRow) : MilestoneRow :=
  { r with
    projectId := coalesce r.projectId row.projectId
    title :=
      coalesce (coalesce (if r.title = some MilestoneRow.skeletonTitle then row.title else none)
        r.title)
        row.title
    description := coalesce r.description row.description
    createdAt := coalesce r.createdAt row.createdAt
    sourceEventId := coalesce r.sourceEventId row.sourceEventId
    updatedAt := row.updatedAt }

def handleCreated (registered : Text → Bool) (t : MilestoneTable) (milestoneId : String)
    (projectId : Text) (payload : Json) (eventId ts : String) (now : Nat) :
    Except Failure (Nat × MilestoneTable) := do
  let title ← bindParam ((← payloadGet payload "title").or (.str MilestoneRow.skeletonTitle))
  let description ← bindParam (← payloadGet payload "description")
  let status ← bindParam ((← payloadGet payload "status").or (.str "pending"))
  let orderIndex ← bindParam ((← payloadGet payload "order_index").or (.int 0))
  let row : MilestoneRow := {
    milestoneId := milestoneId, projectId := projectId, title := title, description := description
    status := status, orderIndex := orderIndex, createdAt := some ts, updatedAt := now
    sourceEventId := some eventId, lastEventId := some eventId }
  return (1, (← t.insert registered row).set milestoneId (backfill row))

/-- `_handle_completed` and `_handle_deleted`. -/
def handleEnded (status : String) (t : MilestoneTable) (milestoneId eventId : String) (now : Nat) :
    MilestoneTable :=
  t.set milestoneId fun r =>
    { r with status := some status, updatedAt := now, lastEventId := some eventId }

def handleCompleted := handleEnded "complete"

def handleDeleted := handleEnded "deleted"

end MilestoneTable

/-- `MilestoneProjection.handle`. The milestone and the project of an event are columns the ingestor
has filled from its trace. `registered` is whether the project is there. -/
def handleMilestone (registered : Text → Bool) (e : Event) (now : Nat) (t : MilestoneTable) :
    Except Failure (Nat × MilestoneTable) :=
  let milestoneId := e.milestoneId.getD ""
  if t.isAlreadyProcessed e.eventId then .ok (0, t)
  else if milestoneId = "" then .ok (0, t)
  else
    match MilestoneEventType.ofText e.eventType with
    | some .created =>
      t.handleCreated registered milestoneId e.projectId (e.payload.or (.obj [])) e.eventId
        e.eventTimestamp now
    | type => do
      let t ← t.ensureSkeleton registered milestoneId e.projectId now
      match type with
      | some .completed => return (1, t.handleCompleted milestoneId e.eventId now)
      | some .deleted => return (1, t.handleDeleted milestoneId e.eventId now)
      | _ => return (0, t)

def milestoneProjection (registered : Text → Bool) : Projection MilestoneTable where
  name := "milestone_projection"
  consumedEventTypes := MilestoneEventType.all.map (·.text)
  sourceCanonical := .business
  retryPolicy := { maxRetries := 3, delayFor := fun attempt => 1000000 * 2 ^ attempt }
  handle := handleMilestone registered
  preRebuild := fun _ => []

end DreamStudio.Projections
