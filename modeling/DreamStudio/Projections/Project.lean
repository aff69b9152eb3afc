import DreamStudio.Projections.WorkOrder

namespace DreamStudio.Projections

open Library

/-- The types `ProjectProjection` consumes. -/
inductive ProjectEventType
  | created
  | activated
  | deactivated
  | deleted
  | clientAssigned
  deriving DecidableEq

namespace ProjectEventType

def text : ProjectEventType → String
  | created => "project.created"
  | activated => "project.activated"
  | deactivated => "project.deactivated"
  | deleted => "project.deleted"
  | clientAssigned => "project.client_assigned"

def all : List ProjectEventType := [created, activated, deactivated, deleted, clientAssigned]

def ofText (eventType : String) : Option ProjectEventType := all.find? (·.text = eventType)

theorem ofText_text (type : ProjectEventType) : ofText type.text = some type := by
  cases type <;> rfl

end ProjectEventType

/-- A row of `business_projects`. The projection writes every column but `project_path`. -/
structure ProjectRow where
  projectId : Text
  name : Text := none
  description : Text := none
  status : Text := some "active"
  createdAt : Text := none
  updatedAt : Nat
  sourceEventId : Text := none
  lastEventId : Text := none
  clientId : Text := none
  projectPath : Text := none

abbrev ProjectTable := List ProjectRow

namespace ProjectRow

def key (r : ProjectRow) : Option String := r.projectId

/-- The NOT NULL columns. -/
def admits (r : ProjectRow) : Bool := r.name.isSome && r.status.isSome && r.createdAt.isSome

end ProjectRow

/-- `NULLIF(column, '')`. -/
def nullIfEmpty (column : Text) : Text := column.filter (· ≠ "")

namespace ProjectTable

def isAlreadyProcessed (t : ProjectTable) (eventId : String) : Bool :=
  t.any fun r => r.sourceEventId = some eventId ∨ r.lastEventId = some eventId

def insert (t : ProjectTable) (row : ProjectRow) : ProjectTable :=
  Table.insertOrIgnore ProjectRow.key ProjectRow.admits t row

/-- `UPDATE … WHERE project_id = ?`. -/
def set (t : ProjectTable) (projectId : Text) (f : ProjectRow → ProjectRow) : ProjectTable :=
  Table.update (fun r => r.key = projectId ∧ projectId ≠ none) f t

def ensureSkeleton (t : ProjectTable) (projectId : Text) (now : Nat) : ProjectTable :=
  t.insert
    { projectId := projectId, name := some "", createdAt := some (toString now), updatedAt := now }

def backfill (row r : ProjectRow) : ProjectRow :=
  { r with
    name := coalesce (nullIfEmpty r.name) row.name
    description := coalesce (nullIfEmpty r.description) row.description
    createdAt := coalesce r.createdAt row.createdAt
    sourceEventId := coalesce r.sourceEventId row.sourceEventId
    updatedAt := row.updatedAt }

/-- `_handle_created`. The UPDATE must leave the NOT NULL name one. -/
def handleCreated (t : ProjectTable) (projectId : Text) (payload : Json) (eventId ts : String)
    (now : Nat) : Except Failure (Nat × ProjectTable) := do
  let name ← bindParam ((← payloadGet payload "name").or (.str ""))
  let description ← bindParam ((← payloadGet payload "description").or (.str ""))
  let status ← bindParam ((← payloadGet payload "status").or (.str "active"))
  let row : ProjectRow := {
    projectId := projectId, name := name, description := description, status := status
    createdAt := some ts, updatedAt := now
    sourceEventId := some eventId, lastEventId := some eventId }
  let t := (t.insert row).set projectId (backfill row)
  if t.all fun r => r.key ≠ projectId || r.name.isSome then return (1, t)
  else .error ⟨"NOT NULL constraint failed: business_projects.name", "sqlite3.IntegrityError"⟩

/-- `_handle_activated`, `_handle_deactivated` and `_handle_deleted`. -/
def handleStatus (status : String) (t : ProjectTable) (projectId : Text)
    (eventId : String) (now : Nat) :
    ProjectTable :=
  t.set projectId fun r =>
    { r with status := some status, updatedAt := now, lastEventId := some eventId }

def handleActivated := handleStatus "active"

def handleDeactivated := handleStatus "paused"

def handleDeleted := handleStatus "deleted"

/-- `_handle_client_assigned`. `clients` is whether a client is there. -/
def handleClientAssigned (clients : Text → Bool) (t : ProjectTable) (projectId : Text)
    (payload : Json) (eventId : String) (now : Nat) : Except Failure (Nat × ProjectTable) := do
  let clientId ← payloadGet payload "client_id"
  if clientId.truthy then
    let clientId ← bindParam clientId
    if clients clientId || !t.any (fun r => r.key = projectId) then
      return (1, t.set projectId fun r =>
        { r with clientId := clientId, updatedAt := now, lastEventId := some eventId })
    else .error ⟨"FOREIGN KEY constraint failed", "sqlite3.IntegrityError"⟩
  else return (0, t)

/-- The dispatch of `handle` on every type but created. -/
def handleTyped (clients : Text → Bool) (t : ProjectTable) (type : Option ProjectEventType)
    (projectId : Text) (payload : Json) (eventId : String) (now : Nat) :
    Except Failure (Nat × ProjectTable) :=
  match type with
  | some .activated => return (1, t.handleActivated projectId eventId now)
  | some .deactivated => return (1, t.handleDeactivated projectId eventId now)
  | some .deleted => return (1, t.handleDeleted projectId eventId now)
  | some .clientAssigned => t.handleClientAssigned clients projectId payload eventId now
  | some .created | none => return (0, t)

end ProjectTable

/-- `ProjectProjection.handle`. The project of an event is a column the ingestor has filled from its
trace, else it is looked up in the payload. -/
def handleProject (clients : Text → Bool) (e : Event) (now : Nat) (t : ProjectTable) :
    Except Failure (Nat × ProjectTable) :=
  if t.isAlreadyProcessed e.eventId then .ok (0, t)
  else do
    let payload := e.payload.or (.obj [])
    let projectId ← columnOr e.projectId payload "project_id"
    if projectId.truthy then
      let projectId ← bindParam projectId
      match ProjectEventType.ofText e.eventType with
      | some .created => t.handleCreated projectId payload e.eventId e.eventTimestamp now
      | type => (t.ensureSkeleton projectId now).handleTyped clients type projectId payload e.eventId now
    else return (0, t)

def projectProjection (clients : Text → Bool) : Projection ProjectTable where
  name := "project_projection"
  consumedEventTypes := ProjectEventType.all.map (·.text)
  sourceCanonical := .business
  retryPolicy := { maxRetries := 3, delayFor := fun attempt => 1000000 * 2 ^ attempt }
  handle := handleProject clients
  preRebuild := fun _ => []

end DreamStudio.Projections
