import DreamStudio.Projections.Engine
import DreamStudio.WorkOrders.Status

namespace DreamStudio.Projections

open Library WorkOrders

/-- A row of `business_work_orders`: the columns the projection writes, and the author's
`sequence_order`, which it does not. -/
structure WorkOrderRow where
  workOrderId : Text
  projectId : Text := none
  milestoneId : Text := none
  title : Text := none
  status : WorkOrderStatus := .created
  createdAt : Text := none
  startedAt : Text := none
  closedAt : Text := none
  blockedAt : Text := none
  unblockedAt : Text := none
  blockReason : Text := none
  sourceEventId : Text := none
  lastEventId : Text := none
  lastUpdatedAt : Nat
  description : Text := none
  workOrderType : Text := none
  originatingSymptom : Text := none
  priority : Priority := .normal
  blockedFromStatus : Option WorkOrderStatus := none
  sequenceOrder : Option Int := none

abbrev WorkOrderTable := List WorkOrderRow

def WorkOrderRow.key (r : WorkOrderRow) : Option String := r.workOrderId

structure Carried where
  projectId : Text
  milestoneId : Text := none
  title : Text := none
  workOrderType : Text := none
  createdAt : Text := none
  originatingSymptom : Text := none
  description : Text := none
  deriving DecidableEq

def WorkOrderRow.carried (r : WorkOrderRow) : Carried where
  projectId := r.projectId
  milestoneId := r.milestoneId
  title := r.title
  workOrderType := r.workOrderType
  createdAt := r.createdAt
  originatingSymptom := r.originatingSymptom
  description := r.description

/-- `COALESCE(column, value)`. -/
def coalesce (column value : Text) : Text := column.or value

/-- `payload.get(key)`. -/
def payloadGet (payload : Json) (key : String) : Except Failure Json :=
  match payload with
  | .obj fields => .ok (Json.lookup fields key)
  | v => .error ⟨"'" ++ v.pyType ++ "' object has no attribute 'get'", "AttributeError"⟩

/-- `event.get(column) or payload.get(column)`. -/
def columnOr (column : Text) (payload : Json) (key : String) : Except Failure Json :=
  match column with
  | none => payloadGet payload key
  | some s => if s = "" then payloadGet payload key else .ok (.str s)

def bindParam (v : Json) : Except Failure Text :=
  match bindText v with
  | .ok text => .ok text
  | .error message => .error ⟨"Error binding parameter: " ++ message, "sqlite3.Error"⟩

theorem bindParam_ofOption (t : Text) : bindParam (.ofOption t) = .ok t := by
  cases t <;> rfl

namespace WorkOrderTable

/-- `is_already_processed`. -/
def isAlreadyProcessed (t : WorkOrderTable) (eventId : String) : Bool :=
  t.any fun r => r.sourceEventId = some eventId ∨ r.lastEventId = some eventId

/-- `safe_upsert` with the columns `set` names. -/
def safeUpsert (t : WorkOrderTable) (workOrderId : Text) (set : WorkOrderRow → WorkOrderRow) :
    WorkOrderTable :=
  Table.upsert WorkOrderRow.key { workOrderId := workOrderId, lastUpdatedAt := 0 } set t

def ensureSkeleton (t : WorkOrderTable) (workOrderId projectId : Text) (now : Nat) :
    WorkOrderTable :=
  Table.insertOrIgnore WorkOrderRow.key (fun _ => true) t
    { workOrderId := workOrderId, projectId := projectId, status := creationStatus
      lastUpdatedAt := now }

/-- What a created event fills in where the row has nothing. `priority` is NOT NULL, so its COALESCE
keeps what is there. -/
def backfill (row r : WorkOrderRow) : WorkOrderRow :=
  { r with
    projectId := coalesce r.projectId row.projectId
    milestoneId := coalesce r.milestoneId row.milestoneId
    title := coalesce r.title row.title
    workOrderType := coalesce r.workOrderType row.workOrderType
    createdAt := coalesce r.createdAt row.createdAt
    sourceEventId := coalesce r.sourceEventId row.sourceEventId
    originatingSymptom := coalesce r.originatingSymptom row.originatingSymptom
    lastUpdatedAt := row.lastUpdatedAt }

def insertCreated (t : WorkOrderTable) (row : WorkOrderRow) : WorkOrderTable :=
  Table.update (Table.SameKey WorkOrderRow.key · row) (backfill row)
    (Table.insertOrIgnore WorkOrderRow.key (fun _ => true) t row)

def createdRow (workOrderId : Text) (projectId milestoneId payload : Json) (eventId ts : String)
    (now : Nat) : Except Failure WorkOrderRow := do
  let projectId ← bindParam projectId
  let milestoneId ← bindParam milestoneId
  let title ← bindParam (← payloadGet payload "title")
  let workOrderType ← bindParam (← payloadGet payload "type")
  let originatingSymptom ← bindParam (← payloadGet payload "originating_symptom")
  let description ← bindParam (← payloadGet payload "description")
  let priority := coercePriority (← payloadGet payload "priority")
  return {
    workOrderId := workOrderId, projectId := projectId, milestoneId := milestoneId
    title := title, workOrderType := workOrderType, status := creationStatus
    createdAt := some ts, sourceEventId := some eventId, lastEventId := some eventId
    lastUpdatedAt := now, originatingSymptom := originatingSymptom, priority := priority
    description := description }

def handleCreated (t : WorkOrderTable) (workOrderId : Text) (projectId milestoneId payload : Json)
    (eventId ts : String) (now : Nat) : Except Failure WorkOrderTable :=
  return t.insertCreated (← createdRow workOrderId projectId milestoneId payload eventId ts now)

/-- `_handle_status_only`: a CI failure is a blocker too. -/
def handleStatusOnly (t : WorkOrderTable) (workOrderId : Text) (type : WorkOrderEventType)
    (eventId : String) (now : Nat) : WorkOrderTable :=
  t.safeUpsert workOrderId fun r =>
    { r with
      status := type.statusFor, lastEventId := some eventId, lastUpdatedAt := now
      priority := if type = .ciFailed then .blocker else r.priority }

def handleStarted (t : WorkOrderTable) (workOrderId : Text) (eventId ts : String) (now : Nat) :
    WorkOrderTable :=
  t.safeUpsert workOrderId fun r =>
    { r with
      status := WorkOrderEventType.started.statusFor, startedAt := some ts
      lastEventId := some eventId, lastUpdatedAt := now }

/-- `remembers` is `remembers_block_phase`: the authority has the column. -/
def handleBlocked (remembers : Bool) (t : WorkOrderTable) (workOrderId : Text) (payload : Json)
    (eventId ts : String) (now : Nat) : Except Failure WorkOrderTable := do
  let blockReason ← bindParam
    ((← payloadGet payload "reason").or (← payloadGet payload "block_reason"))
  let fromStatus := openPhase (← payloadGet payload "from_status")
  return t.safeUpsert workOrderId fun r =>
    { r with
      status := WorkOrderEventType.blocked.statusFor, blockedAt := some ts
      blockReason := blockReason, lastEventId := some eventId, lastUpdatedAt := now
      blockedFromStatus := if remembers then fromStatus else r.blockedFromStatus }

def backTo (remembers : Bool) (t : WorkOrderTable) (workOrderId : Text)
    (named : Option WorkOrderStatus) : Option WorkOrderStatus :=
  named.or
    (if remembers then
      ((workOrderId.bind fun w => Table.lookup WorkOrderRow.key w t).bind
        (·.blockedFromStatus)).bind openStatus
    else none)

def handleUnblocked (remembers : Bool) (t : WorkOrderTable) (workOrderId : Text) (payload : Json)
    (eventId ts : String) (now : Nat) : Except Failure WorkOrderTable := do
  let back := t.backTo remembers workOrderId (openPhase (← payloadGet payload "to_status"))
  return t.safeUpsert workOrderId fun r =>
    { r with
      status := back.getD WorkOrderEventType.unblocked.statusFor, unblockedAt := some ts
      blockReason := none, lastEventId := some eventId, lastUpdatedAt := now
      blockedFromStatus := if remembers then none else r.blockedFromStatus }

def handleReopened (t : WorkOrderTable) (workOrderId : Text) (eventId : String) (now : Nat) :
    WorkOrderTable :=
  t.safeUpsert workOrderId fun r =>
    { r with
      status := WorkOrderEventType.reopened.statusFor, closedAt := none
      lastEventId := some eventId, lastUpdatedAt := now }

/-- `_handle_closed` and `_handle_cancelled`. -/
def handleEnded (type : WorkOrderEventType) (t : WorkOrderTable) (workOrderId : Text)
    (eventId ts : String) (now : Nat) : WorkOrderTable :=
  t.safeUpsert workOrderId fun r =>
    { r with
      status := type.statusFor, closedAt := some ts, lastEventId := some eventId
      lastUpdatedAt := now }

def handleClosed := handleEnded .closed

def handleCancelled := handleEnded .cancelled

def handleDeleted (t : WorkOrderTable) (workOrderId : Text) (eventId : String) (now : Nat) :
    WorkOrderTable :=
  t.safeUpsert workOrderId fun r =>
    { r with
      status := WorkOrderEventType.deleted.statusFor, lastEventId := some eventId
      lastUpdatedAt := now }

/-- The dispatch of `handle` on every type but created. -/
def handleTyped (remembers : Bool) (t : WorkOrderTable) (type : Option WorkOrderEventType)
    (workOrderId : Text) (payload : Json) (eventId ts : String) (now : Nat) :
    Except Failure (Nat × WorkOrderTable) :=
  match type with
  | some .started => return (1, t.handleStarted workOrderId eventId ts now)
  | some .blocked => return (1, ← t.handleBlocked remembers workOrderId payload eventId ts now)
  | some .unblocked => return (1, ← t.handleUnblocked remembers workOrderId payload eventId ts now)
  | some .reopened => return (1, t.handleReopened workOrderId eventId now)
  | some .closed => return (1, t.handleClosed workOrderId eventId ts now)
  | some .cancelled => return (1, t.handleCancelled workOrderId eventId ts now)
  | some .deleted => return (1, t.handleDeleted workOrderId eventId now)
  | some type => return (1, t.handleStatusOnly workOrderId type eventId now)
  | none => return (0, t)

end WorkOrderTable

/-- `WorkOrderProjection.handle`. -/
def handleWorkOrder (remembers : Bool) (e : Event) (now : Nat) (t : WorkOrderTable) :
    Except Failure (Nat × WorkOrderTable) :=
  if t.isAlreadyProcessed e.eventId then .ok (0, t)
  else do
    let payload := e.payload.or (.obj [])
    let workOrderId ← columnOr e.workOrderId payload "work_order_id"
    if workOrderId.truthy then
      let projectId ← columnOr e.projectId payload "project_id"
      let milestoneId ← columnOr e.milestoneId payload "milestone_id"
      let workOrderId ← bindParam workOrderId
      if WorkOrderEventType.ofText e.eventType = some .created then
        return (1, ← t.handleCreated workOrderId projectId milestoneId payload e.eventId
          e.eventTimestamp now)
      else
        let projectId ← bindParam projectId
        (t.ensureSkeleton workOrderId projectId now).handleTyped remembers
          (WorkOrderEventType.ofText e.eventType) workOrderId payload e.eventId e.eventTimestamp now
    else return (0, t)

def workOrderProjection (remembers : Bool) : Projection WorkOrderTable where
  name := "work_order_projection"
  consumedEventTypes := WorkOrderEventType.all.map (·.text)
  sourceCanonical := .business
  retryPolicy := { maxRetries := 3, delayFor := fun attempt => 1000000 * 2 ^ attempt }
  handle := handleWorkOrder remembers
  preRebuild := fun _ => []

end DreamStudio.Projections
