import DreamStudio.Library.Except
import DreamStudio.Spool.Envelope

namespace DreamStudio.Spool

open Library

/-- A row of `raw_claude_code_events`. -/
structure RawRow where
  eventId : Text
  receivedAt : Nat
  eventType : Text
  eventTimestamp : Text
  schemaVersion : Text
  sourcePayload : Json
  sessionId : Text
  projectId : Text
  workflowId : Text
  skillId : Text
  agentId : Text
  hookId : Text
  toolId : Text
  modelId : Text
  adapterId : Text
  correlationId : Text

/-- A row of `business_canonical_events`. -/
structure BusinessRow where
  eventId : Text
  receivedAt : Nat
  eventType : Text
  eventTimestamp : Text
  schemaVersion : Text
  trace : Json
  payload : Json
  correlationId : Text
  projectId : Text
  milestoneId : Text
  workOrderId : Text
  taskId : Text
  severity : Text
  source : String

/-- A row of `ai_canonical_events`. -/
structure AiRow where
  eventId : Text
  receivedAt : Nat
  eventType : Text
  eventTimestamp : Text
  schemaVersion : Text
  trace : Json
  payload : Json
  correlationId : Text
  sessionId : Text
  skillId : Text
  workflowId : Text
  agentId : Text
  hookId : Text
  modelId : Text
  severity : Text
  source : String
  projectId : Text

/-- The NOT NULL columns of each table that a bound value can leave empty. -/
def RawRow.admitted (r : RawRow) : Bool :=
  r.eventType.isSome && r.eventTimestamp.isSome && r.schemaVersion.isSome

def BusinessRow.admitted (r : BusinessRow) : Bool :=
  r.eventType.isSome && r.eventTimestamp.isSome && r.schemaVersion.isSome && r.severity.isSome

def AiRow.admitted (r : AiRow) : Bool :=
  r.eventType.isSome && r.eventTimestamp.isSome && r.schemaVersion.isSome && r.severity.isSome

structure Database where
  raw : List RawRow := []
  business : List BusinessRow := []
  ai : List AiRow := []

def bindParam (v : Json) : Except Raised Text :=
  match bindText v with
  | .ok text => .ok text
  | .error message => .error (.other ("Error binding parameter: " ++ message))

/-- The row of `_write_to_raw_sqlite`, or what it raises before its commit: `fault` is a raise of
the connection. -/
def Env.rawRow (env : Env) (fault : Option Raised) (now : Nat) (envelope : Fields) :
    Except Raised RawRow := do
  let ids ← env.extractCorrelationIds envelope
  match fault with
  | some e => throw e
  | none =>
    return {
      eventId := ← bindParam (Json.lookup envelope "event_id")
      receivedAt := now
      eventType := ← bindParam (Json.lookup envelope "event_type")
      eventTimestamp := ← bindParam (Json.lookup envelope "timestamp")
      schemaVersion := ← bindParam (Json.lookupD envelope "schema_version" (.int 1))
      sourcePayload := .obj envelope
      sessionId := ← bindParam ids.sessionId
      projectId := ← bindParam ids.projectId
      workflowId := ← bindParam ids.workflowId
      skillId := ← bindParam ids.skillId
      agentId := ← bindParam ids.agentId
      hookId := ← bindParam ids.hookId
      toolId := ← bindParam ids.toolId
      modelId := ← bindParam ids.modelId
      adapterId := ← bindParam ids.adapterId
      correlationId := ids.correlationId }

def Env.businessRow (env : Env) (now : Nat) (envelope : Fields) : Except Raised BusinessRow := do
  let ids ← env.extractCorrelationIds envelope
  let trace ← env.normalize (Json.lookupD envelope "trace" (.obj []))
  return {
    eventId := ← bindParam (Json.lookup envelope "event_id")
    receivedAt := now
    eventType := ← bindParam (Json.lookupD envelope "event_type" (.str ""))
    eventTimestamp := ← bindParam (Json.lookup envelope "timestamp")
    schemaVersion := ← bindParam (Json.lookupD envelope "schema_version" (.int 1))
    trace := .obj trace
    payload := Json.lookupD envelope "payload" (.obj [])
    correlationId := ids.correlationId
    projectId := ← bindParam (ids.projectId.or (Json.lookup trace "project_id"))
    milestoneId := ← bindParam (Json.lookup trace "milestone_id")
    workOrderId := ← bindParam (Json.lookup trace "work_order_id")
    taskId := ← bindParam (Json.lookup trace "task_id")
    severity := ← bindParam (Json.lookupD envelope "severity" (.str "info"))
    source := "ingestor" }

def Env.aiRow (env : Env) (now : Nat) (envelope : Fields) : Except Raised AiRow := do
  let ids ← env.extractCorrelationIds envelope
  let trace ← env.normalize (Json.lookupD envelope "trace" (.obj []))
  return {
    eventId := ← bindParam (Json.lookup envelope "event_id")
    receivedAt := now
    eventType := ← bindParam (Json.lookupD envelope "event_type" (.str ""))
    eventTimestamp := ← bindParam (Json.lookup envelope "timestamp")
    schemaVersion := ← bindParam (Json.lookupD envelope "schema_version" (.int 1))
    trace := .obj trace
    payload := Json.lookupD envelope "payload" (.obj [])
    correlationId := ids.correlationId
    sessionId := ← bindParam ids.sessionId
    skillId := ← bindParam ids.skillId
    workflowId := ← bindParam ids.workflowId
    agentId := ← bindParam ids.agentId
    hookId := ← bindParam ids.hookId
    modelId := ← bindParam ids.modelId
    severity := ← bindParam (Json.lookupD envelope "severity" (.str "info"))
    source := "ingestor"
    projectId := ← bindParam ids.projectId }

/-- `if "business" in routes: …`: the row of a table the event is routed to. -/
def routed {ρ : Type} (destination : Destination) (routes : List Destination)
    (row : Except Raised ρ) : Except Raised (Option ρ) :=
  if destination ∈ routes then some <$> row else .ok none

/-- The rows of `_write_to_dual_canonical`, or what it raises before its commit: an event that is
raw only opens no connection. -/
def Env.canonicalRows (env : Env) (fault : Option Raised) (now : Nat) (envelope : Fields) :
    Except Raised (Option BusinessRow × Option AiRow) := do
  let routes ← env.getRoutes (Json.lookupD envelope "event_type" (.str ""))
  if routes = [] then return (none, none)
  match fault with
  | some e => throw e
  | none =>
    let business ← routed .business routes (env.businessRow now envelope)
    let ai ← routed .ai routes (env.aiRow now envelope)
    return (business, ai)

namespace Database

def insertRaw (db : Database) (row : RawRow) : Database :=
  { db with raw := Table.insertOrIgnore RawRow.eventId RawRow.admitted db.raw row }

/-- The `INSERT OR IGNORE` of each canonical table the event is routed to. -/
def insertCanonical (db : Database) (rows : Option BusinessRow × Option AiRow) : Database :=
  { db with
    business := rows.1.elim db.business
      (Table.insertOrIgnore BusinessRow.eventId BusinessRow.admitted db.business)
    ai := rows.2.elim db.ai (Table.insertOrIgnore AiRow.eventId AiRow.admitted db.ai) }

end Database

/-- `_write_to_raw_sqlite`. -/
def Env.writeToRawSqlite (env : Env) (fault : Option Raised) (now : Nat) (envelope : Fields)
    (db : Database) : Except Raised Database := db.insertRaw <$> env.rawRow fault now envelope

/-- `_write_to_dual_canonical`: one transaction over both tables. -/
def Env.writeToDualCanonical (env : Env) (fault : Option Raised) (now : Nat) (envelope : Fields)
    (db : Database) : Except Raised Database :=
  db.insertCanonical <$> env.canonicalRows fault now envelope

end DreamStudio.Spool
