import DreamStudio.Library.Machine
import DreamStudio.Projections.Event
import Mathlib.Data.List.Sort
import Mathlib.Tactic.Simps.Basic

namespace DreamStudio.Projections

open Library

universe u

/-- What `except Exception as exc` has in hand. -/
structure Failure where
  message : String
  traceback : String
  deriving DecidableEq

structure RetryPolicy where
  maxRetries : Nat := 3
  delayFor : Nat → Nat := fun attempt => 1000000 * 2 ^ attempt

def RetryPolicy.nextRetryAt (policy : RetryPolicy) (now attempt : Nat) : Nat :=
  now + policy.delayFor attempt

/-- A registered projection over the target tables `σ`. `handle` raises or returns the number of
rows it reports and the tables it leaves; the engine runs it inside one transaction. -/
structure Projection (σ : Type u) where
  name : String
  consumedEventTypes : List String
  sourceCanonical : CanonicalSource
  retryPolicy : RetryPolicy
  handle : Event → Nat → σ → Except Failure (Nat × σ)
  preRebuild : σ → σ

def Projection.consumes {σ : Type u} (p : Projection σ) (e : Event) : Bool :=
  matchesTypeFilter p.consumedEventTypes e.eventType

/-- `ProjectionEngine._projections`, a dict keyed by name. -/
structure Engine (σ : Type u) where
  projections : List (Projection σ)
  names_nodup : (projections.map (·.name)).Nodup

/-- A row of `projection_retry_queue`. -/
structure RetryRow where
  id : Nat
  eventId : String
  eventSource : Source
  projectionName : String
  nextRetryAt : Nat
  retryCount : Nat
  deriving DecidableEq

inductive DeadLetterStatus
  | active
  | resolved
  | ignored
  deriving DecidableEq

/-- A row of `projection_dead_letter`. -/
structure DeadLetterRow where
  id : Nat
  eventId : String
  eventSource : Source
  projectionName : String
  errorMessage : String
  errorTraceback : String
  failedAt : Nat
  retryCount : Nat
  lastRetryAt : Nat
  status : DeadLetterStatus
  deriving DecidableEq

/-- A row of `projection_state`. -/
structure ProjectionState where
  projectionName : String
  lastProcessedBusinessEventId : Option String := none
  lastProcessedAiEventId : Option String := none
  lastRunAt : Option Nat := none
  eventsProcessedTotal : Nat := 0
  eventsFailedTotal : Nat := 0
  deriving DecidableEq

/-- One `handle()` call: the history no table holds. -/
structure Attempt where
  projectionName : String
  source : Source
  event : Event
  ok : Bool

/-- The authority database as far as the engine reads and writes it. -/
structure Authority (σ : Type u) where
  businessEvents : List Event := []
  aiEvents : List Event := []
  retryQueue : List RetryRow := []
  retryQueueSeq : Nat := 0
  deadLetter : List DeadLetterRow := []
  deadLetterSeq : Nat := 0
  projectionState : List ProjectionState := []
  target : σ
  attempts : List Attempt := []

namespace Authority

variable {σ : Type u}

def events (a : Authority σ) : Source → List Event
  | .business => a.businessEvents
  | .ai => a.aiEvents

/-- The ingestor's `INSERT OR IGNORE` into a canonical table. -/
def ingest (a : Authority σ) (source : Source) (e : Event) : Authority σ :=
  match source with
  | .business =>
    { a with businessEvents := Table.insertOrIgnore Event.key (fun _ => true) a.businessEvents e }
  | .ai => { a with aiEvents := Table.insertOrIgnore Event.key (fun _ => true) a.aiEvents e }

def findEvent (a : Authority σ) (source : Source) (eventId : String) : Option Event :=
  (a.events source).find? (·.eventId = eventId)

def cursor (a : Authority σ) (name : String) (source : Source) : Option String :=
  (a.projectionState.find? (·.projectionName = name)).bind fun row =>
    match source with
    | .business => row.lastProcessedBusinessEventId
    | .ai => row.lastProcessedAiEventId

def epoch : String := "1970-01-01T00:00:00+00:00"

/-- `_get_cursor_timestamp`. -/
def getCursorTimestamp (a : Authority σ) (name : String) (source : Source) : String :=
  match a.cursor name source with
  | none => epoch
  | some lastEventId =>
    if lastEventId = "" then epoch
    else
      match a.findEvent source lastEventId with
      | some e => e.eventTimestamp
      | none => epoch

@[simps] def updateState (a : Authority σ) (name : String) (f : ProjectionState → ProjectionState) :
    Authority σ :=
  { a with projectionState := Table.update (·.projectionName = name) f a.projectionState }

/-- `_advance_cursor`. -/
def advanceCursor (a : Authority σ) (name : String) (source : Source) (eventId : String)
    (now : Nat) : Authority σ :=
  a.updateState name fun row =>
    match source with
    | .business => { row with lastProcessedBusinessEventId := some eventId, lastRunAt := some now }
    | .ai => { row with lastProcessedAiEventId := some eventId, lastRunAt := some now }

/-- `_update_state_metrics`. -/
def updateStateMetrics (a : Authority σ) (name : String) (processed failed : Nat) : Authority σ :=
  a.updateState name fun row =>
    { row with
      eventsProcessedTotal := row.eventsProcessedTotal + processed
      eventsFailedTotal := row.eventsFailedTotal + failed }

/-- `DELETE FROM projection_retry_queue WHERE id = ?`. -/
@[simps] def deleteRetry (a : Authority σ) (id : Nat) : Authority σ :=
  { a with retryQueue := a.retryQueue.filter (·.id ≠ id) }

/-- `DELETE FROM projection_retry_queue WHERE event_id = ? AND projection_name = ?`. -/
@[simps] def deleteRetriesOf (a : Authority σ) (name eventId : String) : Authority σ :=
  { a with
    retryQueue := a.retryQueue.filter fun r => ¬ (r.eventId = eventId ∧ r.projectionName = name) }

/-- `UPDATE projection_retry_queue SET retry_count = ?, next_retry_at = ? WHERE id = ?`. -/
@[simps] def updateRetry (a : Authority σ) (id count nextAt : Nat) : Authority σ :=
  { a with
    retryQueue := Table.update (·.id = id)
      (fun r => { r with retryCount := count, nextRetryAt := nextAt }) a.retryQueue }

/-- The `INSERT … ON CONFLICT DO NOTHING` of `_schedule_retry`. The only key of the table is the
AUTOINCREMENT id, so nothing ever conflicts. -/
@[simps] def insertRetry (a : Authority σ) (name : String) (source : Source) (eventId : String)
    (nextAt count : Nat) : Authority σ :=
  { a with
    retryQueue := a.retryQueue ++
      [{ id := a.retryQueueSeq + 1, eventId := eventId, eventSource := source,
         projectionName := name, nextRetryAt := nextAt, retryCount := count }]
    retryQueueSeq := a.retryQueueSeq + 1 }

def retriesOf (a : Authority σ) (name eventId : String) : List RetryRow :=
  a.retryQueue.filter fun r => r.eventId = eventId ∧ r.projectionName = name

/-- `current_retries` of `_schedule_retry`. -/
def currentRetries (a : Authority σ) (name eventId : String) : Nat :=
  match Table.newest (·.id) (a.retriesOf name eventId) with
  | some r => r.retryCount
  | none => 0

def isActive (name eventId : String) (d : DeadLetterRow) : Bool :=
  d.eventId = eventId ∧ d.projectionName = name ∧ d.status = .active

/-- `_dead_letter`: refresh the active row, or open one. -/
def addDeadLetter (a : Authority σ) (name : String) (source : Source) (eventId : String)
    (failure : Failure) (retryCount now : Nat) : Authority σ :=
  if a.deadLetter.any (isActive name eventId) then
    { a with
      deadLetter := Table.update (isActive name eventId)
        (fun d =>
          { d with
            errorMessage := failure.message, errorTraceback := failure.traceback, failedAt := now
            retryCount := retryCount, lastRetryAt := now })
        a.deadLetter }
  else
    { a with
      deadLetter := a.deadLetter ++
        [{ id := a.deadLetterSeq + 1, eventId := eventId, eventSource := source,
           projectionName := name, errorMessage := failure.message,
           errorTraceback := failure.traceback, failedAt := now, retryCount := retryCount,
           lastRetryAt := now, status := .active }]
      deadLetterSeq := a.deadLetterSeq + 1 }

/-- One `handle()` call inside its transaction. A raise, a transient one of the environment
included, rolls the target back. -/
def callHandle (a : Authority σ) (p : Projection σ) (e : Event) (fault : Option Failure)
    (now : Nat) : Except Failure (Nat × σ) :=
  match fault with
  | some failure => .error failure
  | none => p.handle e now a.target

@[simps] def recordAttempt (a : Authority σ) (name : String) (source : Source)
    (e : Event) (ok : Bool) :
    Authority σ :=
  { a with
    attempts := { projectionName := name, source := source, event := e, ok := ok } :: a.attempts }

/-- `_schedule_retry`. -/
def scheduleRetry (a : Authority σ) (p : Projection σ) (source : Source) (eventId : String)
    (failure : Failure) (now : Nat) : Authority σ :=
  let currentRetries := a.currentRetries p.name eventId
  let nextAttempt := currentRetries + 1
  if nextAttempt > p.retryPolicy.maxRetries then
    (a.addDeadLetter p.name source eventId failure currentRetries now).deleteRetriesOf
      p.name eventId
  else
    a.insertRetry p.name source eventId (p.retryPolicy.nextRetryAt now currentRetries) nextAttempt

/-- The rows `_process_retries` finds due. -/
def dueRetries (a : Authority σ) (name : String) (now : Nat) : List RetryRow :=
  (a.retryQueue.filter fun r => r.projectionName = name ∧ r.nextRetryAt ≤ now).insertionSort
    fun r s => r.nextRetryAt ≤ s.nextRetryAt

def retrySucceeded (a : Authority σ) (p : Projection σ) (row : RetryRow) (e : Event) (target : σ)
    (now : Nat) : Authority σ :=
  ((({ a with target := target } : Authority σ).recordAttempt p.name row.eventSource e
    true).deleteRetry
    row.id).advanceCursor p.name row.eventSource row.eventId now

def retryFailed (a : Authority σ) (p : Projection σ) (row : RetryRow) (e : Event)
    (failure : Failure) (now : Nat) : Authority σ :=
  let logged := a.recordAttempt p.name row.eventSource e false
  let nextAttempt := row.retryCount + 1
  if nextAttempt > p.retryPolicy.maxRetries then
    (logged.addDeadLetter p.name row.eventSource row.eventId failure row.retryCount now).deleteRetry
      row.id
  else
    logged.updateRetry row.id nextAttempt (p.retryPolicy.nextRetryAt now nextAttempt)

/-- The body of the loop of `_process_retries`. -/
def retryRow (a : Authority σ) (p : Projection σ) (row : RetryRow) (fault : Option Failure)
    (now : Nat) : Authority σ :=
  match a.findEvent row.eventSource row.eventId with
  | none => a.deleteRetry row.id
  | some e =>
    match a.callHandle p e fault now with
    | .ok (_, target) => a.retrySucceeded p row e target now
    | .error failure => a.retryFailed p row e failure now

/-- The rows `_apply_v2` fetches from one canonical table. -/
def newEvents (a : Authority σ) (p : Projection σ) (source : Source) : List Event :=
  ((a.events source).filter fun e =>
    a.getCursorTimestamp p.name source < e.eventTimestamp ∧ p.consumes e).insertionSort
      fun e f => e.eventTimestamp ≤ f.eventTimestamp

def dispatchSucceeded (a : Authority σ) (p : Projection σ) (source : Source) (e : Event)
    (target : σ) (now : Nat) : Authority σ :=
  ((({ a with target := target } : Authority σ).recordAttempt p.name source e true).advanceCursor
    p.name source e.eventId now).updateStateMetrics p.name 1 0

def dispatchFailed (a : Authority σ) (p : Projection σ) (source : Source) (e : Event)
    (failure : Failure) (now : Nat) : Authority σ :=
  ((a.recordAttempt p.name source e false).scheduleRetry p source e.eventId failure
    now).updateStateMetrics p.name 0 1

/-- The body of the loop of `_apply_v2`. -/
def dispatchRow (a : Authority σ) (p : Projection σ) (source : Source) (e : Event)
    (fault : Option Failure) (now : Nat) : Authority σ :=
  match a.callHandle p e fault now with
  | .ok (_, target) => a.dispatchSucceeded p source e target now
  | .error failure => a.dispatchFailed p source e failure now

/-- The body of the loop of `rebuild`: an event that raises is skipped, and the last one that did
not becomes the cursor. -/
def replayEvent (p : Projection σ) (fault : Event → Option Failure) (now : Nat)
    (state : σ × Option String) (e : Event) : σ × Option String :=
  match fault e with
  | some _ => state
  | none =>
    match p.handle e now state.1 with
    | .ok (_, target) => (target, some e.eventId)
    | .error _ => state

def replayEvents (p : Projection σ) (fault : Event → Option Failure) (now : Nat) (target : σ)
    (rows : List Event) : σ × Option String :=
  rows.foldl (replayEvent p fault now) (target, none)

/-- The rows `rebuild` replays from one canonical table. -/
def allEvents (a : Authority σ) (p : Projection σ) (source : Source) : List Event :=
  ((a.events source).filter p.consumes).insertionSort fun e f => e.eventTimestamp ≤ f.eventTimestamp

def rebuildSource (p : Projection σ) (fault : Event → Option Failure) (now : Nat)
    (a : Authority σ) (source : Source) : Authority σ :=
  match replayEvents p fault now a.target (a.allEvents p source) with
  | (target, none) => { a with target := target }
  | (target, some last) =>
    let a := { a with target := target }
    if last = "" then a else a.advanceCursor p.name source last now

/-- `ProjectionEngine.rebuild`. -/
def rebuild (a : Authority σ) (p : Projection σ) (fault : Event → Option Failure) (now : Nat) :
    Authority σ :=
  p.sourceCanonical.sources.foldl (rebuildSource p fault now)
    { a with target := p.preRebuild a.target }

end Authority

structure ProjectionResult where
  projectionName : String
  eventsProcessed : Nat := 0
  rowsWritten : Nat := 0
  errors : List String := []
  deriving DecidableEq

def ProjectionResult.count (result : ProjectionResult) (e : Event) :
    Except Failure Nat → ProjectionResult
  | .ok written =>
    { result with
      rowsWritten := result.rowsWritten + written, eventsProcessed := result.eventsProcessed + 1 }
  | .error failure =>
    { result with errors := result.errors ++ [e.eventId ++ ": " ++ failure.message] }

/-- Where `run_cycle` stands: at the top of its loop, left by an exception, or inside
`_process_retries` or `_apply_v2` with the rows still to do. -/
inductive Phase (σ : Type u)
  | idle
  | raised
  | retrying (p : Projection σ) (due : List RetryRow)
  | dispatching (p : Projection σ) (source : Source) (rows : List Event) (rest : List Source)
      (result : ProjectionResult)

/-- Where the next query of `_apply_v2` starts from: the sources still to read. -/
def Phase.between {σ : Type u} :
    Phase σ → Option (Projection σ × ProjectionResult × List Source)
  | .retrying p [] => some (p, { projectionName := p.name }, p.sourceCanonical.sources)
  | .dispatching p _ [] rest result => some (p, result, rest)
  | _ => none

structure Config (σ : Type u) where
  authority : Authority σ
  phase : Phase σ := .idle
  targets : List (Projection σ) := []
  results : List ProjectionResult := []

/-- What can happen: a row arrives, at any moment, or the engine takes its next step. The
faults and the clock are the environment's. -/
inductive Action
  | ingest (source : Source) (e : Event)
  | runCycle (projectionName : Option String)
  | processRetries (now : Nat)
  | retry (fault : Option Failure) (now : Nat)
  | fetch
  | dispatch (fault : Option Failure) (now : Nat)

namespace Engine

variable {σ : Type u} (engine : Engine σ)

/-- The `targets` of `run_cycle`: a name that is empty or unknown means every projection. -/
def targets (projectionName : Option String) : List (Projection σ) :=
  match projectionName with
  | none => engine.projections
  | some name =>
    if name = "" then engine.projections
    else
      match engine.projections.find? (·.name = name) with
      | some p => [p]
      | none => engine.projections

/-- The next source of `_apply_v2`, or its return. With no consumed type the WHERE clause is `()`
and the query raises. -/
def nextSource (c : Config σ) (p : Projection σ) (result : ProjectionResult) :
    List Source → Config σ
  | [] => { c with phase := .idle, results := c.results ++ [result] }
  | source :: rest =>
    if p.consumedEventTypes = [] then { c with phase := .raised }
    else { c with phase := .dispatching p source (c.authority.newEvents p source) rest result }

def step (c : Config σ) : Action → Option (Config σ)
  | .ingest source e => some { c with authority := c.authority.ingest source e }
  | .runCycle projectionName =>
    match c.phase, c.targets with
    | .idle, [] => some { c with targets := engine.targets projectionName, results := [] }
    | .raised, _ =>
      some { c with phase := .idle, targets := engine.targets projectionName, results := [] }
    | _, _ => none
  | .processRetries now =>
    match c.phase, c.targets with
    | .idle, p :: rest =>
      some { c with phase := .retrying p (c.authority.dueRetries p.name now), targets := rest }
    | _, _ => none
  | .retry fault now =>
    match c.phase with
    | .retrying p (row :: due) =>
      some { c with authority := c.authority.retryRow p row fault now, phase := .retrying p due }
    | _ => none
  | .fetch =>
    match c.phase.between with
    | some (p, result, sources) => some (nextSource c p result sources)
    | none => none
  | .dispatch fault now =>
    match c.phase with
    | .dispatching p source (e :: rows) rest result =>
      some
        { c with
          authority := c.authority.dispatchRow p source e fault now
          phase := .dispatching p source rows rest
            (result.count e ((c.authority.callHandle p e fault now).map (·.1))) }
    | _ => none

def machine : Machine (Config σ) Action := ⟨engine.step⟩

/-- The tables before anything ran: `register` has put a row into `projection_state` for each
projection. -/
def initial (target : σ) : Config σ :=
  { authority :=
      { projectionState := engine.projections.map fun p => { projectionName := p.name }
        target := target } }

end Engine

end DreamStudio.Projections
