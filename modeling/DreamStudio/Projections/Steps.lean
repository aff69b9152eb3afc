import DreamStudio.Projections.Engine

namespace DreamStudio.Projections

open Library

universe u

variable {σ : Type u}

namespace Authority

section Frame

variable (a : Authority σ)

@[simp] theorem updateState_events (name : String) (f : ProjectionState → ProjectionState)
    (s : Source) : (a.updateState name f).events s = a.events s := rfl

@[simp] theorem deleteRetry_events (id : Nat) (s : Source) :
    (a.deleteRetry id).events s = a.events s := rfl

@[simp] theorem deleteRetriesOf_events (name eventId : String) (s : Source) :
    (a.deleteRetriesOf name eventId).events s = a.events s := rfl

@[simp] theorem updateRetry_events (id count nextAt : Nat) (s : Source) :
    (a.updateRetry id count nextAt).events s = a.events s := rfl

@[simp] theorem insertRetry_events (name : String) (source : Source) (eventId : String)
    (nextAt count : Nat) (s : Source) :
    (a.insertRetry name source eventId nextAt count).events s = a.events s := rfl

@[simp] theorem recordAttempt_events (name : String) (source : Source) (e : Event) (ok : Bool)
    (s : Source) : (a.recordAttempt name source e ok).events s = a.events s := rfl

@[simp] theorem addDeadLetter_events (name : String) (source : Source) (eventId : String)
    (failure : Failure) (retryCount now : Nat) (s : Source) :
    (a.addDeadLetter name source eventId failure retryCount now).events s = a.events s := by
  unfold addDeadLetter
  split <;> rfl

@[simp] theorem addDeadLetter_retryQueue (name : String) (source : Source) (eventId : String)
    (failure : Failure) (retryCount now : Nat) :
    (a.addDeadLetter name source eventId failure retryCount now).retryQueue = a.retryQueue := by
  unfold addDeadLetter
  split <;> rfl

@[simp] theorem addDeadLetter_retryQueueSeq (name : String) (source : Source) (eventId : String)
    (failure : Failure) (retryCount now : Nat) :
    (a.addDeadLetter name source eventId failure retryCount now).retryQueueSeq =
      a.retryQueueSeq := by
  unfold addDeadLetter
  split <;> rfl

@[simp] theorem addDeadLetter_attempts (name : String) (source : Source) (eventId : String)
    (failure : Failure) (retryCount now : Nat) :
    (a.addDeadLetter name source eventId failure retryCount now).attempts = a.attempts := by
  unfold addDeadLetter
  split <;> rfl

end Frame

end Authority

def Config.query (c : Config σ) : Action → Option (Projection σ × Source)
  | .fetch => c.phase.between.bind fun (p, _, sources) => sources.head?.map (p, ·)
  | _ => none

inductive Engine.Step (engine : Engine σ) : Config σ → Action → Config σ → Prop
  | ingest (c : Config σ) (source : Source) (e : Event) :
    Step engine c (.ingest source e) { c with authority := c.authority.ingest source e }
  | runCycle (a : Authority σ) (phase : Phase σ) (targets : List (Projection σ))
      (results : List ProjectionResult) (projectionName : Option String)
      (ready : phase = .idle ∧ targets = [] ∨ phase = .raised) :
    Step engine ⟨a, phase, targets, results⟩ (.runCycle projectionName)
      ⟨a, .idle, engine.targets projectionName, []⟩
  | processRetries (a : Authority σ) (p : Projection σ) (rest : List (Projection σ))
      (results : List ProjectionResult) (now : Nat) :
    Step engine ⟨a, .idle, p :: rest, results⟩ (.processRetries now)
      ⟨a, .retrying p (a.dueRetries p.name now), rest, results⟩
  | retry (a : Authority σ) (p : Projection σ) (row : RetryRow) (due : List RetryRow)
      (targets : List (Projection σ)) (results : List ProjectionResult) (fault : Option Failure)
      (now : Nat) :
    Step engine ⟨a, .retrying p (row :: due), targets, results⟩ (.retry fault now)
      ⟨a.retryRow p row fault now, .retrying p due, targets, results⟩
  | returned (a : Authority σ) (phase : Phase σ) (targets : List (Projection σ))
      (results : List ProjectionResult) (p : Projection σ) (result : ProjectionResult)
      (between : phase.between = some (p, result, [])) :
    Step engine ⟨a, phase, targets, results⟩ .fetch ⟨a, .idle, targets, results ++ [result]⟩
  | undeclared (a : Authority σ) (phase : Phase σ) (targets : List (Projection σ))
      (results : List ProjectionResult) (p : Projection σ) (result : ProjectionResult)
      (source : Source) (rest : List Source)
      (between : phase.between = some (p, result, source :: rest))
      (empty : p.consumedEventTypes = []) :
    Step engine ⟨a, phase, targets, results⟩ .fetch ⟨a, .raised, targets, results⟩
  | fetched (a : Authority σ) (phase : Phase σ) (targets : List (Projection σ))
      (results : List ProjectionResult) (p : Projection σ) (result : ProjectionResult)
      (source : Source) (rest : List Source)
      (between : phase.between = some (p, result, source :: rest)) :
    Step engine ⟨a, phase, targets, results⟩ .fetch
      ⟨a, .dispatching p source (a.newEvents p source) rest result, targets, results⟩
  | dispatch (a : Authority σ) (p : Projection σ) (source : Source) (e : Event)
      (rows : List Event) (rest : List Source) (result : ProjectionResult)
      (targets : List (Projection σ)) (results : List ProjectionResult) (fault : Option Failure)
      (now : Nat) :
    Step engine ⟨a, .dispatching p source (e :: rows) rest result, targets, results⟩
      (.dispatch fault now)
      ⟨a.dispatchRow p source e fault now,
        .dispatching p source rows rest
          (result.count e ((a.callHandle p e fault now).map (·.1))), targets, results⟩

theorem Engine.step_cases (engine : Engine σ) {c c' : Config σ} {action : Action}
    (h : engine.machine.step c action = some c') : engine.Step c action c' := by
  obtain ⟨a, phase, targets, results⟩ := c
  cases action with
  | ingest source e =>
    cases h
    exact .ingest ⟨a, phase, targets, results⟩ source e
  | runCycle projectionName =>
    simp only [machine, step] at h
    split at h <;> cases h
    next => exact .runCycle _ _ _ _ _ (Or.inl ⟨rfl, rfl⟩)
    next => exact .runCycle _ _ _ _ _ (Or.inr rfl)
  | processRetries now =>
    simp only [machine, step] at h
    split at h <;> cases h
    exact .processRetries _ _ _ _ _
  | retry fault now =>
    simp only [machine, step] at h
    split at h <;> cases h
    exact .retry _ _ _ _ _ _ _ _
  | fetch =>
    simp only [machine, step] at h
    split at h <;> cases h
    next p result sources between =>
      unfold nextSource
      cases sources with
      | nil => exact .returned _ _ _ _ _ _ between
      | cons source rest =>
        simp only
        split
        next empty => exact .undeclared _ _ _ _ _ _ _ _ between empty
        next => exact .fetched _ _ _ _ _ _ _ _ between
  | dispatch fault now =>
    simp only [machine, step] at h
    split at h <;> cases h
    exact .dispatch _ _ _ _ _ _ _ _ _ _ _

end DreamStudio.Projections
