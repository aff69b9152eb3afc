import DreamStudio.Projections.Steps

namespace DreamStudio.Projections

open Library

universe u

variable {σ : Type u}

def RetryRow.key (r : RetryRow) : Option (String × String) := some (r.eventId, r.projectionName)

def DeadLetterRow.activeKey (d : DeadLetterRow) : Option (String × String) :=
  if d.status = .active then some (d.eventId, d.projectionName) else none

namespace Authority

/-- At most one queue row and one active dead letter for an event and a projection. -/
def OneRowEach (a : Authority σ) : Prop :=
  Table.Unique RetryRow.key a.retryQueue ∧ Table.Unique DeadLetterRow.activeKey a.deadLetter

instance (a : Authority σ) : Decidable a.OneRowEach := inferInstanceAs (Decidable (_ ∧ _))

/-- `handle()` fails on an event whose retry is still queued and whose retries are not spent. -/
def requeues (a : Authority σ) (p : Projection σ) (e : Event) (fault : Option Failure)
    (now : Nat) : Bool :=
  !(a.callHandle p e fault now).isOk && !(a.retriesOf p.name e.eventId).isEmpty &&
    a.currentRetries p.name e.eventId < p.retryPolicy.maxRetries

theorem mem_retriesOf {a : Authority σ} {name eventId : String} {r : RetryRow} :
    r ∈ a.retriesOf name eventId ↔
      r ∈ a.retryQueue ∧ r.eventId = eventId ∧ r.projectionName = name := by
  simp [retriesOf]

theorem insertRetry_unique_iff {a : Authority σ} (h : Table.Unique RetryRow.key a.retryQueue)
    (name : String) (source : Source) (eventId : String) (nextAt count : Nat) :
    Table.Unique RetryRow.key (a.insertRetry name source eventId nextAt count).retryQueue ↔
      a.retriesOf name eventId = [] := by
  rw [insertRetry_retryQueue, Table.append_unique_iff h, retriesOf, List.filter_eq_nil_iff]
  simp [Table.SameKey, RetryRow.key]

theorem updateRetry_unique {a : Authority σ} (h : Table.Unique RetryRow.key a.retryQueue)
    (id count nextAt : Nat) :
    Table.Unique RetryRow.key (a.updateRetry id count nextAt).retryQueue :=
  Table.update_unique h fun _ _ => rfl

theorem isActive_iff {name eventId : String} {d : DeadLetterRow} :
    isActive name eventId d = true ↔ d.activeKey = some (eventId, name) := by
  cases h : d.status <;> simp [isActive, DeadLetterRow.activeKey, h]

theorem addDeadLetter_unique {a : Authority σ}
    (h : Table.Unique DeadLetterRow.activeKey a.deadLetter) (name : String) (source : Source)
    (eventId : String) (failure : Failure) (retryCount now : Nat) :
    Table.Unique DeadLetterRow.activeKey
      (a.addDeadLetter name source eventId failure retryCount now).deadLetter := by
  unfold addDeadLetter
  split
  next => exact Table.update_unique h fun _ _ => rfl
  next none_active =>
    simp only [List.any_eq_true, isActive_iff, not_exists, not_and] at none_active
    apply (Table.append_unique_iff h _).mpr
    intro d hd same
    exact none_active d hd same.1

theorem retryRow_oneRowEach {a : Authority σ} (h : a.OneRowEach) (p : Projection σ)
    (row : RetryRow) (fault : Option Failure) (now : Nat) :
    (a.retryRow p row fault now).OneRowEach := by
  unfold retryRow
  split
  next => exact ⟨Table.filter_unique h.1 _, h.2⟩
  next e _ =>
    split
    next => exact ⟨Table.filter_unique h.1 _, h.2⟩
    next failure _ =>
      have logged : (a.recordAttempt p.name row.eventSource e false).OneRowEach := h
      unfold retryFailed
      simp only
      split
      next =>
        refine ⟨Table.filter_unique ?_ _, addDeadLetter_unique logged.2 ..⟩
        rw [addDeadLetter_retryQueue]
        exact h.1
      next => exact ⟨updateRetry_unique h.1 .., h.2⟩

theorem scheduleRetry_oneRowEach_iff {a : Authority σ} (h : a.OneRowEach) (p : Projection σ)
    (source : Source) (eventId : String) (failure : Failure) (now : Nat) :
    (a.scheduleRetry p source eventId failure now).OneRowEach ↔
      ¬ (a.retriesOf p.name eventId ≠ [] ∧
        a.currentRetries p.name eventId < p.retryPolicy.maxRetries) := by
  unfold scheduleRetry
  simp only
  split
  next exhausted =>
    have kept : (a.addDeadLetter p.name source eventId failure (a.currentRetries p.name eventId)
        now |>.deleteRetriesOf p.name eventId).OneRowEach := by
      refine ⟨Table.filter_unique ?_ _, addDeadLetter_unique h.2 ..⟩
      rw [addDeadLetter_retryQueue]
      exact h.1
    exact iff_of_true kept fun hc => by omega
  next left =>
    have spare : a.currentRetries p.name eventId < p.retryPolicy.maxRetries := by omega
    rw [OneRowEach, insertRetry_unique_iff h.1]
    simp [spare, h.2]

theorem dispatchRow_oneRowEach_iff {a : Authority σ} (h : a.OneRowEach) (p : Projection σ)
    (source : Source) (e : Event) (fault : Option Failure) (now : Nat) :
    (a.dispatchRow p source e fault now).OneRowEach ↔ a.requeues p e fault now = false := by
  unfold dispatchRow
  split
  next ok => exact iff_of_true h (by simp [requeues, ok, Except.isOk, Except.toBool])
  next failure fails =>
    have logged : (a.recordAttempt p.name source e false).OneRowEach := h
    have scheduled := scheduleRetry_oneRowEach_iff logged p source e.eventId failure now
    have same : a.requeues p e fault now = false ↔
        ¬ (a.retriesOf p.name e.eventId ≠ [] ∧
          a.currentRetries p.name e.eventId < p.retryPolicy.maxRetries) := by
      simp [requeues, fails, Except.isOk, Except.toBool]
    exact scheduled.trans same.symm

end Authority

/-- The step dispatches an event that is queued already, and it fails again. -/
def Config.requeues (c : Config σ) : Action → Bool
  | .dispatch fault now =>
    match c.phase with
    | .dispatching p _ (e :: _) _ _ => c.authority.requeues p e fault now
    | _ => false
  | _ => false

theorem step_oneRowEach_iff (engine : Engine σ) {c c' : Config σ} {action : Action}
    (h : c.authority.OneRowEach) (taken : engine.machine.step c action = some c') :
    c'.authority.OneRowEach ↔ c.requeues action = false := by
  cases engine.step_cases taken with
  | ingest _ source =>
    refine iff_of_true ?_ rfl
    cases source <;> exact h
  | runCycle => exact iff_of_true h rfl
  | processRetries => exact iff_of_true h rfl
  | retry => exact iff_of_true (Authority.retryRow_oneRowEach h ..) rfl
  | returned => exact iff_of_true h rfl
  | undeclared => exact iff_of_true h rfl
  | fetched => exact iff_of_true h rfl
  | dispatch => exact Authority.dispatchRow_oneRowEach_iff h ..

/-- From empty tables a run keeps one row each throughout exactly when none of its dispatches
fails on an event that is still queued with retries left. -/
theorem oneRowEach_iff_forall_not_requeues (engine : Engine σ) (target : σ)
    (actions : List Action) :
    (∀ x ∈ engine.machine.transitions (engine.initial target) actions,
        x.after.authority.OneRowEach) ↔
      ∀ x ∈ engine.machine.transitions (engine.initial target) actions,
        x.before.requeues x.label = false :=
  engine.machine.forall_after_iff_forall_guard (J := fun _ => True)
    (P := fun c => c.authority.OneRowEach) (C := fun c action => c.requeues action = false)
    (fun _ _ _ _ _ => trivial) (fun _ _ _ _ h taken => step_oneRowEach_iff engine h taken) trivial
    (by simp [Engine.initial, Authority.OneRowEach, Table.Unique]) actions

def auditProjection : Projection Unit where
  name := "work_order_projection"
  consumedEventTypes := ["work_order.%"]
  sourceCanonical := .business
  retryPolicy := {}
  handle := fun _ _ target => .ok (1, target)
  preRebuild := id

def auditEngine : Engine Unit := ⟨[auditProjection], by decide⟩

def startedEvent (eventId eventTimestamp : String) : Event :=
  { eventId := eventId, eventType := "work_order.started", eventTimestamp := eventTimestamp
    payload := .obj [] }

/-- A cycle of one projection over one table at the time `now`: the outcomes of its due retries,
then those of its new events. -/
def cycle (now : Nat) (retries dispatches : List (Option Failure)) : List Action :=
  [Action.runCycle none, .processRetries now] ++ retries.map (Action.retry · now) ++
    [Action.fetch] ++ dispatches.map (Action.dispatch · now) ++ [Action.fetch]

def locked : Option Failure := some ⟨"database is locked", "OperationalError"⟩

/-- The newest event fails, the cursor stays before it, and the next cycle fetches and queues it
once more. -/
theorem queue_not_oneRowEach :
    ¬ ∀ (σ : Type) (engine : Engine σ) (target : σ) (actions : List Action),
      ∀ x ∈ engine.machine.transitions (engine.initial target) actions,
        x.after.authority.OneRowEach := by
  intro h
  have run := h Unit auditEngine ()
    (.ingest .business (startedEvent "e1" "2026-01-01T00:00:00Z") :: cycle 0 [] [locked] ++
      cycle 0 [] [locked])
  revert run
  decide

end DreamStudio.Projections
