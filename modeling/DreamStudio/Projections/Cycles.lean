import DreamStudio.Projections.Delivery

namespace DreamStudio.Projections

open Library

universe u

variable {σ : Type u}

/-- A `run_cycle` call: its argument, its moment, and what the environment raises in `handle` for a
projection, a source and an event id. -/
structure Call where
  projectionName : Option String
  now : Nat
  fault : String → Source → String → Option Failure

namespace Authority

/-- `_process_retries`. -/
def processRetries (p : Projection σ) (call : Call) (a : Authority σ) : Authority σ :=
  (a.dueRetries p.name call.now).foldl
    (fun a row => a.retryRow p row (call.fault p.name row.eventSource row.eventId) call.now) a

def dispatchSource (p : Projection σ) (call : Call) (a : Authority σ) (source : Source) :
    Authority σ :=
  (a.newEvents p source).foldl
    (fun a e => a.dispatchRow p source e (call.fault p.name source e.eventId) call.now) a

/-- `_apply_v2`. -/
def applyV2 (p : Projection σ) (call : Call) (a : Authority σ) : Authority σ :=
  p.sourceCanonical.sources.foldl (dispatchSource p call) a

end Authority

/-- The loop of `run_cycle`, which a projection without consumed types ends. -/
def runTargets (call : Call) : List (Projection σ) → Authority σ → Authority σ
  | [], a => a
  | p :: rest, a =>
    if p.consumedEventTypes = [] then a.processRetries p call
    else runTargets call rest ((a.processRetries p call).applyV2 p call)

namespace Engine

variable (engine : Engine σ)

/-- `run_cycle`. -/
def runCycle (a : Authority σ) (call : Call) : Authority σ :=
  runTargets call (engine.targets call.projectionName) a

def Reaches (p : Projection σ) (call : Call) : Prop :=
  p ∈ (engine.targets call.projectionName).takeWhile (·.consumedEventTypes ≠ [])

def after (a : Authority σ) (calls : Nat → Call) : Nat → Authority σ
  | 0 => a
  | n + 1 => engine.runCycle (after a calls n) (calls n)

end Engine

@[ext] structure View where
  events : Source → List Event
  registered : Bool
  queue : List RetryRow
  cursor : Source → Option String
  attempts : List Attempt

def View.Handled (v : View) (source : Source) (eventId : String) : Prop :=
  ∃ t ∈ v.attempts, t.source = source ∧ t.event.eventId = eventId ∧ t.ok = true

namespace Authority

def view (name : String) (a : Authority σ) : View where
  events := a.events
  registered := (a.projectionState.find? (·.projectionName = name)).isSome
  queue := a.retryQueue.filter (·.projectionName = name)
  cursor := a.cursor name
  attempts := a.attempts.filter (·.projectionName = name)

@[simp] theorem view_handled (a : Authority σ) (name : String) (source : Source)
    (eventId : String) :
    (a.view name).Handled source eventId ↔ a.Handled name source eventId := by
  unfold View.Handled Handled view
  constructor
  · rintro ⟨t, ht, rest⟩
    obtain ⟨ht, named⟩ := List.mem_filter.mp ht
    exact ⟨t, ht, of_decide_eq_true named, rest⟩
  · rintro ⟨t, ht, named, rest⟩
    exact ⟨t, List.mem_filter.mpr ⟨ht, decide_eq_true named⟩, rest⟩

section Frame

variable {a : Authority σ} {name other : String}

/-- The cursor a row of `projection_state` holds for a source. -/
def stateCursor (source : Source) (row : ProjectionState) : Option String :=
  match source with
  | .business => row.lastProcessedBusinessEventId
  | .ai => row.lastProcessedAiEventId

theorem find?_updateState (a : Authority σ) (name other : String)
    {f : ProjectionState → ProjectionState}
    (kept : ∀ row, (f row).projectionName = row.projectionName) :
    (a.updateState other f).projectionState.find? (·.projectionName = name) =
      (a.projectionState.find? (·.projectionName = name)).map fun row =>
        if row.projectionName = other then f row else row := by
  have same : (fun row : ProjectionState => decide (row.projectionName = name)) ∘
      (fun row => if decide (row.projectionName = other) = true then f row else row) =
        fun row => decide (row.projectionName = name) := by
    funext row
    simp only [Function.comp_apply]
    split <;> simp [kept]
  unfold updateState Table.update
  rw [List.find?_map, same]
  simp

theorem cursor_eq (a : Authority σ) (name : String) (source : Source) :
    a.cursor name source = (a.projectionState.find? (·.projectionName = name)).bind
      (stateCursor source) := by
  unfold cursor
  refine Option.bind_congr fun row _ => ?_
  cases source <;> rfl

theorem view_updateState (f : ProjectionState → ProjectionState)
    (kept : ∀ row, (f row).projectionName = row.projectionName) (ne : other ≠ name) :
    (a.updateState other f).view name = a.view name := by
  have same : (a.updateState other f).projectionState.find? (·.projectionName = name) =
      a.projectionState.find? (·.projectionName = name) := by
    rw [find?_updateState a name other kept]
    refine (Option.map_congr fun row found => ?_).trans Option.map_id'
    have named : row.projectionName = name := by simpa using List.find?_some found
    exact if_neg (named ▸ ne.symm)
  refine View.ext rfl (congrArg Option.isSome same) rfl ?_ rfl
  funext s
  change cursor _ name s = cursor _ name s
  rw [cursor_eq, cursor_eq, same]

theorem view_advanceCursor (source : Source) (eventId : String) (now : Nat) (ne : other ≠ name) :
    (a.advanceCursor other source eventId now).view name = a.view name :=
  view_updateState _ (fun _ => by cases source <;> rfl) ne

theorem view_updateStateMetrics (processed failed : Nat) (ne : other ≠ name) :
    (a.updateStateMetrics other processed failed).view name = a.view name :=
  view_updateState _ (fun _ => rfl) ne

theorem view_recordAttempt (source : Source) (e : Event) (ok : Bool) (ne : other ≠ name) :
    (a.recordAttempt other source e ok).view name = a.view name := by
  refine View.ext rfl rfl rfl rfl ?_
  simp [view, ne]

theorem view_addDeadLetter (source : Source) (eventId : String) (failure : Failure)
    (count now : Nat) :
    (a.addDeadLetter other source eventId failure count now).view name = a.view name := by
  unfold addDeadLetter
  split <;> rfl

/-- No row of the projection has the id. -/
def Spares (a : Authority σ) (name : String) (id : Nat) : Prop :=
  ∀ r ∈ (a.view name).queue, r.id ≠ id

theorem Spares.of_mem {id : Nat} (spares : a.Spares name id) {r : RetryRow} (hr : r ∈ a.retryQueue)
    (named : r.projectionName = name) : r.id ≠ id :=
  spares r (List.mem_filter.mpr ⟨hr, decide_eq_true named⟩)

theorem view_deleteRetry {id : Nat} (spares : a.Spares name id) :
    (a.deleteRetry id).view name = a.view name := by
  refine View.ext rfl rfl ?_ rfl rfl
  change (a.retryQueue.filter _).filter _ = a.retryQueue.filter _
  rw [List.filter_filter]
  refine List.filter_congr fun r hr => ?_
  by_cases named : r.projectionName = name
  · simp [named, spares.of_mem hr named]
  · simp [named]

theorem view_updateRetry {id : Nat} (spares : a.Spares name id) (count nextAt : Nat) :
    (a.updateRetry id count nextAt).view name = a.view name := by
  refine View.ext rfl rfl ?_ rfl rfl
  change (Table.update _ _ a.retryQueue).filter _ = _
  have kept : ∀ r : RetryRow,
      decide (({ r with retryCount := count, nextRetryAt := nextAt } : RetryRow).projectionName =
        name) = decide (r.projectionName = name) := fun _ => rfl
  rw [Table.filter_update kept]
  refine Table.update_eq_self (fun r hr => ?_) _
  exact decide_eq_false (spares r hr)

theorem view_insertRetry (source : Source) (eventId : String) (nextAt count : Nat)
    (ne : other ≠ name) :
    (a.insertRetry other source eventId nextAt count).view name = a.view name := by
  refine View.ext rfl rfl ?_ rfl rfl
  change (a.retryQueue ++ [_]).filter _ = a.retryQueue.filter _
  simp [List.filter_append, ne]

theorem view_deleteRetriesOf (eventId : String) (ne : other ≠ name) :
    (a.deleteRetriesOf other eventId).view name = a.view name := by
  refine View.ext rfl rfl ?_ rfl rfl
  change (a.retryQueue.filter _).filter _ = a.retryQueue.filter _
  rw [List.filter_filter]
  refine List.filter_congr fun r _ => ?_
  by_cases named : r.projectionName = name
  · simp [named, ne.symm]
  · simp [named]

theorem view_retryRow {q : Projection σ} {row : RetryRow} (ne : q.name ≠ name)
    (spares : a.Spares name row.id) (fault : Option Failure) (now : Nat) :
    (a.retryRow q row fault now).view name = a.view name := by
  unfold retryRow
  split
  · exact view_deleteRetry spares
  · split
    · unfold retrySucceeded
      rw [view_advanceCursor _ _ _ ne, view_deleteRetry (by exact spares),
        view_recordAttempt _ _ _ ne]
      rfl
    · unfold retryFailed
      simp only
      split
      · rw [view_deleteRetry, view_addDeadLetter, view_recordAttempt _ _ _ ne]
        unfold Spares
        rw [view_addDeadLetter]
        exact spares
      · rw [view_updateRetry (by exact spares), view_recordAttempt _ _ _ ne]

theorem view_dispatchRow {q : Projection σ} (ne : q.name ≠ name) (source : Source) (e : Event)
    (fault : Option Failure) (now : Nat) :
    (a.dispatchRow q source e fault now).view name = a.view name := by
  unfold dispatchRow
  split
  · unfold dispatchSucceeded
    rw [view_updateStateMetrics _ _ ne, view_advanceCursor _ _ _ ne, view_recordAttempt _ _ _ ne]
    rfl
  · unfold dispatchFailed scheduleRetry
    rw [view_updateStateMetrics _ _ ne]
    simp only
    split
    · rw [view_deleteRetriesOf _ ne, view_addDeadLetter, view_recordAttempt _ _ _ ne]
    · rw [view_insertRetry _ _ _ _ ne, view_recordAttempt _ _ _ ne]

theorem view_dispatchSource {q : Projection σ} (ne : q.name ≠ name) (call : Call)
    (source : Source) :
    (a.dispatchSource q call source).view name = a.view name :=
  List.foldlRecOn (motive := fun b : Authority σ => b.view name = a.view name)
    _ _ rfl fun _ same e _ =>
    (view_dispatchRow ne source e _ _).trans same

end Frame

end Authority

namespace View

variable (v : View) (name : String)

def findEvent (source : Source) (eventId : String) : Option Event :=
  (v.events source).find? (·.eventId = eventId)

def timeOf (source : Source) (cursor : Option String) : String :=
  match cursor with
  | none => Authority.epoch
  | some eventId =>
    if eventId = "" then Authority.epoch
    else
      match v.findEvent source eventId with
      | some e => e.eventTimestamp
      | none => Authority.epoch

def newEvents (p : Projection σ) (source : Source) : List Event :=
  ((v.events source).filter fun e =>
    v.timeOf source (v.cursor source) < e.eventTimestamp ∧ p.consumes e).insertionSort
      fun e f => e.eventTimestamp ≤ f.eventTimestamp

def dueRetries (now : Nat) : List RetryRow :=
  (v.queue.filter (·.nextRetryAt ≤ now)).insertionSort fun r s => r.nextRetryAt ≤ s.nextRetryAt

def dequeued (id : Nat) : View := { v with queue := v.queue.filter (·.id ≠ id) }

/-- `handle` returned on the event, and the cursor moved to it. -/
def succeeded (source : Source) (e : Event) : View where
  events := v.events
  registered := v.registered
  queue := v.queue
  cursor := Function.update v.cursor source (some e.eventId)
  attempts := { projectionName := name, source := source, event := e, ok := true } :: v.attempts

def retried (row : RetryRow) : View :=
  match v.findEvent row.eventSource row.eventId with
  | none => v.dequeued row.id
  | some e => (v.dequeued row.id).succeeded name row.eventSource e

def dispatched (p : Projection σ) (source : Source) : View :=
  (v.newEvents p source).foldl (·.succeeded p.name source ·) v

/-- A call in which `handle` never raises. -/
def pass (p : Projection σ) (now : Nat) : View :=
  p.sourceCanonical.sources.foldl (·.dispatched p ·)
    ((v.dueRetries now).foldl (·.retried p.name ·) v)

def Concerns (p : Projection σ) (source : Source) (e : Event) : Prop :=
  p.consumes e = true ∨ ∃ r ∈ v.queue, r.eventSource = source ∧ r.eventId = e.eventId

/-- `handle` raises only what the environment raises. -/
def Sure (p : Projection σ) : Prop :=
  ∀ source, ∀ e ∈ v.events source, v.Concerns p source e →
    ∀ now t, ∃ result, p.handle e now t = .ok result

variable {v} {name}

theorem Sure.mono {w : View} {p : Projection σ} (sure : v.Sure p) (events : w.events = v.events)
    (queue : w.queue ⊆ v.queue) : w.Sure p := by
  intro source e he concerns
  rw [events] at he
  exact sure source e he (concerns.imp_right fun ⟨r, hr, same⟩ => ⟨r, queue hr, same⟩)

end View

namespace Authority

variable {a : Authority σ} {p : Projection σ} {source : Source} {e : Event} {now : Nat}

variable (source now) in
theorem own_advanceCursor (registered : (a.view p.name).registered = true) (eventId : String) :
    (a.advanceCursor p.name source eventId now).view p.name =
      { a.view p.name with cursor := Function.update (a.view p.name).cursor source (some eventId) } := by
  obtain ⟨row, found⟩ := Option.isSome_iff_exists.mp registered
  have named : row.projectionName = p.name := by simpa using List.find?_some found
  unfold advanceCursor
  have same := find?_updateState a p.name p.name (f := fun row => match source with
    | .business => { row with lastProcessedBusinessEventId := some eventId, lastRunAt := some now }
    | .ai => { row with lastProcessedAiEventId := some eventId, lastRunAt := some now })
    fun _ => by cases source <;> rfl
  refine View.ext rfl ?_ rfl ?_ rfl
  · exact (congrArg Option.isSome same).trans (Option.isSome_map ..)
  · funext s
    change cursor _ p.name s = Function.update (a.cursor p.name) source (some eventId) s
    rw [cursor_eq]
    refine (congrArg (·.bind (stateCursor s)) same).trans ?_
    simp only [found, Option.map_some, if_pos named, Option.bind_some]
    by_cases at_ : s = source
    · subst at_
      rw [Function.update_self]
      cases s <;> rfl
    · rw [Function.update_of_ne at_, cursor_eq, found, Option.bind_some]
      cases s <;> cases source <;> simp_all [stateCursor]

theorem own_updateStateMetrics (processed failed : Nat) :
    (a.updateStateMetrics p.name processed failed).view p.name = a.view p.name := by
  have same := find?_updateState a p.name p.name (f := fun row =>
    { row with
      eventsProcessedTotal := row.eventsProcessedTotal + processed
      eventsFailedTotal := row.eventsFailedTotal + failed }) fun _ => rfl
  refine View.ext rfl ?_ rfl ?_ rfl
  · exact (congrArg Option.isSome same).trans (Option.isSome_map ..)
  · funext s
    change cursor _ p.name s = cursor _ p.name s
    rw [cursor_eq, cursor_eq, updateStateMetrics, same, Option.bind_map]
    refine Option.bind_congr fun row _ => ?_
    simp only [Function.comp]
    split <;> cases s <;> rfl

theorem own_dispatchRow (registered : (a.view p.name).registered = true)
    (sure : ∃ result, p.handle e now a.target = .ok result) :
    (a.dispatchRow p source e none now).view p.name =
      (a.view p.name).succeeded p.name source e := by
  obtain ⟨⟨written, target⟩, handled⟩ := sure
  have called : a.callHandle p e none now = .ok (written, target) := handled
  unfold dispatchRow
  rw [called]
  change (dispatchSucceeded ..).view p.name = _
  rw [dispatchSucceeded, own_updateStateMetrics, own_advanceCursor _ _ (by exact registered)]
  refine View.ext rfl rfl rfl rfl ?_
  simp [view, View.succeeded]

theorem own_retryRow {row : RetryRow} (registered : (a.view p.name).registered = true)
    (sure : ∀ e ∈ a.findEvent row.eventSource row.eventId, ∃ result, p.handle e now a.target =
      .ok result) :
    (a.retryRow p row none now).view p.name = (a.view p.name).retried p.name row := by
  have dequeued : ∀ b : Authority σ, (b.deleteRetry row.id).view p.name =
      (b.view p.name).dequeued row.id := by
    intro b
    refine View.ext rfl rfl ?_ rfl rfl
    change (b.retryQueue.filter _).filter _ = (b.retryQueue.filter _).filter _
    rw [List.filter_filter, List.filter_filter]
    exact List.filter_congr fun r _ => Bool.and_comm ..
  unfold retryRow View.retried
  change _ = match a.findEvent row.eventSource row.eventId with
    | none => _
    | some e => _
  cases found : a.findEvent row.eventSource row.eventId with
  | none => exact dequeued a
  | some e =>
    obtain ⟨⟨written, target⟩, handled⟩ := sure e found
    have called : a.callHandle p e none now = .ok (written, target) := handled
    have same : e.eventId = row.eventId := by simpa using List.find?_some found
    simp only [called]
    rw [retrySucceeded, own_advanceCursor _ _ (by exact registered), dequeued]
    refine View.ext rfl rfl rfl ?_ ?_
    · simp [View.succeeded, View.dequeued, same, view]
      rfl
    · simp [view, View.succeeded, View.dequeued]

end Authority

namespace View

variable {v : View} {name : String}

@[simp] theorem retried_events (row : RetryRow) : (v.retried name row).events = v.events := by
  unfold retried
  split <;> rfl

@[simp] theorem retried_registered (row : RetryRow) :
    (v.retried name row).registered = v.registered := by
  unfold retried
  split <;> rfl

variable (name) in
theorem foldl_retried (rows : List RetryRow) :
    (rows.foldl (·.retried name ·) v).events = v.events ∧
      (rows.foldl (·.retried name ·) v).registered = v.registered ∧
        (rows.foldl (·.retried name ·) v).queue = v.queue.filter fun r =>
          r.id ∉ rows.map (·.id) := by
  induction rows generalizing v with
  | nil => exact ⟨rfl, rfl, (List.filter_eq_self.mpr fun _ _ => by simp).symm⟩
  | cons row rows ih =>
    obtain ⟨events, registered, queue⟩ := ih (v := v.retried name row)
    refine ⟨events.trans (retried_events row), registered.trans (retried_registered row),
      queue.trans ?_⟩
    have first : (v.retried name row).queue = v.queue.filter (·.id ≠ row.id) := by
      unfold retried
      split <;> rfl
    rw [first, List.filter_filter]
    refine List.filter_congr fun r _ => ?_
    rw [Bool.eq_iff_iff, Bool.and_eq_true, decide_eq_true_iff, decide_eq_true_iff,
      decide_eq_true_iff,
      List.map_cons, List.mem_cons, not_or, and_comm]

variable (name) in
theorem foldl_succeeded (source : Source) (events : List Event) :
    (events.foldl (·.succeeded name source ·) v).events = v.events ∧
      (events.foldl (·.succeeded name source ·) v).registered = v.registered ∧
        (events.foldl (·.succeeded name source ·) v).queue = v.queue := by
  induction events generalizing v with
  | nil => exact ⟨rfl, rfl, rfl⟩
  | cons e events ih => exact ih (v := v.succeeded name source e)

end View

namespace Authority

variable {a : Authority σ} {p : Projection σ} {call : Call}

theorem own_retries {rows : List RetryRow} {v : View} (events : (a.view p.name).events = v.events)
    (registered : (a.view p.name).registered = true) (sure : v.Sure p) (sub : rows ⊆ v.queue)
    (calm : ∀ source eventId, call.fault p.name source eventId = none) :
    (rows.foldl (fun a row =>
      a.retryRow p row (call.fault p.name row.eventSource row.eventId) call.now)
      a).view p.name = rows.foldl (·.retried p.name ·) (a.view p.name) := by
  induction rows generalizing a with
  | nil => rfl
  | cons row rows ih =>
    obtain ⟨here, rest⟩ := List.cons_subset.mp sub
    have first :
        (a.retryRow p row (call.fault p.name row.eventSource row.eventId) call.now).view p.name =
        (a.view p.name).retried p.name row := by
      rw [calm]
      refine own_retryRow registered fun e found => ?_
      have stored : e ∈ v.events row.eventSource := events ▸ List.mem_of_find?_eq_some found
      have same : e.eventId = row.eventId := by simpa using List.find?_some found
      exact sure row.eventSource e stored (Or.inr ⟨row, here, rfl, same.symm⟩) _ _
    rw [List.foldl_cons, List.foldl_cons, ih (by rw [first]; simpa using events)
      (by rw [first]; simpa using registered) rest, first]

theorem dueRetries_view (a : Authority σ) (name : String) (now : Nat) :
    a.dueRetries name now = (a.view name).dueRetries now := by
  unfold dueRetries View.dueRetries
  congr 1
  change _ = (a.retryQueue.filter _).filter _
  rw [List.filter_filter]
  exact List.filter_congr fun r _ => by rw [Bool.and_comm]; simp

theorem own_processRetries (registered : (a.view p.name).registered = true)
    (sure : (a.view p.name).Sure p)
    (calm : ∀ source eventId, call.fault p.name source eventId = none) :
    (a.processRetries p call).view p.name =
      ((a.view p.name).dueRetries call.now).foldl (·.retried p.name ·) (a.view p.name) := by
  unfold processRetries
  rw [dueRetries_view]
  refine own_retries rfl registered sure (fun r hr => ?_) calm
  exact (List.mem_filter.mp ((List.mem_insertionSort _).mp hr)).1

theorem own_dispatchSource {source : Source} (registered : (a.view p.name).registered = true)
    (sure : (a.view p.name).Sure p)
    (calm : ∀ source eventId, call.fault p.name source eventId = none) :
    (a.dispatchSource p call source).view p.name = (a.view p.name).dispatched p source := by
  unfold dispatchSource View.dispatched
  rw [show a.newEvents p source = (a.view p.name).newEvents p source from rfl]
  have consumed : ∀ e ∈ (a.view p.name).newEvents p source,
      e ∈ (a.view p.name).events source ∧ p.consumes e = true := fun e he => by
    simp only [View.newEvents, List.mem_insertionSort, List.mem_filter, decide_eq_true_eq] at he
    exact ⟨he.1, he.2.2⟩
  generalize (a.view p.name).newEvents p source = rows at consumed ⊢
  induction rows generalizing a with
  | nil => rfl
  | cons e rows ih =>
    obtain ⟨⟨stored, takes⟩, rest⟩ := List.forall_mem_cons.mp consumed
    have first :
        (a.dispatchRow p source e (call.fault p.name source e.eventId) call.now).view p.name =
        (a.view p.name).succeeded p.name source e := by
      rw [calm]
      exact own_dispatchRow registered (sure source e stored (Or.inl takes) _ _)
    rw [List.foldl_cons, List.foldl_cons, ih (by rw [first]; exact registered)
      (by rw [first]; exact sure) (by rw [first]; exact rest), first]

theorem own_applyV2 (registered : (a.view p.name).registered = true) (sure : (a.view p.name).Sure p)
    (calm : ∀ source eventId, call.fault p.name source eventId = none) :
    (a.applyV2 p call).view p.name = p.sourceCanonical.sources.foldl (·.dispatched p ·)
      (a.view p.name) := by
  unfold applyV2
  generalize p.sourceCanonical.sources = sources
  induction sources generalizing a with
  | nil => rfl
  | cons source sources ih =>
    have first : (a.dispatchSource p call source).view p.name =
        (a.view p.name).dispatched p source :=
      own_dispatchSource registered sure calm
    obtain ⟨events, kept, queue⟩ := View.foldl_succeeded (v := a.view p.name) p.name source
      ((a.view p.name).newEvents p source)
    rw [List.foldl_cons, List.foldl_cons, ih, first]
    · rw [first]
      exact kept.trans registered
    · rw [first]
      exact sure.mono events fun r hr => queue ▸ hr

structure Intact (a : Authority σ) : Prop where
  events : ∀ source, Table.Unique Event.key (a.events source)
  ids : Table.Unique RetryRow.idKey a.retryQueue
  seq : ∀ r ∈ a.retryQueue, r.id ≤ a.retryQueueSeq

theorem Intact.retryRow (h : a.Intact) (q : Projection σ) (row : RetryRow) (fault : Option Failure)
    (now : Nat) : (a.retryRow q row fault now).Intact where
  events := fun source => by
    rw [retryRow_events]
    exact h.events source
  ids := retryRow_ids_unique h.ids q row fault now
  seq := by
    rw [retryRow_retryQueueSeq]
    intro r hr
    rcases a.retryRow_retryQueue q row fault now with same | ⟨nextAt, -, same⟩
    · rw [same] at hr
      exact h.seq r (List.mem_filter.mp hr).1
    · rw [same] at hr
      obtain ⟨r', hr', rfl⟩ := Table.mem_update.mp hr
      split <;> exact h.seq r' hr'

theorem Intact.dispatchRow (h : a.Intact) (q : Projection σ) (source : Source) (e : Event)
    (fault : Option Failure) (now : Nat) : (a.dispatchRow q source e fault now).Intact where
  events := fun s => by
    rw [dispatchRow_events]
    exact h.events s
  ids := (dispatchRow_ids h.ids h.seq q source e fault now).1
  seq := (dispatchRow_ids h.ids h.seq q source e fault now).2

theorem Intact.processRetries (h : a.Intact) (q : Projection σ) (call : Call) :
    (a.processRetries q call).Intact :=
  List.foldlRecOn (motive := Intact) _ _ h fun _ kept row _ => kept.retryRow q row _ _

theorem Intact.applyV2 (h : a.Intact) (q : Projection σ) (call : Call) :
    (a.applyV2 q call).Intact :=
  List.foldlRecOn (motive := Intact) _ _ h fun _ kept source _ =>
    List.foldlRecOn (motive := Intact) _ _ kept fun _ kept e _ => kept.dispatchRow q source e _ _

theorem view_processRetries {q : Projection σ} {name : String} (ne : q.name ≠ name) (h : a.Intact)
    (call : Call) : (a.processRetries q call).view name = a.view name := by
  refine List.foldlRecOn (motive := fun b : Authority σ => b.view name = a.view name) _ _ rfl
    fun b same row due => ?_
  refine (view_retryRow ne ?_ _ _).trans same
  obtain ⟨hrow, named, -⟩ := mem_dueRetries.mp due
  unfold Spares
  rw [same]
  intro r hr equal
  obtain ⟨hr, other⟩ := List.mem_filter.mp hr
  have one : r = row := Table.eq_of_key_eq h.ids hr hrow (congrArg some equal) nofun
  exact ne (named.symm.trans (one ▸ of_decide_eq_true other))

theorem view_applyV2 {q : Projection σ} {name : String} (ne : q.name ≠ name) (call : Call) :
    (a.applyV2 q call).view name = a.view name :=
  List.foldlRecOn (motive := fun b : Authority σ => b.view name = a.view name) _ _ rfl
    fun _ same source _ => (view_dispatchSource ne call source).trans same

end Authority

section Targets

variable {a : Authority σ} {p : Projection σ} {call : Call}

theorem Authority.Intact.runTargets {targets : List (Projection σ)} (h : a.Intact) :
    (runTargets call targets a).Intact := by
  induction targets generalizing a with
  | nil => exact h
  | cons q targets ih =>
    unfold Projections.runTargets
    split
    · exact h.processRetries q call
    · exact ih ((h.processRetries q call).applyV2 q call)

theorem view_runTargets {targets : List (Projection σ)} {name : String}
    (others : ∀ q ∈ targets, q.name ≠ name) (h : a.Intact) :
    (runTargets call targets a).view name = a.view name := by
  induction targets generalizing a with
  | nil => rfl
  | cons q targets ih =>
    obtain ⟨ne, rest⟩ := List.forall_mem_cons.mp others
    unfold runTargets
    split
    · exact Authority.view_processRetries ne h call
    · rw [ih rest ((h.processRetries q call).applyV2 q call), Authority.view_applyV2 ne,
        Authority.view_processRetries ne h call]

theorem own_runTargets {targets : List (Projection σ)} (h : a.Intact)
    (names : (targets.map (·.name)).Nodup)
    (reaches : p ∈ targets.takeWhile (·.consumedEventTypes ≠ []))
    (registered : (a.view p.name).registered = true) (sure : (a.view p.name).Sure p)
    (calm : ∀ source eventId, call.fault p.name source eventId = none) :
    (runTargets call targets a).view p.name = (a.view p.name).pass p call.now := by
  induction targets generalizing a with
  | nil => cases reaches
  | cons q targets ih =>
    rw [List.map_cons, List.nodup_cons] at names
    by_cases typed : q.consumedEventTypes = []
    · simp [typed] at reaches
    rw [List.takeWhile_cons_of_pos (by simpa using typed)] at reaches
    unfold runTargets
    rw [if_neg typed]
    have intact := (h.processRetries q call).applyV2 q call
    rcases List.mem_cons.mp reaches with rfl | later
    · rw [view_runTargets (fun q' hq' same => names.1 (List.mem_map.mpr ⟨q', hq', same⟩)) intact]
      have retried := Authority.own_processRetries registered sure calm
      obtain ⟨events, kept, queue⟩ := View.foldl_retried (v := a.view p.name) p.name
        ((a.view p.name).dueRetries call.now)
      rw [Authority.own_applyV2 _ _ calm, retried]
      · rfl
      · rw [retried, kept, registered]
      · rw [retried]
        refine sure.mono events fun r hr => ?_
        rw [queue] at hr
        exact (List.mem_filter.mp hr).1
    · have ne : q.name ≠ p.name := fun same =>
        names.1 (List.mem_map.mpr ⟨p, List.takeWhile_subset _ later, same.symm⟩)
      have same : ((a.processRetries q call).applyV2 q call).view p.name = a.view p.name := by
        rw [Authority.view_applyV2 ne, Authority.view_processRetries ne h call]
      rw [ih intact names.2 later (by rw [same]; exact registered) (by rw [same]; exact sure), same]

end Targets

end DreamStudio.Projections
