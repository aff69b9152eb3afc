import DreamStudio.Library.Machine
import DreamStudio.Library.Replica
import DreamStudio.Projections.Task
import DreamStudio.WorkOrders.Mutations

namespace DreamStudio.WorkOrders

open Library Projections

def taskTypeEffect : TaskEventType → TaskStatus → TaskStatus
  | .started, s => if s ∈ TaskStatus.settled then s else .inProgress
  | .completed, _ => .complete
  | .cancelled, _ => .cancelled
  | .deleted, _ => .deleted
  | .created, s | .acRepointed, s => s

def taskEffect (e : Event) (s : TaskStatus) : TaskStatus :=
  match TaskEventType.ofText e.eventType with
  | some type => taskTypeEffect type s
  | none => s

def taskEffects (events : List Event) (s : TaskStatus) : TaskStatus :=
  events.foldl (fun s e => taskEffect e s) s

def Settling (e : Event) : Prop :=
  TaskEventType.ofText e.eventType ∈ [some .completed, some .cancelled, some .deleted]

instance (e : Event) : Decidable (Settling e) := inferInstanceAs (Decidable (_ ∈ _))

def taskHandler (keys : TaskKeys) (taskId : String) :
    Handler TaskTable TaskRow Event String Failure where
  handle := handleTask keys
  table r := [r]
  own r := r.taskId = some taskId
  key := (·.eventId)
  seen r id := r.sourceEventId = some id ∨ r.lastEventId = some id

/-- A task that `create_task` files under a work order and a project that are there. -/
structure TaskCreation (keys : TaskKeys) where
  taskId : String
  named : taskId ≠ ""
  workOrderId : String
  projectId : String
  registered : ∃ p, keys.resolveProjectId projectId workOrderId = some p ∧
    keys.references workOrderId p = true
  title : String
  description : String
  acceptanceCriteria : Text
  eventId : String
  now : Now

def TaskCreation.fields {keys : TaskKeys} (c : TaskCreation keys) : List (String × Json) :=
  [("title", .str c.title), ("description", .str c.description),
    ("acceptance_criteria", .ofOption c.acceptanceCriteria), ("status", .str "created")]

def TaskCreation.emit {keys : TaskKeys} (c : TaskCreation keys) : Event where
  eventId := c.eventId
  eventType := TaskEventType.created.text
  eventTimestamp := c.now.iso
  payload := .obj c.fields
  projectId := c.projectId
  workOrderId := c.workOrderId
  taskId := c.taskId

def emitTask (r : TaskRow) (type : TaskEventType) (workOrderId : Text)
    (payload : List (String × Json)) (eventId : String) (now : Now) : Event where
  eventId := eventId
  eventType := type.text
  eventTimestamp := now.iso
  payload := .obj payload
  projectId := r.projectId
  workOrderId := workOrderId
  taskId := r.taskId

/-- `synced` is the clock of the pass a call makes of its own, where that pass lands. -/
inductive TaskOperation
  | start (now : Now) (eventId : String)
  | done (remaining : Int) (now : Now) (eventId : String) (synced : Option Nat)
  | carry (carriedTo : String) (now : Now) (eventId : String) (synced : Option Nat)
  | drain (note reason keep : String) (now : Now) (eventId : String)
  | tick (clock : Nat)

section Writers

variable (keys : TaskKeys) (workOrderId taskId : String)

def taskRow (s : Replica TaskTable Event) : Option TaskRow := Table.lookup TaskRow.key taskId s.live

/-- The statuses `_open_tasks` leaves out. -/
def uncarried : List TaskStatus := [.complete, .cancelled, .deleted]

/-- The writers of one task, one after another. A refused call is no step. -/
def taskWriters : Machine (Replica TaskTable Event) TaskOperation where
  step s
    | .start now eventId => do
      let r ← taskRow taskId s
      guard (∀ e ∈ s.log, e.eventId ≠ eventId)
      guard (r.workOrderId = some workOrderId ∧ r.status ≠ .complete)
      if r.status = .inProgress then some s
      else
        some (s.record
          (s.live.set r.taskId fun r => { r with status := .inProgress, updatedAt := now.micros })
          (emitTask r .started workOrderId
            [("task_id", .str taskId), ("work_order_id", .str workOrderId)] eventId now))
    | .done remaining now eventId synced => do
      let r ← taskRow taskId s
      guard (∀ e ∈ s.log, e.eventId ≠ eventId)
      guard (r.workOrderId = some workOrderId)
      (taskHandler keys taskId).sync synced (s.record s.live
        (emitTask r .completed workOrderId
          [("task_id", .str taskId), ("work_order_id", .str workOrderId),
            ("tasks_remaining", .int remaining)] eventId now))
    | .carry carriedTo now eventId synced => do
      let r ← taskRow taskId s
      guard (∀ e ∈ s.log, e.eventId ≠ eventId)
      guard (r.workOrderId = some workOrderId ∧ r.status ∉ uncarried)
      (taskHandler keys taskId).sync synced (s.record s.live
        (emitTask r .deleted workOrderId
          [("deletion_context", .str "carried_to_another_work_order"),
            ("carried_to", .str carriedTo)] eventId now))
    | .drain note reason keep now eventId => do
      let r ← taskRow taskId s
      guard (∀ e ∈ s.log, e.eventId ≠ eventId)
      guard (r.status.isOpen ∧ contains (r.description.getD "") "[gap-attached: ")
      some (s.record
        (s.live.set r.taskId fun r =>
          { r with
            status := .cancelled, updatedAt := now.micros
            description := some (r.description.getD "" ++ note) })
        (emitTask r .cancelled keep [("reason", .str reason)] eventId now))
    | .tick clock => (taskHandler keys taskId).tick clock s

end Writers

/-- Once every event is projected the row has the status its events replay to. -/
def Settles (keys : TaskKeys) (taskId : String) (pass clock : Nat) (s : Replica TaskTable Event) :
    Prop :=
  ∃ t t', (taskHandler keys taskId).project pass s.pending s.live = .ok t ∧
    (taskHandler keys taskId).project clock s.log [] = .ok t' ∧ t.map (·.status) = t'.map (·.status)

/-- A start of a task that has settled, with no event left that would settle it again. -/
def Revives (taskId : String) (s : Replica TaskTable Event) : TaskOperation → Prop
  | .start _ _ => (∀ e ∈ s.pending, ¬Settling e) ∧ ∃ r ∈ taskRow taskId s, r.status ∈
    TaskStatus.settled
  | _ => False

section Events

open TaskTable

variable {keys : TaskKeys} {taskId : String}

theorem task_isAlreadyProcessed {r : TaskRow} {id : String} :
    isAlreadyProcessed [r] id = false ↔ ¬(r.sourceEventId = some id ∨ r.lastEventId = some id) := by
  simp [isAlreadyProcessed]

theorem set_own {r : TaskRow} (own : r.taskId = some taskId) (f : TaskRow → TaskRow) :
    TaskTable.set [r] (some taskId) f = [f r] := by
  simp [TaskTable.set, Table.update, own]

theorem ensureSkeleton_task {r : TaskRow} (own : r.taskId = some taskId)
    (workOrderId projectId : Text) (clock : Nat) :
    TaskTable.ensureSkeleton keys [r] (some taskId) workOrderId projectId clock = .ok [r] := by
  simp [TaskTable.ensureSkeleton, TaskTable.insert, Table.insertOrIgnore, Table.SameKey,
    TaskRow.key, own]

/-- Past the checks of `handle`, an event about a task that has its row is for the handlers. -/
theorem handleTask_own {r : TaskRow} (named : taskId ≠ "")
    (own : r.taskId = some taskId) {e : Event} (subject : e.taskId = some taskId)
    (new : isAlreadyProcessed [r] e.eventId = false) {type : TaskEventType}
    (known : TaskEventType.ofText e.eventType = some type) (later : type ≠ .created) (clock : Nat) :
    handleTask keys e clock [r] =
      TaskTable.handleTyped [r] (some type) (some taskId) (e.payload.or (.obj []))
        e.eventId clock := by
  unfold handleTask
  simp only [new, subject, Option.getD_some, named, known, ensureSkeleton_task own,
    Bool.false_eq_true,
    if_false]
  cases type with
  | created => exact absurd rfl later
  | _ => rfl

theorem task_sets {r : TaskRow} (own : r.taskId = some taskId)
    {handled : Except Failure (Nat × TaskTable)} {set : TaskRow → TaskRow} {status : TaskStatus}
    {eventId : String} (h : handled = .ok (1, TaskTable.set [r] (some taskId) set))
    (moved : (set r).status = status) (key : (set r).taskId = r.taskId)
    (source : (set r).sourceEventId = r.sourceEventId)
    (last : (set r).lastEventId = some eventId ∨ (set r).lastEventId = r.lastEventId) :
    ∃ n r', handled = .ok (n, [r']) ∧ r'.status = status ∧ r'.taskId = some taskId ∧
      ∀ id, r'.sourceEventId = some id ∨ r'.lastEventId = some id →
        (r.sourceEventId = some id ∨ r.lastEventId = some id) ∨ id = eventId := by
  refine ⟨1, set r, by rw [h, set_own own], moved, key.trans own, fun id seen => ?_⟩
  rw [source] at seen
  rcases seen with first | latest
  · exact Or.inl (Or.inl first)
  · rcases last with new | same
    · exact Or.inr (Option.some.inj (latest.symm.trans new))
    · exact Or.inl (Or.inr (same.symm.trans latest))

theorem task_ends {r : TaskRow} (own : r.taskId = some taskId) (status : TaskStatus)
    (eventId : String) (clock : Nat) :
    ∃ n r', (.ok (1, TaskTable.handleEnded status [r] (some taskId) eventId clock) :
        Except Failure (Nat × TaskTable)) = .ok (n, [r']) ∧ r'.status = status ∧
      r'.taskId = some taskId ∧
      ∀ id, r'.sourceEventId = some id ∨ r'.lastEventId = some id →
        (r.sourceEventId = some id ∨ r.lastEventId = some id) ∨ id = eventId :=
  task_sets own rfl rfl rfl rfl (Or.inl rfl)

theorem task_acts (named : taskId ≠ "") {e : Event} (subject : e.taskId = some taskId)
    {type : TaskEventType} (known : TaskEventType.ofText e.eventType = some type)
    (moves : type ∈ [.started, .completed, .cancelled, .deleted]) :
    (taskHandler keys taskId).Acts (·.status) e (taskEffect e) := by
  intro clock r own new
  have mine : r.taskId = some taskId := own
  have later : type ≠ .created := by
    rintro rfl
    simp at moves
  change ∃ n r', handleTask keys e clock [r] = _ ∧ _
  rw [handleTask_own named mine subject (task_isAlreadyProcessed.mpr new) known later]
  have effect : taskEffect e r.status = taskTypeEffect type r.status := by
    simp only [taskEffect, known]
  rw [effect]
  cases type with
  | started =>
    by_cases settled : r.status ∈ TaskStatus.settled
    · exact task_sets mine rfl (by simp [taskTypeEffect, settled]) (by simp [settled])
        (by simp [settled]) (Or.inr (by simp [settled]))
    · exact task_sets mine rfl (by simp [taskTypeEffect, settled]) (by simp [settled])
        (by simp [settled]) (Or.inl (by simp [settled]; rfl))
  | completed => exact task_ends mine .complete e.eventId clock
  | cancelled => exact task_ends mine .cancelled e.eventId clock
  | deleted => exact task_ends mine .deleted e.eventId clock
  | created => exact absurd rfl later
  | acRepointed => simp at moves

theorem insert_first {row : TaskRow} (admits : row.admits = true)
    (references : keys.references row.workOrderId row.projectId = true) :
    TaskTable.insert keys [] row = .ok [row] := by
  simp [TaskTable.insert, Table.insertOrIgnore, admits, references]

theorem fill_first {row : TaskRow} (admits : row.admits = true) (taskId : Text) :
    TaskTable.fill [row] taskId row = .ok (TaskTable.set [row] taskId (backfill row)) := by
  have kept : (backfill row row).admits = true := by
    simp only [TaskRow.admits, Bool.and_eq_true] at admits
    obtain ⟨⟨⟨workOrder, project⟩, title⟩, createdAt⟩ := admits
    obtain ⟨text, htext⟩ := Option.isSome_iff_exists.mp title
    simp [TaskRow.admits, backfill, coalesce, workOrder, project, createdAt, htext]
  simp [TaskTable.fill, kept]

theorem created_task {keys : TaskKeys} (c : TaskCreation keys) (clock : Nat) :
    ∃ r, (taskHandler keys c.taskId).project clock [c.emit] [] = .ok [r] ∧ r.status = .pending ∧
      r.taskId = some c.taskId ∧
      ∀ id, r.sourceEventId = some id ∨ r.lastEventId = some id → id = c.eventId := by
  obtain ⟨p, resolved, referenced⟩ := c.registered
  have criteria := bindParam_ofOption c.acceptanceCriteria
  obtain ⟨title, titled⟩ : ∃ title, bindParam (Json.or (.str c.title) (.str skeletonTitle)) =
      .ok (some title) := by
    by_cases empty : c.title = "" <;> simp [Json.or, Json.truthy, empty, bindParam, bindText]
  let row : TaskRow := {
    taskId := c.taskId, workOrderId := c.workOrderId, projectId := p, title := title
    description := c.description, acceptanceCriteria := c.acceptanceCriteria
    createdAt := c.now.iso, updatedAt := clock
    sourceEventId := c.eventId, lastEventId := c.eventId }
  have inserted : TaskTable.insert keys [] row = .ok [row] := insert_first rfl referenced
  have created : handleCreated keys [] (some c.taskId) (some c.workOrderId) (some p) (.obj c.fields)
      c.eventId c.now.iso clock = .ok (1, TaskTable.set [row] (some c.taskId) (backfill row)) := by
    have named : Json.lookup c.fields "title" = .str c.title := rfl
    have described : bindParam (Json.lookup c.fields "description") = .ok (some c.description) :=
      rfl
    have checked : Json.lookup c.fields "acceptance_criteria" = .ofOption c.acceptanceCriteria :=
      rfl
    simp only [handleCreated, payloadGet, ok_bind, named, titled, described, checked, criteria]
    rw [show TaskTable.insert keys [] _ = _ from inserted, ok_bind,
      show TaskTable.fill [row] _ _ = _ from fill_first rfl (some c.taskId)]
    rfl
  have handled : handleTask keys c.emit clock [] = .ok (1, [backfill row row]) := by
    rw [set_own rfl] at created
    have given : c.emit.payload.or (.obj []) = .obj c.fields := rfl
    have type : TaskEventType.ofText c.emit.eventType = some .created := rfl
    have new : isAlreadyProcessed [] c.emit.eventId = false := rfl
    have named : c.emit.taskId.getD "" ≠ "" := c.named
    have key : keys.resolveProjectId c.emit.projectId c.emit.workOrderId = some p := resolved
    unfold handleTask
    simp only [new, named, given, type, key, Bool.false_eq_true, if_false]
    exact created
  refine ⟨_, Handler.project_singleton handled, rfl, rfl, fun id seen => ?_⟩
  rcases seen with source | last
  · exact (Option.some.inj source).symm
  · exact (Option.some.inj last).symm

end Events

section Effects

variable {events : List Event} {e : Event} {s t : TaskStatus}

@[simp] theorem taskEffects_append :
    taskEffects (events ++ [e]) s = taskEffect e (taskEffects events s) := by
  simp [taskEffects]

theorem taskEffect_const (settling : Settling e) (s t : TaskStatus) :
    taskEffect e s = taskEffect e t := by
  unfold taskEffect
  rcases List.mem_cons.mp settling with type | settling
  · rw [type]
    rfl
  rcases List.mem_cons.mp settling with type | settling
  · rw [type]
    rfl
  · rw [List.mem_singleton.mp settling]
    rfl

theorem taskEffects_const (h : ∃ e ∈ events, Settling e) (s t : TaskStatus) :
    taskEffects events s = taskEffects events t := by
  induction events generalizing s t with
  | nil => simp at h
  | cons e events ih =>
    obtain ⟨e', he', settling⟩ := h
    rcases List.mem_cons.mp he' with rfl | later
    · exact congrArg (taskEffects events) (taskEffect_const settling s t)
    · exact ih ⟨e', later, settling⟩ _ _

theorem taskEffect_open (unsettling : ¬Settling e) :
    (s ∈ TaskStatus.settled → taskEffect e s = s) ∧
      (s ∉ TaskStatus.settled → taskEffect e s = s ∨ taskEffect e s = .inProgress) := by
  unfold taskEffect
  cases type : TaskEventType.ofText e.eventType with
  | none => exact ⟨fun _ => rfl, fun _ => Or.inl rfl⟩
  | some type' =>
    cases type' with
    | started => exact ⟨fun settled => if_pos settled, fun open_ => Or.inr (if_neg open_)⟩
    | created => exact ⟨fun _ => rfl, fun _ => Or.inl rfl⟩
    | acRepointed => exact ⟨fun _ => rfl, fun _ => Or.inl rfl⟩
    | _ => exact absurd (show Settling e by simp [Settling, type]) unsettling

theorem taskEffects_open (unsettling : ∀ e ∈ events, ¬Settling e) :
    (s ∈ TaskStatus.settled → taskEffects events s = s) ∧
      (s ∉ TaskStatus.settled → taskEffects events s = s ∨ taskEffects events s = .inProgress) := by
  induction events generalizing s with
  | nil => exact ⟨fun _ => rfl, fun _ => Or.inl rfl⟩
  | cons e events ih =>
    obtain ⟨first, later⟩ := List.forall_mem_cons.mp unsettling
    obtain ⟨stays, moves⟩ := taskEffect_open (s := s) first
    refine ⟨fun settled => ?_, fun open_ => ?_⟩
    · change taskEffects events (taskEffect e s) = s
      rw [stays settled]
      exact (ih later).1 settled
    · change taskEffects events (taskEffect e s) = s ∨
        taskEffects events (taskEffect e s) = .inProgress
      have working : TaskStatus.inProgress ∉ TaskStatus.settled := by decide
      rcases moves open_ with same | started
      · rw [same]
        exact (ih later).2 open_
      · rw [started]
        exact Or.inr (or_self_iff.mp ((ih later).2 working))

end Effects

def TracksTask (keys : TaskKeys) (taskId : String) (clock : Nat) (s : Replica TaskTable Event)
    (r q : TaskRow) : Prop :=
  (taskHandler keys taskId).Tracks (·.status) clock [] s r q (taskEffects s.pending)

section Tracking

variable {keys : TaskKeys} {workOrderId taskId : String} {clock pass : Nat}
  {s t : Replica TaskTable Event} {r q : TaskRow}

theorem TracksTask.row (h : TracksTask keys taskId clock s r q) : taskRow taskId s = some r := by
  have own : r.taskId = some taskId := h.own
  simp [taskRow, Table.lookup, h.live, taskHandler, TaskRow.key, own]

theorem TracksTask.settles_iff (h : TracksTask keys taskId clock s r q) :
    Settles keys taskId pass clock s ↔ taskEffects s.pending r.status = q.status := by
  have ids : (s.pending.map (·.eventId)).Nodup := h.nodup.sublist (h.logged.sublist.map _)
  obtain ⟨r', projected, acted, -⟩ := h.pends pass r h.own ids h.fresh
  constructor
  · rintro ⟨t, t', live, replay, same⟩
    rw [h.live, projected] at live
    rw [h.replay] at replay
    cases live
    cases replay
    exact acted.symm.trans (List.head_eq_of_cons_eq same)
  · intro same
    refine ⟨[r'], [q], by rw [h.live]; exact projected, h.replay, ?_⟩
    simp [acted, same]

theorem TracksTask.record (h : TracksTask keys taskId clock s r q) {r' : TaskRow} {e : Event}
    (key : r'.taskId = r.taskId) (source : r'.sourceEventId = r.sourceEventId)
    (last : r'.lastEventId = r.lastEventId)
    (acts : (taskHandler keys taskId).Acts (·.status) e (taskEffect e))
    (new : ∀ e' ∈ s.log, e'.eventId ≠ e.eventId) :
    ∃ q', TracksTask keys taskId clock (s.record [r'] e) r' q' ∧
      q'.status = taskEffect e q.status := by
  have own : r.taskId = some taskId := h.own
  have ids : ∀ id, (taskHandler keys taskId).seen r' id ↔ (taskHandler keys taskId).seen r id := by
    simp only [taskHandler, source, last, implies_true]
  obtain ⟨q', tracks, acted⟩ := Handler.Tracks.record h (key.trans own) ids acts new
  have both : taskEffects (s.record [r'] e).pending = taskEffect e ∘ taskEffects s.pending :=
    funext fun x => taskEffects_append
  exact ⟨q', by rw [TracksTask, both]; exact tracks, acted⟩

theorem TracksTask.sync (h : TracksTask keys taskId clock s r q) {at_ : Option Nat}
    (synced : (taskHandler keys taskId).sync at_ s = some t) :
    ∃ r', TracksTask keys taskId clock t r' q ∧
      taskEffects t.pending r'.status = taskEffects s.pending r.status := by
  cases at_ with
  | none =>
    cases synced
    exact ⟨r, h, rfl⟩
  | some pass =>
    obtain ⟨none, -⟩ := Handler.tick_pending synced
    obtain ⟨r', tracks, acted⟩ := h.tick synced
    refine ⟨r', ?_, ?_⟩
    · rw [TracksTask, none]
      exact tracks
    · rw [none]
      exact acted

end Tracking

section Steps

variable {keys : TaskKeys} {workOrderId taskId : String} {clock pass : Nat}
  {s t : Replica TaskTable Event} {r q : TaskRow}

/-- A step that leaves the row at `status` and records an event of a type, with a pass of its own or
without. -/
def Recorded (keys : TaskKeys) (taskId : String) (type : TaskEventType) (status : TaskStatus)
    (s t : Replica TaskTable Event) (r : TaskRow) : Prop :=
  ∃ r' e synced, r'.taskId = r.taskId ∧ r'.sourceEventId = r.sourceEventId ∧
    r'.lastEventId = r.lastEventId ∧ r'.status = status ∧ e.taskId = r.taskId ∧
    TaskEventType.ofText e.eventType = some type ∧ (∀ e' ∈ s.log, e'.eventId ≠ e.eventId) ∧
    (taskHandler keys taskId).sync synced (s.record [r'] e) = some t

theorem Recorded.tracks {type : TaskEventType} {status : TaskStatus} (named : taskId ≠ "")
    (h : TracksTask keys taskId clock s r q) (recorded : Recorded keys taskId type status s t r)
    (moves : type ∈ [.started, .completed, .cancelled, .deleted]) :
    ∃ r' q', TracksTask keys taskId clock t r' q' ∧
      taskEffects t.pending r'.status = taskTypeEffect type (taskEffects s.pending status) ∧
      q'.status = taskTypeEffect type q.status := by
  obtain ⟨r₁, e, synced, key, source, last, rfl, subject, known, new, done⟩ := recorded
  have effect : ∀ x, taskEffect e x = taskTypeEffect type x := fun x => by
    simp only [taskEffect, known]
  obtain ⟨q', wrote, acted⟩ := h.record key source last
    (task_acts named (subject.trans h.own) known moves) new
  obtain ⟨r', passed, same⟩ := wrote.sync done
  refine ⟨r', q', passed, ?_, acted.trans (effect _)⟩
  rw [same, Replica.record, taskEffects_append, effect]

theorem TracksTask.set (h : TracksTask keys taskId clock s r q) (f : TaskRow → TaskRow) :
    s.live.set r.taskId f = [f r] := by
  have own : r.taskId = some taskId := h.own
  rw [h.live, own]
  exact set_own own f

theorem start_cases {now : Now} {eventId : String} (h : TracksTask keys taskId clock s r q)
    (step : (taskWriters keys workOrderId taskId).step s (.start now eventId) = some t) :
    r.status = .inProgress ∧ t = s ∨
      r.status ∉ [.complete, .inProgress] ∧ Recorded keys taskId .started .inProgress s t r := by
  simp only [taskWriters, h.row, Option.bind_eq_bind, Option.bind_some, Option.bind_eq_some_iff,
    Option.guard_eq_some', h.set] at step
  obtain ⟨-, new, -, ⟨-, unfinished⟩, step⟩ := step
  split at step
  next working => exact Or.inl ⟨working, (Option.some.inj step).symm⟩
  next idle =>
    refine Or.inr ⟨by simp [unfinished, idle],
      { r with status := .inProgress, updatedAt := now.micros },
      emitTask r .started workOrderId
        [("task_id", .str taskId), ("work_order_id", .str workOrderId)] eventId now, none, ?_⟩
    exact ⟨rfl, rfl, rfl, rfl, rfl, TaskEventType.ofText_text .started, new, step⟩

theorem done_cases {remaining : Int} {now : Now} {eventId : String} {synced : Option Nat}
    (h : TracksTask keys taskId clock s r q)
    (step : (taskWriters keys workOrderId taskId).step s (.done remaining now eventId synced) =
      some t) :
    Recorded keys taskId .completed r.status s t r := by
  simp only [taskWriters, h.row, Option.bind_eq_bind, Option.bind_some, Option.bind_eq_some_iff,
    Option.guard_eq_some'] at step
  obtain ⟨-, new, -, -, step⟩ := step
  rw [h.live] at step
  exact ⟨r, _, synced, rfl, rfl, rfl, rfl, rfl, TaskEventType.ofText_text .completed, new, step⟩

theorem carry_cases {carriedTo : String} {now : Now} {eventId : String} {synced : Option Nat}
    (h : TracksTask keys taskId clock s r q)
    (step : (taskWriters keys workOrderId taskId).step s (.carry carriedTo now eventId synced) =
      some t) :
    Recorded keys taskId .deleted r.status s t r := by
  simp only [taskWriters, h.row, Option.bind_eq_bind, Option.bind_some, Option.bind_eq_some_iff,
    Option.guard_eq_some'] at step
  obtain ⟨-, new, -, -, step⟩ := step
  rw [h.live] at step
  exact ⟨r, _, synced, rfl, rfl, rfl, rfl, rfl, TaskEventType.ofText_text .deleted, new, step⟩

theorem task_drain_cases {note reason keep : String} {now : Now} {eventId : String}
    (h : TracksTask keys taskId clock s r q)
    (step : (taskWriters keys workOrderId taskId).step s (.drain note reason keep now eventId) =
      some t) :
    Recorded keys taskId .cancelled .cancelled s t r := by
  simp only [taskWriters, h.row, Option.bind_eq_bind, Option.bind_some, Option.bind_eq_some_iff,
    Option.guard_eq_some', h.set] at step
  obtain ⟨-, new, -, -, step⟩ := step
  let cancelled := { r with
    status := .cancelled, updatedAt := now.micros
    description := some (r.description.getD "" ++ note) }
  exact ⟨cancelled, emitTask r .cancelled keep [("reason", .str reason)] eventId now,
    none, rfl, rfl,
    rfl, rfl, rfl, TaskEventType.ofText_text .cancelled, new, step⟩

theorem task_step_tracked (named : taskId ≠ "") (l : TaskOperation)
    (hs : ∃ r q, TracksTask keys taskId clock s r q)
    (step : (taskWriters keys workOrderId taskId).step s l = some t) :
    ∃ r q, TracksTask keys taskId clock t r q := by
  obtain ⟨r, q, tracks⟩ := hs
  have kept : ∀ {type : TaskEventType} {status : TaskStatus}, Recorded keys taskId type
      status s t r →
      type ∈ [.started, .completed, .cancelled, .deleted] →
      ∃ r q, TracksTask keys taskId clock t r q := fun recorded moves => by
    obtain ⟨r', q', after, -⟩ := recorded.tracks named tracks moves
    exact ⟨r', q', after⟩
  cases l with
  | start now eventId =>
    rcases start_cases tracks step with ⟨-, rfl⟩ | ⟨-, recorded⟩
    · exact ⟨r, q, tracks⟩
    · exact kept recorded (by decide)
  | done remaining now eventId synced => exact kept (done_cases tracks step) (by decide)
  | carry carriedTo now eventId synced => exact kept (carry_cases tracks step) (by decide)
  | drain note reason keep now eventId => exact kept (task_drain_cases tracks step) (by decide)
  | tick pass =>
    obtain ⟨r', after, -⟩ := tracks.sync
      (show (taskHandler keys taskId).sync (some pass) s = _ from step)
    exact ⟨r', q, after⟩

theorem started_inProgress : taskTypeEffect .started .inProgress = .inProgress := rfl

theorem started_iff {events : List Event} {before after : TaskStatus} (idle : before ≠ .inProgress)
    (same : taskEffects events before = after) :
    taskTypeEffect .started (taskEffects events .inProgress) = taskTypeEffect .started after ↔
      ¬((∀ e ∈ events, ¬Settling e) ∧ before ∈ TaskStatus.settled) := by
  subst same
  by_cases settling : ∃ e ∈ events, Settling e
  · rw [taskEffects_const settling .inProgress before]
    refine iff_of_true rfl ?_
    rintro ⟨none, -⟩
    obtain ⟨e, he, settles⟩ := settling
    exact none e he settles
  · have none : ∀ e ∈ events, ¬Settling e := fun e he settles => settling ⟨e, he, settles⟩
    have working : taskEffects events .inProgress = .inProgress :=
      or_self_iff.mp ((taskEffects_open none).2 (by decide))
    rw [working, started_inProgress]
    by_cases settled : before ∈ TaskStatus.settled
    · rw [(taskEffects_open none).1 settled]
      have stays : taskTypeEffect .started before = before := if_pos settled
      rw [stays]
      exact iff_of_false (fun h => idle h.symm) (fun h => h ⟨none, settled⟩)
    · refine iff_of_true ?_ (fun h => settled h.2)
      rcases (taskEffects_open none).2 settled with same | started
      · rw [same]
        exact (if_neg settled).symm
      · rw [started, started_inProgress]

theorem step_settles_iff (named : taskId ≠ "") (l : TaskOperation)
    (hs : ∃ r q, TracksTask keys taskId clock s r q) (settles : Settles keys taskId pass clock s)
    (step : (taskWriters keys workOrderId taskId).step s l = some t) :
    Settles keys taskId pass clock t ↔ ¬Revives taskId s l := by
  obtain ⟨r, q, tracks⟩ := hs
  have same := tracks.settles_iff.mp settles
  -- an event that settles the task settles the row and the replay alike
  have settled : ∀ {type : TaskEventType} {status : TaskStatus}, Recorded keys taskId type
      status s t r →
      type ∈ [.completed, .cancelled, .deleted] → Settles keys taskId pass clock t := by
    intro type status recorded moves
    obtain ⟨r', q', after, live, replay⟩ :=
      recorded.tracks named tracks (List.mem_cons_of_mem _ moves)
    rw [after.settles_iff, live, replay]
    cases type with
    | completed => rfl
    | cancelled => rfl
    | deleted => rfl
    | _ => simp at moves
  cases l with
  | start now eventId =>
    rcases start_cases tracks step with ⟨working, rfl⟩ | ⟨idle, recorded⟩
    · refine iff_of_true settles ?_
      rintro ⟨-, r', found, done⟩
      rw [tracks.row] at found
      cases found
      rw [working] at done
      exact absurd done (by decide)
    · obtain ⟨r', q', after, live, replay⟩ := recorded.tracks named tracks (by decide)
      have found : Revives taskId s (.start now eventId) ↔
          (∀ e ∈ s.pending, ¬Settling e) ∧ r.status ∈ TaskStatus.settled := by
        simp [Revives, tracks.row]
      rw [after.settles_iff, live, replay, found]
      exact started_iff (fun working => idle (by simp [working])) same
  | done remaining now eventId synced =>
    exact iff_of_true (settled (done_cases tracks step) (by decide)) id
  | carry carriedTo now eventId synced =>
    exact iff_of_true (settled (carry_cases tracks step) (by decide)) id
  | drain note reason keep now eventId =>
    exact iff_of_true (settled (task_drain_cases tracks step) (by decide)) id
  | tick at_ =>
    obtain ⟨r', after, passed⟩ :=
      tracks.sync (show (taskHandler keys taskId).sync (some at_) s = _ from step)
    exact iff_of_true (after.settles_iff.mpr (passed.trans same)) id

end Steps

section Runs

variable {keys : TaskKeys}

/-- A task `create_task` has filed, its creation projected. -/
def TaskCreation.created (c : TaskCreation keys) (clock : Nat) : Replica TaskTable Event where
  live := ((taskHandler keys c.taskId).project clock [c.emit] []).toOption.getD []
  log := [c.emit]

theorem created_tracksTask (c : TaskCreation keys) (at_ clock : Nat) :
    ∃ r q, TracksTask keys c.taskId clock (c.created at_) r q ∧ r.status = q.status := by
  obtain ⟨r, live, pending, own, known⟩ := created_task c at_
  obtain ⟨q, replay, replayed, ownReplay, knownReplay⟩ := created_task c clock
  refine ⟨r, q, ?_, pending.trans replayed.symm⟩
  exact {
    live := by simp only [TaskCreation.created, live]; rfl
    own := own
    known := fun id seen => ⟨_, List.mem_cons_self, (known id seen).symm⟩
    fresh := fun e he => nomatch he
    logged := List.nil_suffix, nodup := List.nodup_singleton _, pends := .nil, replay := replay
    ownReplay := ownReplay
    knownReplay := fun id seen => ⟨_, List.mem_cons_self, (knownReplay id seen).symm⟩ }

/-- Throughout a run a task's events settle it as its row says, exactly when no step starts a task
that has settled. -/
theorem settles_iff_not_revives (c : TaskCreation keys) (workOrderId : String)
    (at_ pass clock : Nat) (ls : List TaskOperation) :
    (∀ x ∈ (taskWriters keys workOrderId c.taskId).transitions (c.created at_) ls,
      Settles keys c.taskId pass clock x.after) ↔
    ∀ x ∈ (taskWriters keys workOrderId c.taskId).transitions (c.created at_) ls,
      ¬Revives c.taskId x.before x.label := by
  obtain ⟨r, q, tracks, same⟩ := created_tracksTask c at_ clock
  exact (taskWriters keys workOrderId c.taskId).forall_after_iff_forall_guard
    (J := fun s => ∃ r q, TracksTask keys c.taskId clock s r q)
    (P := Settles keys c.taskId pass clock) (C := fun s l => ¬Revives c.taskId s l)
    (fun _ l _ hs step => task_step_tracked c.named l hs step)
    (fun _ l _ hs settles step => step_settles_iff c.named l hs settles step)
    ⟨r, q, tracks⟩ (tracks.settles_iff.mpr same) ls

def anyKeys : TaskKeys where
  resolveProjectId := fun p _ => p
  references := fun _ _ => true

def attached : TaskCreation anyKeys where
  taskId := "t-1"
  named := by decide
  workOrderId := "wo-1"
  projectId := "p-1"
  registered := ⟨"p-1", rfl, rfl⟩
  title := "Add missing adversarial tests"
  description := "[gap-attached: wo-1::missing-tests]"
  acceptanceCriteria := none
  eventId := "e-1"
  now := ⟨"2026-09-24T10:00:00+00:00", 1⟩

theorem drained_task_restarted :
    ∃ t, (taskWriters anyKeys "wo-1" "t-1").run (attached.created 0)
        [.drain "[DRAINED]" "drained as a duplicate attachment" "t-0"
          ⟨"2026-09-24T10:00:01+00:00", 2⟩ "e-2", .tick 3,
          .start ⟨"2026-09-24T10:00:02+00:00", 4⟩ "e-3", .tick 5] = some t ∧
      ¬Settles anyKeys "t-1" 0 0 t := by
  refine ⟨_, rfl, ?_⟩
  rintro ⟨t, t', live, replay, same⟩
  cases live
  cases replay
  cases same

end Runs

end DreamStudio.WorkOrders
