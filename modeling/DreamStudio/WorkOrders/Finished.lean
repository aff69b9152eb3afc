import DreamStudio.Library.Agree
import DreamStudio.WorkOrders.Close
import DreamStudio.WorkOrders.Tasks

namespace DreamStudio.WorkOrders

open Library Projections

def taskStatusText : TaskStatus → String
  | .pending => "pending"
  | .inProgress => "in_progress"
  | .complete => "complete"
  | .done => "done"
  | .cancelled => "cancelled"
  | .deleted => "deleted"

/-- `business_tasks` under its primary key. -/
structure TaskAuthority where
  rows : TaskTable
  unique : Table.Unique TaskRow.key rows

/-- What the code around the task table gives one call: its clock, the id of the envelope it builds,
the write to the spool, the clock of the projection pass where one lands, how the pass ends, the
connection that reads the status back, and the lookup of the event among the dead letters and the
retries. -/
structure DoneWorld where
  now : Now
  envelope : Except String String
  written : Except String Unit
  pass : Option Nat
  synced : Except String Unit
  reread : Except String Unit
  stalled : Except String Bool

structure DoneReply where
  ok : Bool
  taskId : String
  workOrderId : String
  title : Text
  status : String
  tasksRemaining : Int
  taskIndex : Int
  eventWriteError : Option String
  projectionError : Option String
  readBackError : Option String
  readModelPending : Bool
  note : Option String
  error : Option String
  allTasksComplete : Bool
  suggestedAction : Option String

def caught {α : Type} : Except String α → Option String
  | .ok _ => none
  | .error exc => some (pyTake 200 exc)

section Source

variable (rows : TaskTable) (workOrderId taskId : String) (keys : TaskKeys) (wd : DoneWorld)

def tasksRemaining (status : TaskStatus) : Int :=
  rows.countP (fun r => r.workOrderId = some workOrderId ∧ r.status ∉ TaskStatus.settled) -
    if status.isOpen then 1 else 0

/-- `created_at <= …`, where NULL is not below anything. -/
def notLater : Text → Text → Bool
  | some a, some b => a ≤ b
  | _, _ => false

def taskIndex (createdAt : Text) : Int :=
  rows.countP (fun r => r.workOrderId = some workOrderId ∧ notLater r.createdAt createdAt) - 1

def completedEvent (r : TaskRow) (eventId : String) : Event :=
  emitTask r .completed workOrderId
    [("task_id", .str taskId), ("work_order_id", .str workOrderId),
      ("tasks_remaining", .int (tasksRemaining rows workOrderId r.status))] eventId wd.now

def DoneWorld.emitted (r : TaskRow) : Except String Event := do
  let eventId ← wd.envelope
  wd.written
  return completedEvent rows workOrderId taskId wd r eventId

/-- The rows that are read back. An event the projection fails on is queued for a retry or left a
dead letter. -/
def DoneWorld.projected (emitted : Except String Event) : TaskTable :=
  match wd.pass, emitted with
  | some clock, .ok e =>
    match handleTask keys e clock rows with
    | .ok (_, after) => after
    | .error _ => rows
  | _, _ => rows

def DoneWorld.observed (after : TaskTable) : Option TaskStatus :=
  match wd.reread with
  | .ok _ => (Table.lookup TaskRow.key taskId after).map (·.status)
  | .error _ => none

def DoneWorld.projectionStalled : Bool :=
  match wd.reread, wd.envelope, wd.stalled with
  | .ok _, .ok eventId, .ok stalled => eventId ≠ "" && stalled
  | _, _, _ => false

def DoneWorld.readBackError : Option String :=
  match wd.reread, wd.envelope with
  | .error exc, _ => some (pyTake 200 exc)
  | .ok _, .ok eventId => if eventId = "" then none else caught wd.stalled
  | .ok _, .error _ => none

def doneReply (r : TaskRow) : DoneReply :=
  let remaining := tasksRemaining rows workOrderId r.status
  let emitted := wd.emitted rows workOrderId taskId r
  let observed := wd.observed taskId (wd.projected rows keys emitted)
  let recorded := observed.any (· ∈ [TaskStatus.complete, .done])
  let ok := emitted.isOk && (recorded || !wd.projectionStalled)
  let complete := ok && remaining = 0
  let held := (observed.map taskStatusText).getD "no row"
  { ok := ok
    taskId := taskId
    workOrderId := workOrderId
    title := r.title
    status := (observed.map taskStatusText).getD "unknown"
    tasksRemaining := remaining
    taskIndex := taskIndex rows workOrderId r.createdAt
    eventWriteError := caught emitted
    projectionError := caught wd.synced
    readBackError := wd.readBackError
    readModelPending := !recorded && ok
    note :=
      if !recorded && ok then
        some ("task.completed was recorded, but business_tasks still reports " ++ held ++
          ". The read model will " ++
          "catch up on the next projection pass; `ds work-order tasks` reflects it only once it does.")
      else none
    error :=
      if ok then none
      else
        some ("Task " ++ taskId ++ " was NOT recorded as done: business_tasks reports " ++
          held ++ "." ++
          if wd.projectionStalled then
            " Its task.completed event is stuck in the projection -- see `ds projection dead-letter list`."
          else " The task.completed event could not be written.")
    allTasksComplete := complete
    suggestedAction :=
      if complete then some ("All tasks complete. Close work order: ds work-order close " ++
        workOrderId) else none }

/-- `mark_task_done`: its reply, and the event it left on the spool. -/
def markTaskDone : Except String (DoneReply × Option Event) :=
  match Table.lookup TaskRow.key taskId rows with
  | none => .error ("Task not found: " ++ taskId)
  | some r =>
    if r.workOrderId ≠ some workOrderId then
      .error ("Task " ++ taskId ++ " does not belong to work order " ++ workOrderId)
    else .ok (doneReply rows workOrderId taskId keys wd r,
      (wd.emitted rows workOrderId taskId r).toOption)

def taskOfRow (r : TaskRow) : WorkOrderTask where
  taskId := r.taskId.getD ""
  title := r.title.getD ""
  description := r.description.getD ""
  status := taskStatusText r.status
  acceptanceCriteria := r.acceptanceCriteria.getD ""

/-- `_read_wo_tasks`. -/
def readWoTasks : List WorkOrderTask :=
  ((rows.filter (·.workOrderId = some workOrderId)).insertionSort fun r s =>
    r.createdAt.getD "" ≤ s.createdAt.getD "").map taskOfRow

end Source

section Agreement

variable (py : Stdlib) (ev : Evidence)

def Evidence.carried : List String :=
  match ev.carriedTaskIds py with
  | .ok carried => carried
  | .error _ => []

/-- The other tasks of the work order. -/
def TaskAuthority.Beside (db : TaskAuthority) (workOrderId taskId : String) (r : TaskRow) : Prop :=
  r ∈ db.rows ∧ r.workOrderId = some workOrderId ∧ r.taskId ≠ some taskId

def Evidence.Carries (r : TaskRow) : Prop := r.taskId.getD "" ∈ ev.carried py

def Hanging (r : TaskRow) : Prop := r.status ∉ [TaskStatus.complete, .cancelled] ∧ ¬ev.Carries py r

theorem mem_uncarried {task : WorkOrderTask} :
    task ∈ ev.uncarried py ↔ task ∈ ev.tasks ∧ task.taskId ∉ ev.carried py := by
  rw [Evidence.uncarried, Evidence.carried]
  cases ev.carriedTaskIds py with
  | ok carried => simp only [List.mem_filter, decide_eq_true_eq]
  | error _ => simp only [List.not_mem_nil, not_false_iff, and_true]

theorem checkTasksDone_eq_nil : checkTasksDone py ev = [] ↔
    ∀ task ∈ ev.uncarried py, task.status ∈ ["complete", "cancelled"] := by
  have silent : checkTasksDone py ev = [] ↔
      ((ev.uncarried py).filter fun t => t.status ∉ ["complete", "cancelled"]) = [] := by
    rw [checkTasksDone]
    split
    next none => exact iff_of_true rfl none
    next some_ => exact iff_of_false (List.cons_ne_nil _ _) some_
  rw [silent, List.filter_eq_nil_iff]
  apply forall₂_congr
  intro task _
  rw [decide_eq_true_eq, not_not]

theorem taskStatusText_ended {status : TaskStatus} :
    taskStatusText status ∈ ["complete", "cancelled"] ↔
    status ∈ [TaskStatus.complete, .cancelled] := by
  cases status <;> decide

theorem mem_readWoTasks {rows : TaskTable} {workOrderId : String} {task : WorkOrderTask} :
    task ∈ readWoTasks rows workOrderId ↔
      ∃ r ∈ rows, r.workOrderId = some workOrderId ∧ taskOfRow r = task := by
  simp only [readWoTasks, List.mem_map, List.mem_insertionSort, List.mem_filter,
    decide_eq_true_eq, and_assoc]

theorem checkTasksDone_rows {rows : TaskTable} :
    checkTasksDone py { ev with tasks := readWoTasks rows ev.workOrderId } = [] ↔
      ∀ r ∈ rows, r.workOrderId = some ev.workOrderId → ¬Hanging py ev r := by
  have same : Evidence.carried py { ev with tasks := readWoTasks rows ev.workOrderId } =
    ev.carried py := rfl
  simp only [checkTasksDone_eq_nil, mem_uncarried, mem_readWoTasks, same, and_imp,
    forall_exists_index]
  constructor
  · intro each r member own hanging
    exact hanging.1 (taskStatusText_ended.mp (each _ r member own rfl hanging.2))
  · rintro none task r member own rfl free
    exact taskStatusText_ended.mpr (not_not.mp fun open_ => none r member own ⟨open_, free⟩)

theorem tasksRemaining_eq_zero (db : TaskAuthority) {workOrderId taskId : String} {r : TaskRow}
    (member : r ∈ db.rows) (own : r.taskId = some taskId)
    (filed : r.workOrderId = some workOrderId) :
    tasksRemaining db.rows workOrderId r.status = 0 ↔ ∀ s, db.Beside workOrderId taskId s →
      ¬s.status.isOpen := by
  have here : (decide (r.workOrderId = some workOrderId ∧ r.status ∉ TaskStatus.settled)) =
      r.status.isOpen := by
    simp only [filed, true_and, TaskStatus.isOpen]
  rw [tasksRemaining, Table.countP_apart db.unique member own, here, Int.natCast_add]
  have cancels : (((if r.status.isOpen = true then 1 else 0 : Nat) : Int)) =
      if r.status.isOpen = true then 1 else 0 := by
    split <;> rfl
  rw [cancels, Int.add_sub_cancel, Int.natCast_eq_zero, List.countP_eq_zero]
  simp only [TaskAuthority.Beside, TaskStatus.isOpen, Bool.and_eq_true, decide_eq_true_eq, not_and,
    and_imp, ne_eq]
  constructor
  · intro each s inRows same other open_
    exact each s inRows same open_ other
  · intro each s inRows same open_ other
    exact each s inRows same other open_

section Projected

variable {keys : TaskKeys} {rows : TaskTable} {taskId : String} {r : TaskRow}

theorem insert_held {row : TaskRow}
    (held : rows.any (fun r => Table.SameKey TaskRow.key r row) = true) :
    rows.insert keys row = .ok rows := by
  rw [TaskTable.insert, Table.insertOrIgnore, held, Bool.not_true, Bool.and_false, Bool.false_and,
    if_neg Bool.false_ne_true, if_neg Bool.false_ne_true]

theorem ensureSkeleton_held (member : r ∈ rows) (own : r.taskId = some taskId)
    (workOrderId projectId : Text) (now : Nat) :
    rows.ensureSkeleton keys (some taskId) workOrderId projectId now = .ok rows := by
  apply insert_held
  apply List.any_eq_true.mpr
  exact ⟨r, member, decide_eq_true ⟨own, own.trans_ne (Option.some_ne_none _)⟩⟩

theorem completed_projected {e : Event} {clock : Nat} {after : TaskTable} (member : r ∈ rows)
    (own : r.taskId = some taskId) (subject : e.taskId = some taskId)
    (type : e.eventType = TaskEventType.completed.text)
    (projected : handleTask keys e clock rows = .ok (1, after)) :
    after = rows.handleCompleted (some taskId) e.eventId clock := by
  rw [handleTask] at projected
  split at projected
  next => cases projected
  next =>
    split at projected
    next => cases projected
    next =>
      rw [type, TaskEventType.ofText_text, subject] at projected
      simp only [ensureSkeleton_held member own] at projected
      exact (congrArg Prod.snd (Except.ok.inj projected)).symm

theorem mem_handleCompleted {eventId : String} {clock : Nat} {s : TaskRow} :
    s ∈ rows.handleCompleted (some taskId) eventId clock ↔
      (∃ q ∈ rows, q.taskId = some taskId ∧
        { q with status := .complete, updatedAt := clock, lastEventId := some eventId } = s) ∨
      (s ∈ rows ∧ s.taskId ≠ some taskId) := by
  rw [TaskTable.handleCompleted, TaskTable.handleEnded, TaskTable.set, Table.mem_update]
  simp only [ne_eq, reduceCtorEq, not_false_iff, and_true, decide_eq_true_eq]
  constructor
  · rintro ⟨q, inRows, rfl⟩
    split
    next own => exact Or.inl ⟨q, inRows, own, rfl⟩
    next other => exact Or.inr ⟨inRows, other⟩
  · rintro (⟨q, inRows, own, rfl⟩ | ⟨inRows, other⟩)
    · exact ⟨q, inRows, if_pos own⟩
    · exact ⟨s, inRows, if_neg other⟩

theorem checkTasksDone_completed (db : TaskAuthority) (eventId : String) (clock : Nat) :
    checkTasksDone py
        { ev with
          tasks := readWoTasks (db.rows.handleCompleted (some taskId) eventId clock)
            ev.workOrderId } = [] ↔
      ∀ s, db.Beside ev.workOrderId taskId s → ¬Hanging py ev s := by
  rw [checkTasksDone_rows]
  constructor
  · rintro none s ⟨inRows, filed, other⟩
    exact none s (mem_handleCompleted.mpr (Or.inr ⟨inRows, other⟩)) filed
  · intro none s inAfter filed
    cases mem_handleCompleted.mp inAfter with
    | inl completed =>
      obtain ⟨q, -, -, rfl⟩ := completed
      exact fun hanging => hanging.1 List.mem_cons_self
    | inr kept => exact none s ⟨kept.1, filed, kept.2⟩

end Projected

theorem hanging_open {r : TaskRow} (open_ : r.status.isOpen = true) :
    Hanging py ev r ↔ ¬ev.Carries py r := by
  apply and_iff_right
  intro ended
  revert open_ ended
  cases r.status <;> decide

theorem hanging_settled {r : TaskRow} (settled : ¬r.status.isOpen = true) :
    Hanging py ev r ↔ r.status ∈ [TaskStatus.done, .deleted] ∧ ¬ev.Carries py r := by
  apply and_congr_left'
  revert settled
  cases r.status <;> decide

theorem doneReply_complete {rows : TaskTable} {workOrderId taskId : String} {keys : TaskKeys}
    {wd : DoneWorld} {r : TaskRow}
    (succeeded : (doneReply rows workOrderId taskId keys wd r).ok = true) :
    (doneReply rows workOrderId taskId keys wd r).allTasksComplete = true ↔
      tasksRemaining rows workOrderId r.status = 0 := by
  have split : (doneReply rows workOrderId taskId keys wd r).allTasksComplete =
      ((doneReply rows workOrderId taskId keys wd r).ok &&
        tasksRemaining rows workOrderId r.status = 0) := rfl
  rw [split, succeeded, Bool.true_and, decide_eq_true_eq]

theorem markTaskDone_cases {rows : TaskTable} {workOrderId taskId : String} {keys : TaskKeys}
    {wd : DoneWorld} {reply : DoneReply} {e : Event}
    (marked : markTaskDone rows workOrderId taskId keys wd = .ok (reply, some e)) :
    ∃ r ∈ rows, r.taskId = some taskId ∧ r.workOrderId = some workOrderId ∧
      reply = doneReply rows workOrderId taskId keys wd r ∧
      ∃ eventId, e = completedEvent rows workOrderId taskId wd r eventId := by
  rw [markTaskDone] at marked
  split at marked
  next => cases marked
  next r found =>
    obtain ⟨member, own⟩ := Table.lookup_key found
    split at marked
    next => cases marked
    next filed =>
      obtain ⟨same, spooled⟩ := Prod.mk.inj (Except.ok.inj marked)
      have built : ∃ eventId, e = completedEvent rows workOrderId taskId wd r eventId := by
        rw [DoneWorld.emitted] at spooled
        cases built : wd.envelope with
        | error _ =>
          rw [built] at spooled
          cases spooled
        | ok eventId =>
          cases written : wd.written with
          | error _ =>
            rw [built, written] at spooled
            cases spooled
          | ok _ =>
            rw [built, written] at spooled
            exact ⟨eventId, (Option.some.inj spooled).symm⟩
      exact ⟨r, member, own, not_not.mp filed, same.symm, built⟩

end Agreement

/-- A task-done that succeeded and the close gate after it agree exactly where an open task is left
to both, or where carried tasks that are still open and uncarried tasks in `done` or `deleted` are
both there or both not. -/
theorem allTasksComplete_agrees_iff (py : Stdlib) (keys : TaskKeys) (db : TaskAuthority)
    (ev : Evidence) (taskId : String) (wd : DoneWorld) (clock : Nat) {reply : DoneReply} {e : Event}
    {after : TaskTable}
    (marked : markTaskDone db.rows ev.workOrderId taskId keys wd = .ok (reply, some e))
    (succeeded : reply.ok = true) (projected : handleTask keys e clock db.rows = .ok (1, after)) :
    (reply.allTasksComplete = true ↔
      checkTasksDone py { ev with tasks := readWoTasks after ev.workOrderId } = []) ↔
    (∃ r, db.Beside ev.workOrderId taskId r ∧ r.status.isOpen = true ∧ ¬ev.Carries py r) ∨
      ((∃ r, db.Beside ev.workOrderId taskId r ∧ r.status.isOpen = true ∧ ev.Carries py r) ↔
        ∃ r, db.Beside ev.workOrderId taskId r ∧ r.status ∈ [TaskStatus.done, .deleted] ∧
          ¬ev.Carries py r) := by
  obtain ⟨r, member, own, filed, rfl, eventId, rfl⟩ := markTaskDone_cases marked
  rw [completed_projected member own own rfl projected, doneReply_complete succeeded,
    tasksRemaining_eq_zero db member own filed, checkTasksDone_completed, none_iff_none_iff]
  apply or_congr
  · apply exists_congr
    intro s
    apply and_congr_right
    intro _
    apply and_congr_right
    exact hanging_open py ev
  · apply iff_congr
    · apply exists_congr
      intro s
      apply and_congr_right
      intro _
      apply and_congr_right
      intro open_
      rw [hanging_open py ev open_, not_not]
    · apply exists_congr
      intro s
      apply and_congr_right
      intro _
      constructor
      · rintro ⟨hanging, settled⟩
        exact (hanging_settled py ev settled).mp hanging
      · rintro ⟨ended, free⟩
        have settled : ¬s.status.isOpen = true := by
          revert ended
          cases s.status <;> decide
        exact ⟨(hanging_settled py ev settled).mpr ⟨ended, free⟩, settled⟩

section Examples

def namedRow (taskId : String) (status : TaskStatus) : TaskRow where
  taskId := taskId
  workOrderId := "wo"
  projectId := "p"
  title := "Ship"
  status := status
  createdAt := "2026-09-23"
  updatedAt := 0

def twoTasks (other : TaskStatus) : TaskAuthority where
  rows := [namedRow "t1" .pending, namedRow "t2" other]
  unique := by cases other <;> decide

def openKeys : TaskKeys where
  resolveProjectId p _ := p
  references _ _ := true

def quietDone : DoneWorld where
  now := ⟨"2026-09-24", 1⟩
  envelope := .ok "e1"
  written := .ok ()
  pass := some 2
  synced := .ok ()
  reread := .ok ()
  stalled := .ok false

def unrecorded : Evidence where
  workOrderId := "wo"
  createdAt := none
  tasks := []
  stored _ _ := none
  file _ := none
  lockedBrief := false
  staleBrief := none
  violations := []

theorem quiet_marked (other : TaskStatus) :
    markTaskDone (twoTasks other).rows "wo" "t1" openKeys quietDone =
    .ok (doneReply (twoTasks other).rows "wo" "t1" openKeys quietDone (namedRow "t1" .pending),
      some (completedEvent (twoTasks other).rows "wo" "t1" quietDone
        (namedRow "t1" .pending) "e1")) := rfl

theorem quiet_projected (other : TaskStatus) :
    handleTask openKeys (completedEvent (twoTasks other).rows "wo" "t1" quietDone
      (namedRow "t1" .pending) "e1") 2
        (twoTasks other).rows =
      .ok (1, (twoTasks other).rows.handleCompleted (some "t1") "e1" 2) := rfl

theorem quiet_ok (other : TaskStatus) :
    (doneReply (twoTasks other).rows "wo" "t1" openKeys quietDone (namedRow "t1" .pending)).ok =
      true := rfl

end Examples

/-- With the other task complete both call the work order finished. -/
theorem allTasksComplete_agrees_complete :
    ((doneReply (twoTasks .complete).rows "wo" "t1" openKeys quietDone
      (namedRow "t1" .pending)).allTasksComplete = true ↔
      checkTasksDone bareStdlib { unrecorded with
        tasks := readWoTasks ((twoTasks .complete).rows.handleCompleted (some "t1") "e1" 2) "wo" } =
          []) ↔
    (∃ r, (twoTasks .complete).Beside "wo" "t1" r ∧ r.status.isOpen = true ∧
      ¬unrecorded.Carries bareStdlib r) ∨
      ((∃ r, (twoTasks .complete).Beside "wo" "t1" r ∧ r.status.isOpen = true ∧
        unrecorded.Carries bareStdlib r) ↔
        ∃ r, (twoTasks .complete).Beside "wo" "t1" r ∧ r.status ∈ [TaskStatus.done, .deleted] ∧
          ¬unrecorded.Carries bareStdlib r) :=
  allTasksComplete_agrees_iff bareStdlib openKeys (twoTasks .complete) unrecorded "t1" quietDone 2
    (quiet_marked .complete) (quiet_ok .complete) (quiet_projected .complete)

/-- A task in `done` is settled where the other one is completed, and hangs at the close. -/
theorem done_hangs : ¬∀ (py : Stdlib) (keys : TaskKeys) (db : TaskAuthority) (ev : Evidence)
    (taskId : String) (wd : DoneWorld) (clock : Nat) (reply : DoneReply) (e : Event)
    (after : TaskTable),
    markTaskDone db.rows ev.workOrderId taskId keys wd = .ok (reply, some e) → reply.ok = true →
    handleTask keys e clock db.rows = .ok (1, after) →
    (reply.allTasksComplete = true ↔
      checkTasksDone py { ev with tasks := readWoTasks after ev.workOrderId } = []) := by
  intro agree
  have same := agree bareStdlib openKeys (twoTasks .done) unrecorded "t1" quietDone 2
    _ _ _ (quiet_marked .done)
    (quiet_ok .done) (quiet_projected .done)
  have reported :
      (doneReply (twoTasks .done).rows "wo" "t1" openKeys quietDone
      (namedRow "t1" .pending)).allTasksComplete =
      true := rfl
  have passes := same.mp reported
  cases passes

end DreamStudio.WorkOrders
