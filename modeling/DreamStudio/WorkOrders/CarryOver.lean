import DreamStudio.Library.Machine
import DreamStudio.WorkOrders.Criteria
import DreamStudio.WorkOrders.Tasks

namespace DreamStudio.WorkOrders

open Library Projections

/-- The columns of `business_work_orders` that a carry-over reads. -/
structure WorkHead where
  workOrderId : String
  projectId : String
  milestoneId : Option String
  workOrderType : Option String
  title : String

structure BoardTask where
  taskId : String
  workOrderId : String
  projectId : String
  title : String
  description : Option String
  acceptanceCriteria : Option String
  status : TaskStatus

structure Moved where
  fromTaskId : String
  toTaskId : String
  title : String

structure CarryRecord where
  reason : String
  carriedTo : String
  carriedFrom : String
  moved : List Moved
  recordedAt : String

/-- What was done with one task: re-created under another work order, then deleted from its own. -/
structure Move where
  workOrderId : String
  fromTask : String
  toTask : String

/-- The rows and the split records. `moves` is not stored; it is the history the claims about many
calls are made of. -/
structure TaskBoard where
  works : List WorkHead
  tasks : List BoardTask
  records : Dict String CarryRecord
  moves : List Move

structure CarryCall where
  workOrderId : String
  taskIds : List String
  reason : String
  title : String

/-- What `create_work_order` and `create_task` answer. -/
inductive CreateOutcome
  | made (id : String)
  | refused (reply : String)
  | raised (error : String)

def CreateOutcome.id? : CreateOutcome → Option String
  | made id => some id
  | _ => none

/-- What the calls inside a carry-over come to: `newTasks` in the order of the task ids, an artifact
write that raises, or that the schema has no table for. -/
structure Inner where
  now : String
  newWorkOrder : CreateOutcome
  newTasks : List CreateOutcome
  storedFrom : Except String Bool
  storedTo : Except String Bool

inductive CarryReply
  | refused (error : String)
  | raised (error : String)
  | partlyMoved (error partialWorkOrder : String)
  | unrecorded (error carriedTo : String) (moved : List Moved)
  | carried (workOrderId carriedTo : String) (moved : List Moved) (remainingTasks : Nat)
      (nextCommand : String)

structure Scope where
  work : WorkHead
  openTasks : List BoardTask
  total : Nat

section Source

variable (b : TaskBoard) (call : CarryCall) (inner : Inner)

/-- `_open_tasks`. -/
def TaskBoard.openTasks (workOrderId : String) : List BoardTask :=
  b.tasks.filter fun t => t.workOrderId = workOrderId ∧ t.status ∉ uncarried

def TaskBoard.carriedTaskIds (workOrderId : String) : List String :=
  match Dict.get b.records workOrderId with
  | none => []
  | some record => (record.moved.map (·.fromTaskId)).filter (· ≠ "")

/-- `_recovery_advice`. -/
def recoveryAdvice (workOrderId newWoId : String) (storedFrom : Bool) (detail : String) : String :=
  let head := "The tasks were moved to " ++ newWoId ++ " but " ++ detail ++
    ". The close gate reads " ++
    "the carry-over record to exempt them, so " ++ workOrderId ++
      " would refuse to close with the " ++
    "work already gone."
  if storedFrom then
    head ++ " The record DID land on " ++ workOrderId ++
      ", so its close is not blocked -- what is " ++
      "missing is the back-link on " ++ newWoId ++ ", which leaves that work order without " ++
      "provenance. Record it with `ds work-order add-task " ++ newWoId ++
        " --title \"...\"` context, " ++
      "or re-run once the authority accepts writes and pass the same task ids; the original side is " ++
      "an upsert and will not duplicate."
  else
    head ++ " DO NOT re-run this command: the tasks are already deleted from " ++ workOrderId ++
      ", so a re-run either reports them as not-open or creates a second work order and duplicates " ++
      "them. The tasks exist on " ++ newWoId ++ " and that work order is usable now. To close " ++
      workOrderId ++
        ", either finish the remaining tasks and let tasks_done pass on its own, or " ++
      "record why with `ds work-order close " ++ workOrderId ++
        " --accept-structure \"<reason>\"` " ++
      "once the authority is writable."

def checkCarryOver : Except String Scope :=
  if (pyStrip call.reason).toList.length < 20 then
    .error
      ("A carry-over needs a reason a later reader can weigh: what changed about the scope, or " ++
      "how the work order was mis-scoped when authored. Carry-over is not for moving work you would " ++
      "rather do later — switch work orders instead (`ds work-order next`).")
  else if call.taskIds = [] then .error "No tasks named to carry over."
  else
    match b.works.find? (·.workOrderId = call.workOrderId) with
    | none => .error ("Work order not found: " ++ call.workOrderId)
    | some work =>
      let openTasks := b.openTasks call.workOrderId
      let total := (b.tasks.filter (·.workOrderId = call.workOrderId)).length
      let unknown := call.taskIds.filter (· ∉ openTasks.map (·.taskId))
      if unknown ≠ [] then
        .error ("Not open tasks on this work order: " ++ ", ".intercalate unknown ++
          ". A completed task cannot be carried — it already happened here.")
      else if total ≤ call.taskIds.length then
        .error ("This would carry away all " ++ toString total ++ " task(s), leaving nothing to " ++
          "close at. That is not a re-scope, it is an abandonment — and closing the original " ++
          "afterwards would assert that work happened here when none did. Re-title this work order " ++
          "instead, or block it with a reason (`ds work-order block " ++ call.workOrderId ++
          " --reason ...`).")
      else .ok ⟨work, openTasks, total⟩

/-- A row re-created under the new work order, and `_emit_task_deleted` on the old one, both
projected. -/
def TaskBoard.move (row : BoardTask) (newWoId newId : String) : TaskBoard :=
  let made : BoardTask :=
    { row with
      taskId := newId, workOrderId := newWoId, description := some (row.description.getD "")
      status := .pending }
  { b with
    tasks :=
      (b.tasks.map fun t => if t.taskId = row.taskId then { t with status := .deleted } else t) ++
      [made]
    moves := b.moves ++ [⟨row.workOrderId, row.taskId, newId⟩] }

def moveTasks (openTasks : List BoardTask) (newWoId : String) :
    List (String × CreateOutcome) → TaskBoard → List Moved →
      Option CarryReply × TaskBoard × List Moved
  | [], b, moved => (none, b, moved)
  | (taskId, creation) :: rest, b, moved =>
    match openTasks.find? (·.taskId = taskId) with
    | none => (some (.raised ("'" ++ taskId ++ "'")), b, moved)
    | some row =>
      match creation with
      | .raised error => (some (.raised error), b, moved)
      | .refused made =>
        (some
          (.partlyMoved ("Could not re-create task " ++ taskId ++ " on " ++ newWoId ++ ": " ++ made)
          newWoId), b, moved)
      | .made newId =>
        moveTasks openTasks newWoId rest (b.move row newWoId newId)
          (moved ++ [⟨taskId, newId, row.title⟩])

def TaskBoard.record (workOrderId : String) (record : CarryRecord) : TaskBoard :=
  { b with records := Dict.set b.records workOrderId record }

def recordSplit (newWoId : String) (record : CarryRecord) :
    Except String (Bool × Bool) × TaskBoard :=
  match inner.storedFrom with
  | .error exc => (.error exc, b)
  | .ok storedFrom =>
    let b := if storedFrom then b.record call.workOrderId record else b
    match inner.storedTo with
    | .error exc => (.error exc, b)
    | .ok storedTo => (.ok (storedFrom, storedTo), if storedTo then b.record newWoId record else b)

def splitReply (newWoId : String) (moved : List Moved) (remaining : Nat) :
    Except String (Bool × Bool) → CarryReply
  | .error exc =>
    .unrecorded (recoveryAdvice call.workOrderId newWoId false
      ("the split could not be recorded (" ++ exc ++ ")")) newWoId moved
  | .ok (true, true) =>
    .carried call.workOrderId newWoId moved remaining ("ds work-order close " ++ call.workOrderId)
  | .ok (storedFrom, _) =>
    .unrecorded (recoveryAdvice call.workOrderId newWoId storedFrom
      (if storedFrom then "the record did not land on the new work order"
       else "this authority's schema predates the artifact table")) newWoId moved

/-- `carry_over`. -/
def carryOver : CarryReply × TaskBoard :=
  match checkCarryOver b call with
  | .error error => (.refused error, b)
  | .ok scope =>
    match inner.newWorkOrder with
    | .refused reply => (.refused reply, b)
    | .raised error => (.raised error, b)
    | .made newWoId =>
      let head : WorkHead := { scope.work with workOrderId := newWoId, title := call.title }
      let made := { b with works := b.works ++ [head] }
      match moveTasks scope.openTasks newWoId (call.taskIds.zip inner.newTasks) made [] with
      | (some reply, b, _) => (reply, b)
      | (none, b, moved) =>
        let record : CarryRecord :=
          { reason := pyStrip call.reason, carriedTo := newWoId, carriedFrom := call.workOrderId
            moved := moved, recordedAt := inner.now }
        let (wrote, b) := recordSplit b call inner newWoId record
        (splitReply call newWoId moved (scope.total - call.taskIds.length) wrote, b)

/-- `mark_task_done`, with its event projected. -/
def TaskBoard.complete (workOrderId taskId : String) : TaskBoard :=
  { b with
    tasks := b.tasks.map fun t =>
      if t.taskId = taskId ∧ t.workOrderId = workOrderId then
        { t with status := .complete } else t }

/-- `uuid4` draws ids that nothing has. -/
def Inner.Fresh (b : TaskBoard) (call : CarryCall) (inner : Inner) : Prop :=
  inner.newTasks.length = call.taskIds.length ∧
    (inner.newTasks.filterMap (·.id?)).Nodup ∧
      (∀ id ∈ inner.newTasks.filterMap (·.id?), id ≠ "" ∧ ∀ t ∈ b.tasks, t.taskId ≠ id) ∧
        ∀ id ∈ inner.newWorkOrder.id?.toList,
          (∀ w ∈ b.works, w.workOrderId ≠ id) ∧ (∀ t ∈ b.tasks, t.workOrderId ≠ id) ∧
            Dict.get b.records id = none

end Source

instance (b : TaskBoard) (call : CarryCall) (inner : Inner) : Decidable (inner.Fresh b call) := by
  unfold Inner.Fresh
  infer_instance

section Moving

variable {b : TaskBoard} {row : BoardTask} {newWoId newId : String}

def TaskBoard.places (b : TaskBoard) : List (String × String) :=
  b.tasks.map fun t => (t.taskId, t.workOrderId)

def TaskBoard.moveAll (b : TaskBoard) (newWoId : String) (rows : List (BoardTask × String)) :
    TaskBoard :=
  rows.foldl (fun b r => b.move r.1 newWoId r.2) b

theorem places_move : (b.move row newWoId newId).places = b.places ++ [(newId, newWoId)] := by
  simp only [TaskBoard.places, TaskBoard.move, List.map_append, List.map_map,
    List.map_cons, List.map_nil]
  congr 1
  refine List.map_congr_left fun t _ => ?_
  dsimp only [Function.comp]
  split <;> rfl

theorem places_complete (workOrderId taskId : String) :
    (b.complete workOrderId taskId).places = b.places := by
  simp only [TaskBoard.places, TaskBoard.complete, List.map_map]
  refine List.map_congr_left fun t _ => ?_
  dsimp only [Function.comp]
  split <;> rfl

theorem places_moveAll (rows : List (BoardTask × String)) :
    (b.moveAll newWoId rows).places = b.places ++ rows.map fun r => (r.2, newWoId) := by
  induction rows generalizing b with
  | nil => simp [TaskBoard.moveAll]
  | cons r rows ih =>
    have step : b.moveAll newWoId (r :: rows) = (b.move r.1 newWoId r.2).moveAll newWoId rows := rfl
    rw [step, ih, places_move, List.append_assoc]
    rfl

theorem moves_moveAll (rows : List (BoardTask × String)) :
    (b.moveAll newWoId rows).moves =
      b.moves ++ rows.map fun r => ⟨r.1.workOrderId, r.1.taskId, r.2⟩ := by
  induction rows generalizing b with
  | nil => simp [TaskBoard.moveAll]
  | cons r rows ih =>
    have step : b.moveAll newWoId (r :: rows) = (b.move r.1 newWoId r.2).moveAll newWoId rows := rfl
    rw [step, ih, TaskBoard.move, List.append_assoc]
    rfl

theorem records_moveAll (rows : List (BoardTask × String)) :
    (b.moveAll newWoId rows).records = b.records := by
  induction rows generalizing b with
  | nil => rfl
  | cons r rows ih => exact ih

theorem moveAll_works (works : List WorkHead) (rows : List (BoardTask × String)) :
    ({ b with works := works } : TaskBoard).moveAll newWoId rows =
      { b.moveAll newWoId rows with works := works } := by
  induction rows generalizing b with
  | nil => rfl
  | cons r rows ih => exact ih (b := b.move r.1 newWoId r.2)

def TaskBoard.Ended (b : TaskBoard) (place : String × String) : Prop :=
  ∃ t ∈ b.tasks, (t.taskId, t.workOrderId) = place ∧ t.status ∈ [TaskStatus.deleted, .complete]

theorem TaskBoard.Ended.move {place : String × String} (ended : b.Ended place) :
    (b.move row newWoId newId).Ended place := by
  obtain ⟨t, member, here, status⟩ := ended
  refine ⟨_, List.mem_append_left _ (List.mem_map_of_mem member), ?_, ?_⟩
  · split
    · exact here
    · exact here
  · split
    · simp
    · exact status

theorem ended_of_move (placed : (row.taskId, row.workOrderId) ∈ b.places) :
    (b.move row newWoId newId).Ended (row.taskId, row.workOrderId) := by
  obtain ⟨t, member, here⟩ := List.mem_map.mp placed
  obtain ⟨same, work⟩ := Prod.mk.injEq .. ▸ here
  refine ⟨_, List.mem_append_left _ (List.mem_map_of_mem member), ?_, ?_⟩
  · split
    · exact here
    · exact here
  · simp [same]

theorem TaskBoard.Ended.complete {place : String × String} (ended : b.Ended place)
    (workOrderId taskId : String) : (b.complete workOrderId taskId).Ended place := by
  obtain ⟨t, member, here, status⟩ := ended
  refine ⟨_, List.mem_map_of_mem member, ?_, ?_⟩
  · split
    · exact here
    · exact here
  · split
    · simp
    · exact status

theorem TaskBoard.Ended.moveAll {place : String × String} (rows : List (BoardTask × String))
    (ended : b.Ended place) : (b.moveAll newWoId rows).Ended place := by
  induction rows generalizing b with
  | nil => exact ended
  | cons r rows ih => exact ih ended.move

theorem ended_of_moveAll {rows : List (BoardTask × String)}
    (placed : ∀ r ∈ rows, (r.1.taskId, r.1.workOrderId) ∈ b.places) :
    ∀ r ∈ rows, (b.moveAll newWoId rows).Ended (r.1.taskId, r.1.workOrderId) := by
  induction rows generalizing b with
  | nil => simp
  | cons r rows ih =>
    obtain ⟨here, later⟩ := List.forall_mem_cons.mp placed
    refine List.forall_mem_cons.mpr ⟨(ended_of_move here).moveAll rows, ?_⟩
    refine ih fun r' member => ?_
    rw [places_move]
    exact List.mem_append_left _ (later r' member)

end Moving

end DreamStudio.WorkOrders
