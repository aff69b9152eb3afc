import DreamStudio.Emitters.Tokens
import DreamStudio.Hooks.Enforcement
import DreamStudio.Projections.Task
import Mathlib.Data.String.Basic
import Mathlib.Order.WithBot

namespace DreamStudio.Emitters

open Library Projections WorkOrders Spool Hooks

def inProgress (project : String) (works : WorkOrderTable) : List WorkOrderRow :=
  works.filter fun r => r.projectId = some project ∧ r.status = .inProgress

def hookRow (r : WorkOrderRow) : HookWorkOrder where
  workOrderId := r.workOrderId
  projectId := r.projectId
  milestoneId := r.milestoneId
  title := r.title
  description := r.description
  status := r.status.text
  startedAt := r.startedAt
  sequenceOrder := r.sequenceOrder
  createdAt := r.createdAt

theorem hookRows_unique {works : WorkOrderTable} (unique : Table.Unique WorkOrderRow.key works) :
    Table.Unique HookWorkOrder.key (works.map hookRow) :=
  List.pairwise_map.mpr unique

/-- The authority of the hooks as far as `in_progress_work_order` reads it. -/
def hookAuthority (works : WorkOrderTable) (unique : Table.Unique WorkOrderRow.key works) :
    HookAuthority where
  projects := []
  workOrders := works.map hookRow
  milestones := []
  dependencies := []
  projects_unique := .nil
  workOrders_unique := hookRows_unique unique

/-- The work orders an emitter reads, if the authority can be read. -/
abbrev Readable := Option { works : WorkOrderTable // Table.Unique WorkOrderRow.key works }

/-- `_infer_work_order`: the query has `LIMIT 2`. -/
def inferWorkOrder (projectId : Text) (authority : Readable) : Text :=
  match projectId, authority with
  | some project, some ⟨works, _⟩ =>
    if project = "" then none
    else
      match (inProgress project works).take 2 with
      | [r] => r.workOrderId
      | _ => none
  | _, _ => none

/-- `_resolve_attribution` without an active task; `projectId` is what the marker of the directory
says. -/
def resolveAttribution (projectId : Text) (authority : Readable) : Stamp :=
  match projectId with
  | none => { projectId := none, workOrderId := none, taskId := none, attributionStatus := "orphan" }
  | some project =>
    let inferred := inferWorkOrder (some project) authority
    { projectId := some project, workOrderId := inferred, taskId := none
      attributionStatus := if inferred.any (· ≠ "") then "inferred" else "partial" }

/-- `_resolve_work_order_id`. -/
def resolveWorkOrderId (env : HookEnv) (projectId : Text) (authority : Readable) : Text :=
  match projectId, authority with
  | some project, some ⟨works, unique⟩ =>
    if project = "" then none
    else
      let row := Enforcement.inProgressWorkOrder env (hookAuthority works unique) project none
      (row.bind (·.workOrderId)).filter (· ≠ "")
  | _, _ => none

/-- `in_progress_task_ids`. -/
def inProgressTaskIds (tasks : List TaskRow) (workOrderId : String) : List String :=
  (tasks.filter fun t => t.workOrderId = some workOrderId ∧ t.status = .inProgress).map fun t =>
    t.taskId.getD "None"

/-- `_resolve_task_id`. -/
def resolveTaskId (tasks : List TaskRow) (workOrderId : Text) : Text :=
  match workOrderId with
  | none => none
  | some wo =>
    if wo = "" then none
    else
      match inProgressTaskIds tasks wo with
      | [task] => some task
      | _ => none

/-- What `normalize_stop_token_usage` stamps on every turn. -/
def stopStamp (env : HookEnv) (projectId : Text) (authority : Readable) (tasks : List TaskRow) :
    Stamp :=
  let workOrderId := resolveWorkOrderId env projectId authority
  { projectId := projectId, workOrderId := workOrderId, taskId := resolveTaskId tasks workOrderId
    attributionStatus := if projectId.any (· ≠ "") then "cwd" else "orphan" }

/-- A column in `DESC` order: NULL comes last. -/
def descending (column : Text) : (WithBot String)ᵒᵈ :=
  OrderDual.toDual (match column with
    | none => ⊥
    | some s => (s : WithBot String))

def startOrder (r : WorkOrderRow) : (WithBot String)ᵒᵈ := descending r.startedAt

def Newest (rows : List WorkOrderRow) (r : WorkOrderRow) : Prop := FirstLeast startOrder rows r

theorem notBefore_iff (a b : Text) : notBefore a b = true ↔ descending a ≤ descending b := by
  cases a with
  | none =>
    cases b with
    | none => exact iff_of_true rfl le_rfl
    | some b => exact iff_of_false Bool.false_ne_true (WithBot.not_coe_le_bot b)
  | some a =>
    cases b with
    | none => exact iff_of_true rfl (OrderDual.toDual_le_toDual.mpr bot_le)
    | some b => exact decide_eq_true_iff.trans WithBot.coe_le_coe.symm

theorem text_inProgress (s : WorkOrderStatus) : s.text = "in_progress" ↔ s = .inProgress := by
  cases s <;> decide

theorem inProgressRows_eq (works : WorkOrderTable) (unique : Table.Unique WorkOrderRow.key works)
    (project : String) : (hookAuthority works unique).inProgressRows project =
      ((inProgress project works).insertionSort fun r s => startOrder r ≤ startOrder s).map
        hookRow := by
  have rows :
      (works.map hookRow).filter (fun r => r.projectId = some project ∧ r.status = "in_progress") =
      (inProgress project works).map hookRow := by
    simp only [List.filter_map, inProgress, Function.comp_def, hookRow, text_inProgress]
  rw [HookAuthority.inProgressRows, hookAuthority]
  dsimp only
  rw [rows]
  exact (List.map_insertionSort _ _ hookRow _ fun r _ s _ => (notBefore_iff _ _).symm).symm

theorem resolveWorkOrderId_eq_some_iff (env : HookEnv) (project : String) (given : project ≠ "")
    (works : WorkOrderTable) (unique : Table.Unique WorkOrderRow.key works) (w : String) :
    resolveWorkOrderId env (some project) (some ⟨works, unique⟩) = some w ↔
      w ≠ "" ∧ ∃ r, Newest (inProgress project works) r ∧ r.workOrderId = some w := by
  have row : Enforcement.inProgressWorkOrder env (hookAuthority works unique) project none =
      (firstLeast startOrder (inProgress project works)).map fun r =>
        Enforcement.asDict .mostRecentlyStarted (hookRow r) := by
    rw [Enforcement.inProgressWorkOrder, inProgressRows_eq, ← head?_insertionSort]
    cases (inProgress project works).insertionSort fun r s => startOrder r ≤ startOrder s <;> rfl
  simp only [resolveWorkOrderId, if_neg given, row, Option.filter_eq_some_iff,
    Option.bind_eq_some_iff,
    Option.map_eq_some_iff, firstLeast_eq_some_iff, Newest]
  constructor
  · rintro ⟨⟨_, ⟨r, newest, rfl⟩, id⟩, named⟩
    exact ⟨by simpa using named, r, newest, id⟩
  · rintro ⟨named, r, newest, id⟩
    exact ⟨⟨_, ⟨r, newest, rfl⟩, id⟩, by simpa using named⟩

theorem inferWorkOrder_eq_some_iff (project : String) (given : project ≠ "")
    (works : WorkOrderTable) (unique : Table.Unique WorkOrderRow.key works) (w : String) :
    inferWorkOrder (some project) (some ⟨works, unique⟩) = some w ↔
      ∃ r, inProgress project works = [r] ∧ r.workOrderId = some w := by
  simp only [inferWorkOrder, if_neg given]
  cases inProgress project works with
  | nil => simp
  | cons r rs =>
    cases rs with
    | nil => simp
    | cons s rs => simp

end DreamStudio.Emitters
