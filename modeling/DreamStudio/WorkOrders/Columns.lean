import DreamStudio.Library.Replica
import DreamStudio.WorkOrders.Mutations

namespace DreamStudio.WorkOrders

open Library Projections

@[ext] structure Columns where
  status : WorkOrderStatus
  blockedFromStatus : Option WorkOrderStatus
  blockReason : Text
  priority : Priority
  startedAt : Text
  closedAt : Text
  deriving DecidableEq

def columns (r : WorkOrderRow) : Columns where
  status := r.status
  blockedFromStatus := r.blockedFromStatus
  blockReason := r.blockReason
  priority := r.priority
  startedAt := r.startedAt
  closedAt := r.closedAt

structure Patch where
  status : Option WorkOrderStatus := none
  blockedFromStatus : Option (Option WorkOrderStatus) := none
  blockReason : Option Text := none
  priority : Option Priority := none
  startedAt : Option Text := none
  closedAt : Option Text := none

namespace Patch

def apply (p : Patch) (c : Columns) : Columns where
  status := p.status.getD c.status
  blockedFromStatus := p.blockedFromStatus.getD c.blockedFromStatus
  blockReason := p.blockReason.getD c.blockReason
  priority := p.priority.getD c.priority
  startedAt := p.startedAt.getD c.startedAt
  closedAt := p.closedAt.getD c.closedAt

/-- `q` and then `p`. -/
def after (p q : Patch) : Patch where
  status := p.status.or q.status
  blockedFromStatus := p.blockedFromStatus.or q.blockedFromStatus
  blockReason := p.blockReason.or q.blockReason
  priority := p.priority.or q.priority
  startedAt := p.startedAt.or q.startedAt
  closedAt := p.closedAt.or q.closedAt

theorem getD_getD {α : Type} (a : Option α) (x : α) : a.getD (a.getD x) = a.getD x := by
  cases a <;> rfl

theorem apply_after (p q : Patch) (c : Columns) : (p.after q).apply c = p.apply (q.apply c) := by
  simp [apply, after]

theorem apply_apply (p : Patch) (c : Columns) : p.apply (p.apply c) = p.apply c := by
  simp [apply, getD_getD]

theorem getD_absorbed {α : Type} {p q s : Option α} {c : α} (absorbed : p.getD c = c)
    (covered : q.getD (s.getD c) = q.getD c) : q.getD (p.getD (s.getD c)) = q.getD c := by
  cases q with
  | some x => rfl
  | none =>
    have unset : s.getD c = c := covered
    rw [unset, absorbed]

/-- What `q` sets over `s`, it sets over `s` and then `p`, when `p` has nothing to add. -/
theorem apply_absorbed {p q s : Patch} {c : Columns} (absorbed : p.apply c = c)
    (covered : q.apply (s.apply c) = q.apply c) :
    q.apply (p.apply (s.apply c)) = q.apply c := by
  simp only [apply, Columns.ext_iff] at absorbed covered ⊢
  obtain ⟨p₁, p₂, p₃, p₄, p₅, p₆⟩ := absorbed
  obtain ⟨q₁, q₂, q₃, q₄, q₅, q₆⟩ := covered
  exact ⟨getD_absorbed p₁ q₁, getD_absorbed p₂ q₂, getD_absorbed p₃ q₃, getD_absorbed p₄ q₄,
    getD_absorbed p₅ q₅, getD_absorbed p₆ q₆⟩

end Patch

namespace Update

variable (remembers : Bool) (now : Now)

def sets : Update → Patch
  | start => { status := some .inProgress, startedAt := some now.iso }
  | advance event _ _ =>
    { status := some event.statusFor
      priority := if event = .ciFailed then some .blocker else none }
  | block read reason =>
    { status := some .blocked, blockReason := some reason
      blockedFromStatus := if remembers then some read else none }
  | unblock backTo =>
    { status := some backTo, blockReason := some none
      blockedFromStatus := if remembers then some none else none }
  | reopen _ => { status := some .inProgress }
  | close _ _ => { status := some .closed, closedAt := some now.iso }

def replays : Update → Patch
  | block read reason =>
    { (block read reason).sets remembers now with
      blockReason := some (if reason = "" then none else some reason) }
  | reopen reason => { (reopen reason).sets remembers now with closedAt := some none }
  | u => u.sets remembers now

theorem columns_write (u : Update) (r : WorkOrderRow) :
    columns (u.write remembers now r) = (u.sets remembers now).apply (columns r) := by
  cases u with
  | advance event read note =>
    by_cases red : event = .ciFailed
    · subst red
      rfl
    · simp only [write, sets, red, if_false]
      rfl
  | block read reason => cases remembers <;> rfl
  | unblock backTo => cases remembers <;> rfl
  | _ => rfl

end Update

def workOrderHandler (remembers : Bool) (workOrderId : String) :
    Handler WorkOrderTable WorkOrderRow Event String Failure where
  handle := handleWorkOrder remembers
  table r := [r]
  own r := r.workOrderId = some workOrderId
  key := (·.eventId)
  seen r id := r.sourceEventId = some id ∨ r.lastEventId = some id

/-- What the drain writes to a work order it cancels. `closed_at` is not among it. -/
def drainWrite (note : String) (r : WorkOrderRow) : WorkOrderRow :=
  { r with
    status := WorkOrderEventType.cancelled.statusFor
    description := some (r.description.getD "" ++ note) }

def drainReplays (now : Now) : Patch := { status := some .cancelled, closedAt := some now.iso }

def drainEmit (r : WorkOrderRow) (reason eventId : String) (now : Now) : Event where
  eventId := eventId
  eventType := WorkOrderEventType.cancelled.text
  eventTimestamp := now.iso
  payload := .obj
    [("work_order_id", .ofOption r.workOrderId), ("project_id", .ofOption r.projectId),
      ("reason", .str reason)]
  workOrderId := r.workOrderId
  projectId := r.projectId

/-- A work order's creation, by `create_work_order` or by the spawn of a gap. -/
structure Creation where
  workOrderId : String
  named : workOrderId ≠ ""
  projectId : String
  milestoneId : Text
  title : String
  type : String
  description : String
  originatingSymptom : Text
  eventId : String
  now : Now

namespace Creation

/-- The payload of the creation. The spawn gives no priority. -/
def fields (c : Creation) (priority : Option String) : List (String × Json) :=
  [("title", .str c.title), ("status", .str creationStatus.text), ("type", .str c.type),
    ("priority", .ofOption priority), ("originating_symptom", .ofOption c.originatingSymptom),
    ("description", .str c.description)]

def emit (c : Creation) (priority : Option String) : Event where
  eventId := c.eventId
  eventType := WorkOrderEventType.created.text
  eventTimestamp := c.now.iso
  payload := .obj (c.fields priority)
  workOrderId := c.workOrderId
  projectId := c.projectId
  milestoneId := c.milestoneId

def inserted (c : Creation) : WorkOrderRow where
  workOrderId := c.workOrderId
  projectId := c.projectId
  milestoneId := c.milestoneId
  title := c.title
  description := c.description
  workOrderType := c.type
  status := creationStatus
  createdAt := c.now.iso
  lastUpdatedAt := c.now.micros

end Creation

section Events

open WorkOrderTable

variable {remembers : Bool} {workOrderId : String} {q : WorkOrderRow}

theorem safeUpsert_own (own : q.workOrderId = some workOrderId)
    (set : WorkOrderRow → WorkOrderRow) :
    safeUpsert [q] (some workOrderId) set = [set q] := by
  simp [safeUpsert, Table.upsert, Table.update, Table.SameKey, WorkOrderRow.key, own]

theorem ensureSkeleton_own (own : q.workOrderId = some workOrderId) (projectId : Text)
    (clock : Nat) :
    ensureSkeleton [q] (some workOrderId) projectId clock = [q] := by
  simp [ensureSkeleton, Table.insertOrIgnore, Table.SameKey, WorkOrderRow.key, own]

theorem columnOr_named (column : Text) {fields : List (String × Json)} {key : String}
    (h : Json.lookup fields key = .ofOption column) :
    ∃ v, columnOr column (.obj fields) key = .ok v ∧ bindParam v = .ok column := by
  cases column with
  | none => exact ⟨_, rfl, by rw [h]; rfl⟩
  | some s =>
    by_cases empty : s = ""
    · exact ⟨_, by simp [columnOr, empty, payloadGet]; rfl, by rw [h]; rfl⟩
    · exact ⟨.str s, by simp [columnOr, empty], rfl⟩

/-- Past the checks of `handle`, an event about a work order that has its row is for the
handlers. -/
theorem handleWorkOrder_own (named : workOrderId ≠ "") (own : q.workOrderId = some workOrderId)
    {e : Event} {fields : List (String × Json)} (payload : e.payload = .obj fields)
    (filled : fields ≠ []) (subject : e.workOrderId = some workOrderId)
    (project : Json.lookup fields "project_id" = .ofOption e.projectId)
    (later : WorkOrderEventType.ofText e.eventType ≠ some .created)
    (new : isAlreadyProcessed [q] e.eventId = false) (clock : Nat) :
    handleWorkOrder remembers e clock [q] =
      handleTyped remembers [q] (WorkOrderEventType.ofText e.eventType) (some workOrderId)
        (.obj fields) e.eventId e.eventTimestamp clock := by
  obtain ⟨v, hv, bound⟩ := columnOr_named e.projectId project
  have full : Json.or (.obj fields) (.obj []) = .obj fields := by
    simp [Json.or, Json.truthy, filled]
  have milestone : ∃ m, columnOr e.milestoneId (.obj fields) "milestone_id" = .ok m := by
    unfold columnOr
    split
    · exact ⟨_, rfl⟩
    · split <;> exact ⟨_, rfl⟩
  obtain ⟨m, hm⟩ := milestone
  have key : columnOr (some workOrderId) (.obj fields) "work_order_id" =
      .ok (.str workOrderId) := by
    simp [columnOr, named]
  have truthy : (Json.str workOrderId).truthy = true := by simpa using named
  have stored : bindParam (.str workOrderId) = .ok (some workOrderId) := rfl
  unfold handleWorkOrder
  simp only [new, payload, full, subject, key, hv, hm, bound, ok_bind, truthy, later, if_true,
    Bool.false_eq_true, if_false, stored, ensureSkeleton_own own]

theorem event_ne_created {u : Update} (sound : u.Sound) : u.event ≠ .created := by
  cases u with
  | advance event read note =>
    have later : ∀ event ∈ advanceEvents, event ≠ .created := by decide
    exact later event sound
  | _ => exact nofun

section Handled

variable {t : WorkOrderTable} {fields : List (String × Json)} {eventId ts : String} {clock : Nat}

theorem handleTyped_blocked {reason : String} {read : WorkOrderStatus}
    (given : Json.lookup fields "reason" = .str reason)
    (only : Json.lookup fields "block_reason" = .null)
    (phase : openPhase (Json.lookup fields "from_status") = some read) :
    handleTyped remembers t (some .blocked) (some workOrderId) (.obj fields) eventId ts clock =
      .ok (1, t.safeUpsert (some workOrderId) fun r =>
        { r with
          status := .blocked, blockedAt := some ts
          blockReason := if reason = "" then none else some reason
          lastEventId := some eventId, lastUpdatedAt := clock
          blockedFromStatus := if remembers then some read else r.blockedFromStatus }) := by
  have bound : bindParam (Json.or (.str reason) .null) =
      .ok (if reason = "" then none else some reason) := by
    by_cases empty : reason = "" <;> simp [Json.or, Json.truthy, empty, bindParam, bindText]
  simp only [handleTyped, handleBlocked, payloadGet, given, only, phase, ok_bind, bound]
  rfl

theorem handleTyped_unblocked {phase : WorkOrderStatus}
    (named : openPhase (Json.lookup fields "to_status") = some phase) :
    handleTyped remembers t (some .unblocked) (some workOrderId) (.obj fields) eventId ts clock =
      .ok (1, t.safeUpsert (some workOrderId) fun r =>
        { r with
          status := phase, unblockedAt := some ts, blockReason := none
          lastEventId := some eventId, lastUpdatedAt := clock
          blockedFromStatus := if remembers then none else r.blockedFromStatus }) := by
  simp only [handleTyped, handleUnblocked, payloadGet, ok_bind, backTo, named, Option.some_or,
    Option.getD_some]
  rfl

end Handled

theorem isAlreadyProcessed_row {r : WorkOrderRow} {id : String} :
    isAlreadyProcessed [r] id = false ↔ ¬(r.sourceEventId = some id ∨ r.lastEventId = some id) := by
  simp [isAlreadyProcessed]

theorem upserts (own : q.workOrderId = some workOrderId)
    {handled : Except Failure (Nat × WorkOrderTable)} {set : WorkOrderRow → WorkOrderRow}
    {p : Patch} {eventId : String} (h : handled = .ok (1, safeUpsert [q] (some workOrderId) set))
    (columns_set : columns (set q) = p.apply (columns q))
    (key : (set q).workOrderId = q.workOrderId) (source : (set q).sourceEventId = q.sourceEventId)
    (last : (set q).lastEventId = some eventId) :
    ∃ n r', handled = .ok (n, [r']) ∧ columns r' = p.apply (columns q) ∧
      r'.workOrderId = some workOrderId ∧
      ∀ id, r'.sourceEventId = some id ∨ r'.lastEventId = some id →
        (q.sourceEventId = some id ∨ q.lastEventId = some id) ∨ id = eventId := by
  refine ⟨1, set q, by rw [h, safeUpsert_own own], columns_set, key.trans own, fun id seen => ?_⟩
  rw [source, last] at seen
  rcases seen with first | here
  · exact Or.inl (Or.inl first)
  · exact Or.inr (Option.some.inj here).symm

theorem emit_acts (named : workOrderId ≠ "") {r : WorkOrderRow}
    (subject : r.workOrderId = some workOrderId) (eventId : String) (now : Now) {u : Update}
    (sound : u.Sound) :
    (workOrderHandler remembers workOrderId).Acts columns (u.emit r eventId now)
      (u.replays remembers now).apply := by
  intro clock q own new
  have type : WorkOrderEventType.ofText (u.emit r eventId now).eventType = some u.event :=
    WorkOrderEventType.ofText_text u.event
  change ∃ n r', handleWorkOrder remembers _ clock [q] = _ ∧ _
  rw [handleWorkOrder_own named own rfl (by simp) subject rfl
    (by simpa [type] using event_ne_created sound) (isAlreadyProcessed_row.mpr new), type]
  cases u with
  | start => exact upserts own rfl rfl rfl rfl rfl
  | advance event read note =>
    rcases List.mem_cons.mp sound with rfl | later
    · exact upserts own rfl rfl rfl rfl rfl
    rcases List.mem_cons.mp later with rfl | later
    · exact upserts own rfl rfl rfl rfl rfl
    obtain rfl := List.mem_singleton.mp later
    exact upserts own rfl rfl rfl rfl rfl
  | block read reason =>
    refine upserts own (handleTyped_blocked rfl rfl (openPhase_text sound)) ?_ rfl rfl rfl
    cases remembers <;> rfl
  | unblock backTo =>
    refine upserts own (handleTyped_unblocked (openPhase_text sound)) ?_ rfl rfl rfl
    cases remembers <;> rfl
  | reopen reason => exact upserts own rfl rfl rfl rfl rfl
  | close laneReview forced =>
    have handled : handleClosed [q] (some workOrderId) eventId now.iso clock =
        handleEnded .closed [q] (some workOrderId) eventId now.iso clock := rfl
    exact upserts own (congrArg (fun t => Except.ok (1, t)) handled) rfl rfl rfl rfl

theorem drain_acts (named : workOrderId ≠ "") {r : WorkOrderRow}
    (subject : r.workOrderId = some workOrderId) (reason eventId : String) (now : Now) :
    (workOrderHandler remembers workOrderId).Acts columns (drainEmit r reason eventId now)
      (drainReplays now).apply := by
  intro clock q own new
  have type : WorkOrderEventType.ofText (drainEmit r reason eventId now).eventType =
      some .cancelled :=
    rfl
  change ∃ n r', handleWorkOrder remembers _ clock [q] = _ ∧ _
  rw [handleWorkOrder_own named own rfl (by simp) subject rfl (by simp [type])
    (isAlreadyProcessed_row.mpr new), type]
  have handled : handleCancelled [q] (some workOrderId) eventId now.iso clock =
      handleEnded .cancelled [q] (some workOrderId) eventId now.iso clock := rfl
  exact upserts own (congrArg (fun t => Except.ok (1, t)) handled) rfl rfl rfl rfl

end Events

section Created

open WorkOrderTable

variable {workOrderId : String}

theorem columnOr_bound (column : Text) (fields : List (String × Json)) (key : String)
    (absent : Json.lookup fields key = .null) :
    ∃ v t, columnOr column (.obj fields) key = .ok v ∧ bindParam v = .ok t := by
  cases column with
  | none => exact ⟨_, _, rfl, by rw [absent]; rfl⟩
  | some s =>
    by_cases empty : s = ""
    · exact ⟨_, _, by simp [columnOr, empty, payloadGet]; rfl, by rw [absent]; rfl⟩
    · exact ⟨.str s, _, by simp [columnOr, empty], rfl⟩

def blank (priority : Option String) : Columns where
  status := creationStatus
  blockedFromStatus := none
  blockReason := none
  priority := coercePriority (.ofOption priority)
  startedAt := none
  closedAt := none

def Creation.row (c : Creation) (priority : Option String) (projectId milestoneId : Text)
    (clock : Nat) : WorkOrderRow :=
  { c.inserted with
    projectId := projectId, milestoneId := milestoneId, originatingSymptom := c.originatingSymptom
    priority := coercePriority (.ofOption priority), sourceEventId := c.eventId
    lastEventId := c.eventId, lastUpdatedAt := clock }

theorem createdRow_emit (c : Creation) (priority : Option String) {project milestone : Json}
    {p m : Text} (projectBound : bindParam project = .ok p)
    (milestoneBound : bindParam milestone = .ok m) (clock : Nat) :
    createdRow (some c.workOrderId) project milestone (.obj (c.fields priority)) c.eventId
      c.now.iso clock = .ok (c.row priority p m clock) := by
  have symptom := bindParam_ofOption c.originatingSymptom
  have given : Json.lookup (c.fields priority) "originating_symptom" =
      .ofOption c.originatingSymptom :=
    rfl
  simp only [createdRow, projectBound, milestoneBound, ok_bind, payloadGet, given, symptom]
  rfl

theorem handleWorkOrder_created (remembers : Bool) (c : Creation)
    (priority : Option String) (clock : Nat) {t : WorkOrderTable}
    (new : t.isAlreadyProcessed c.eventId = false) :
    ∃ p m, handleWorkOrder remembers (c.emit priority) clock t =
      .ok (1, t.insertCreated (c.row priority p m clock)) := by
  have key : columnOr (some c.workOrderId) (.obj (c.fields priority)) "work_order_id" =
      .ok (.str c.workOrderId) := if_neg c.named
  obtain ⟨project, p, named, projectBound⟩ :=
    columnOr_bound c.projectId (c.fields priority) "project_id" rfl
  obtain ⟨milestone, m, set, milestoneBound⟩ :=
    columnOr_bound c.milestoneId (c.fields priority) "milestone_id" rfl
  have truthy : (Json.str c.workOrderId).truthy = true := by simpa using c.named
  have stored : bindParam (.str c.workOrderId) = .ok (some c.workOrderId) := rfl
  have row := createdRow_emit c priority projectBound milestoneBound clock
  have full : Json.or (.obj (c.fields priority)) (.obj []) = .obj (c.fields priority) := rfl
  have type : WorkOrderEventType.ofText WorkOrderEventType.created.text = some .created := rfl
  refine ⟨p, m, ?_⟩
  unfold handleWorkOrder Creation.emit
  simp only [new, Bool.false_eq_true, if_false, full, type, if_true, key, ok_bind,
    truthy, named, set,
    stored, handleCreated, row]
  rfl

theorem created_projected (remembers : Bool) (c : Creation) (priority : Option String)
    (clock : Nat) :
    ∃ r, (workOrderHandler remembers c.workOrderId).project clock [c.emit priority] [] = .ok [r] ∧
      columns r = blank priority ∧ r.workOrderId = some c.workOrderId ∧
      ∀ id, r.sourceEventId = some id ∨ r.lastEventId = some id → id = c.eventId := by
  obtain ⟨p, m, handled⟩ := handleWorkOrder_created remembers c priority clock (t := []) rfl
  have inserted : insertCreated [] (c.row priority p m clock) =
      [backfill (c.row priority p m clock) (c.row priority p m clock)] := by
    simp [insertCreated, Table.insertOrIgnore, Table.update, Table.SameKey, Creation.row,
      Creation.inserted, WorkOrderRow.key]
  rw [inserted] at handled
  refine ⟨_, Handler.project_singleton handled, rfl, rfl, fun id seen => ?_⟩
  rcases seen with source | last
  · exact (Option.some.inj source).symm
  · exact (Option.some.inj last).symm

theorem created_acts (remembers : Bool) (c : Creation) :
    (workOrderHandler remembers c.workOrderId).Acts columns (c.emit none) id := by
  intro clock r own new
  obtain ⟨p, m, handled⟩ := handleWorkOrder_created remembers c none clock
    (isAlreadyProcessed_row.mpr new)
  have inserted : insertCreated [r] (c.row none p m clock) =
      [backfill (c.row none p m clock) r] := by
    have same : Table.SameKey WorkOrderRow.key r (c.row none p m clock) :=
      ⟨own, by simp [WorkOrderRow.key, show r.workOrderId = some c.workOrderId from own]⟩
    simp [insertCreated, Table.insertOrIgnore, Table.update, same]
  rw [inserted] at handled
  refine ⟨1, _, handled, rfl, own, fun id seen => ?_⟩
  rcases seen with source | last
  · cases h : r.sourceEventId with
    | none =>
      simp only [backfill, h, coalesce, Option.none_or] at source
      exact Or.inr (Option.some.inj source).symm
    | some first =>
      simp only [backfill, h, coalesce, Option.some_or] at source
      exact Or.inl (Or.inl (h.trans source))
  · exact Or.inl (Or.inr last)

end Created

/-- What keeps a patch in step with the moments of a run. -/
structure Patch.Timely (now : String) (p : Patch) : Prop where
  moves : p.status ≠ none
  closes : p.status = some .closed → p.closedAt = some (some now)
  stamps : ∀ c, p.closedAt = some (some c) → c = now

section Updates

variable {remembers : Bool} {now : Now} {u : Update}

theorem replays_timely (sound : u.Sound) : (u.replays remembers now).Timely now.iso := by
  cases u with
  | advance event read note =>
    have open_ : ∀ event ∈ advanceEvents, event.statusFor ≠ .closed := by decide
    exact ⟨nofun, fun h => absurd (Option.some.inj h) (open_ event sound), nofun⟩
  | unblock backTo =>
    have open_ : ∀ phase ∈ WorkOrderStatus.blockable, phase ≠ .closed := by decide
    exact ⟨nofun, fun h => absurd (Option.some.inj h) (open_ backTo sound), nofun⟩
  | close laneReview forced =>
    exact ⟨nofun, fun _ => rfl, fun c h => (Option.some.inj (Option.some.inj h)).symm⟩
  | _ => exact ⟨nofun, nofun, nofun⟩

/-- Where the UPDATE and the replay of its event come to the same. -/
def Update.Agrees (c : Columns) : Update → Prop
  | block _ reason => reason ≠ ""
  | reopen _ => c.closedAt = none
  | _ => True

theorem sets_eq_replays_iff (c : Columns) :
    (u.sets remembers now).apply c = (u.replays remembers now).apply c ↔ u.Agrees c := by
  cases u with
  | block read reason =>
    by_cases empty : reason = ""
    · simp [Update.sets, Update.replays, Patch.apply, Update.Agrees, empty]
    · simp [Update.sets, Update.replays, Patch.apply, Update.Agrees, empty]
  | reopen reason => simp [Update.sets, Update.replays, Patch.apply, Update.Agrees]
  | _ => exact iff_of_true rfl trivial

theorem replays_covers (c : Columns) :
    (u.replays remembers now).apply ((u.sets remembers now).apply c) =
      (u.replays remembers now).apply c := by
  cases u with
  | block read reason => cases remembers <;> rfl
  | unblock backTo => cases remembers <;> rfl
  | advance event read note =>
    by_cases red : event = .ciFailed <;> simp [Update.sets, Update.replays, Patch.apply, red]
  | _ => rfl

end Updates

end DreamStudio.WorkOrders
