import DreamStudio.Projections.WorkOrder
import DreamStudio.Review.Ledger

namespace DreamStudio.WorkOrders

open Library Projections

/-- `datetime.now(UTC)`: the text the rows and events carry, and the same moment as a number. -/
structure Now where
  iso : String
  micros : Nat

inductive Checked (α : Type)
  | refused (error : String)
  | already
  | proceeds (next : α)

def Checked.map {α β : Type} (f : α → β) : Checked α → Checked β
  | refused error => refused error
  | already => already
  | proceeds next => proceeds (f next)

theorem Checked.map_eq_proceeds {α β : Type} {f : α → β} {c : Checked α} {b : β} :
    c.map f = .proceeds b ↔ ∃ a, c = .proceeds a ∧ f a = b := by
  cases c <;> simp [Checked.map]

inductive Update
  | start
  | advance (event : WorkOrderEventType) (read : WorkOrderStatus) (note : Option String)
  | block (read : WorkOrderStatus) (reason : String)
  | unblock (backTo : WorkOrderStatus)
  | reopen (reason : String)
  | close (laneReview : String) (forced : Bool)
  deriving DecidableEq

namespace Update

def event : Update → WorkOrderEventType
  | start => .started
  | advance event _ _ => event
  | block _ _ => .blocked
  | unblock _ => .unblocked
  | reopen _ => .reopened
  | close _ _ => .closed

def target : Update → WorkOrderStatus
  | unblock backTo => backTo
  | u => u.event.statusFor

/-- The WHERE clause beside the work order's id. Only the UPDATE of a close has one. -/
def finds : Update → WorkOrderStatus → Bool
  | close _ _, status => status ∈ WorkOrderStatus.closeable
  | _, _ => true

/-- The columns an UPDATE sets. `remembers` is `remembers_block_phase`. -/
def write (remembers : Bool) (now : Now) (u : Update) (r : WorkOrderRow) : WorkOrderRow :=
  let r := { r with status := u.target, lastUpdatedAt := now.micros }
  match u with
  | start => { r with startedAt := now.iso }
  | advance event _ _ => { r with priority := if event = .ciFailed then .blocker else r.priority }
  | block read reason =>
    { r with
      blockedAt := now.iso, blockReason := reason
      blockedFromStatus := if remembers then some read else r.blockedFromStatus }
  | unblock _ =>
    { r with
      unblockedAt := now.iso, blockReason := none
      blockedFromStatus := if remembers then none else r.blockedFromStatus }
  | reopen _ => r
  | close _ _ => { r with closedAt := now.iso }

@[simp] theorem write_status (remembers : Bool) (now : Now) (u : Update) (r : WorkOrderRow) :
    (u.write remembers now r).status = u.target := by
  cases u <;> rfl

@[simp] theorem write_workOrderId (remembers : Bool) (now : Now) (u : Update) (r : WorkOrderRow) :
    (u.write remembers now r).workOrderId = r.workOrderId := by
  cases u <;> rfl

/-- What the payload adds to the work order, its title and its project. -/
def payload (r : WorkOrderRow) : Update → List (String × Json)
  | start => [("type", .ofOption r.workOrderType)]
  | advance _ read note =>
    ("from_status", .str read.text) :: match note with
      | some note => if note = "" then [] else [("note", .str note)]
      | none => []
  | block read reason => [("reason", .str reason), ("from_status", .str read.text)]
  | unblock backTo => [("to_status", .str backTo.text)]
  | reopen reason =>
    [("previous_status", .str WorkOrderStatus.closed.text), ("reason", .str reason)]
  | close laneReview forced => [("lane_review", .str laneReview), ("forced", .bool forced)]

/-- The event of an UPDATE as it stands in the canonical tables. Start and close name the
milestone too. -/
def emit (r : WorkOrderRow) (eventId : String) (now : Now) (u : Update) : Event where
  eventId := eventId
  eventType := u.event.text
  eventTimestamp := now.iso
  payload := .obj
    ([("work_order_id", .ofOption r.workOrderId), ("title", .ofOption r.title),
      ("project_id", .ofOption r.projectId)] ++ u.payload r)
  workOrderId := r.workOrderId
  projectId := r.projectId
  milestoneId :=
    match u with
    | start | close _ _ => r.milestoneId
    | _ => none

end Update

/-- `_ADVANCE_EVENTS`. -/
def advanceEvents : List WorkOrderEventType := [.reviewRequested, .pushed, .ciFailed]

/-- The statuses `advance_work_order` moves to, sorted as its refusal lists them. -/
def advanceTargets : List String :=
  (advanceEvents.map (·.statusFor.text)).insertionSort (· ≤ ·)

/-- What the six writers are called with. `brief` is the error of `read_work_order_brief`; `later`
and `held` are what the checks after the phase refuse with; `review` is what `review_status` returns
when it is asked. -/
inductive Call
  | start (brief later : Option String)
  | advance (toStatus : String) (review : Review.ReviewStatus) (note : Option String)
  | block (reason : String)
  | unblock
  | reopen (reason : String)
  | close (held : Option String) (laneReview : String) (forced : Bool)

section Checks

variable (workOrderId : String) (current : WorkOrderStatus)

/-- The checks of `start_work_order`. A start of work in progress is a resume. -/
def checkStart (brief later : Option String) : Checked Update :=
  match brief with
  | some error => .refused error
  | none =>
    match if current = .inProgress then none else transitionRefusal workOrderId current
      .inProgress with
    | some error => .refused error
    | none =>
      match later with
      | some error => .refused error
      | none => .proceeds .start

/-- The checks of `advance_work_order`. Pushing asks the review too. -/
def checkAdvance (toStatus : String) (review : Review.ReviewStatus) (note : Option String) :
    Checked Update :=
  match advanceEvents.find? (·.statusFor.text = toStatus) with
  | none =>
    .refused ("'" ++ toStatus ++ "' is not a transition this function performs. Valid: " ++
      ", ".intercalate advanceTargets ++ ". Use start/block/unblock/close for the others.")
  | some event =>
    if current = event.statusFor then .already
    else
      match transitionRefusal workOrderId current event.statusFor with
      | some error => .refused error
      | none =>
        if event = .pushed ∧ review.blocking then
          .refused ("Work order " ++ workOrderId ++
            " cannot be pushed: its review still holds it -- " ++
            "; ".intercalate review.reasons ++ ". Run `ds review --status --work-order " ++
            workOrderId ++ "` for the detail.")
        else .proceeds (.advance event current note)

/-- The checks of `block_work_order`. -/
def checkBlock (reason : String) : Checked Update :=
  if current ∈ WorkOrderStatus.blockable then .proceeds (.block current reason)
  else
    .refused ("Work order " ++ workOrderId ++ " is " ++ current.text ++ "; only an open phase (" ++
      ", ".intercalate (WorkOrderStatus.blockable.map (·.text)) ++ ") can be blocked.")

/-- The checks of `unblock_work_order` before it asks for the phase to return to. -/
def checkUnblock : Checked Unit :=
  if current = .blocked then .proceeds ()
  else .refused ("Work order is not blocked (status: " ++ current.text ++ ")")

/-- The checks of `reopen_work_order`. -/
def checkReopen (reason : String) : Checked Update :=
  if current = .closed then .proceeds (.reopen reason)
  else
    .refused ("Work order " ++ workOrderId ++ " is " ++ current.text ++
      "; only a closed work order reopens.")

/-- The checks of `close_work_order` up to its UPDATE. -/
def checkClose (held : Option String) (laneReview : String) (forced : Bool) : Checked Update :=
  match transitionRefusal workOrderId current .closed with
  | some error => .refused error
  | none =>
    match held with
    | some error => .refused error
    | none => .proceeds (.close laneReview forced)

variable {workOrderId current} {u : Update}

theorem checkStart_proceeds {brief later : Option String}
    (h : checkStart workOrderId current brief later = .proceeds u) :
    u = .start ∧ (current = .inProgress ∨ .inProgress ∈ current.transitions) := by
  cases brief with
  | some error => cases h
  | none =>
    simp only [checkStart] at h
    split at h
    · cases h
    next allowed =>
      cases later with
      | some error => cases h
      | none =>
        cases h
        refine ⟨rfl, ?_⟩
        split at allowed
        next resumed => exact Or.inl resumed
        next => exact Or.inr (transitionRefusal_eq_none.mp allowed)

theorem checkAdvance_proceeds {toStatus : String} {review : Review.ReviewStatus}
    {note : Option String}
    (h : checkAdvance workOrderId current toStatus review note = .proceeds u) :
    ∃ event ∈ advanceEvents, u = .advance event current note ∧
      event.statusFor ∈ current.transitions := by
  simp only [checkAdvance] at h
  split at h
  · cases h
  next event found =>
    split at h
    · cases h
    · split at h
      · cases h
      next allowed =>
        split at h
        · cases h
        · cases h
          exact ⟨event, List.mem_of_find?_eq_some found, rfl, transitionRefusal_eq_none.mp allowed⟩

theorem checkBlock_proceeds {reason : String}
    (h : checkBlock workOrderId current reason = .proceeds u) :
    u = .block current reason ∧ current ∈ WorkOrderStatus.blockable := by
  unfold checkBlock at h
  split at h
  next open_ =>
    cases h
    exact ⟨rfl, open_⟩
  next => cases h

theorem checkUnblock_proceeds (h : checkUnblock current = .proceeds ()) : current = .blocked := by
  unfold checkUnblock at h
  split at h
  next blocked => exact blocked
  next => cases h

theorem checkReopen_proceeds {reason : String}
    (h : checkReopen workOrderId current reason = .proceeds u) :
    u = .reopen reason ∧ current = .closed := by
  unfold checkReopen at h
  split at h
  next closed =>
    cases h
    exact ⟨rfl, closed⟩
  next => cases h

theorem checkClose_proceeds {held : Option String} {laneReview : String} {forced : Bool}
    (h : checkClose workOrderId current held laneReview forced = .proceeds u) :
    u = .close laneReview forced ∧ current ∈ WorkOrderStatus.closeable := by
  simp only [checkClose] at h
  split at h
  · cases h
  next allowed =>
    split at h
    · cases h
    · cases h
      exact ⟨rfl, mem_closeable.mpr (transitionRefusal_eq_none.mp allowed)⟩

end Checks

/-- The phase `unblock_work_order` returns to. -/
def recalled (remembers : Bool) (r : WorkOrderRow) : WorkOrderStatus :=
  ((if remembers then r.blockedFromStatus else none).bind openStatus).getD
    WorkOrderEventType.unblocked.statusFor

/-- A call between its read of the phase and its UPDATE. `unblock` reads twice. -/
inductive Flight
  | recalling
  | writing (u : Update)
  deriving DecidableEq

def Call.check (workOrderId : String) (current : WorkOrderStatus) : Call → Checked Flight
  | .start brief later => (checkStart workOrderId current brief later).map .writing
  | .advance toStatus review note =>
    (checkAdvance workOrderId current toStatus review note).map .writing
  | .block reason => (checkBlock workOrderId current reason).map .writing
  | .unblock => (checkUnblock current).map fun _ => .recalling
  | .reopen reason => (checkReopen workOrderId current reason).map .writing
  | .close held laneReview forced =>
    (checkClose workOrderId current held laneReview forced).map .writing

def Flight.update (remembers : Bool) (r : WorkOrderRow) : Flight → Update
  | .recalling => .unblock (recalled remembers r)
  | .writing u => u

/-- What the checks promise of an UPDATE whatever has happened since. -/
def Update.Sound : Update → Prop
  | .advance event _ _ => event ∈ advanceEvents
  | .block read _ => read ∈ WorkOrderStatus.blockable
  | .unblock backTo => backTo ∈ WorkOrderStatus.blockable
  | _ => True

section Checked

variable {workOrderId : String}

theorem recalled_blockable (remembers : Bool) (r : WorkOrderRow) :
    recalled remembers r ∈ WorkOrderStatus.blockable := by
  unfold recalled
  cases h : (if remembers then r.blockedFromStatus else none).bind openStatus with
  | none => decide
  | some p =>
    obtain ⟨q, -, found⟩ := Option.bind_eq_some_iff.mp h
    unfold openStatus at found
    split at found
    next open_ =>
      cases found
      exact open_
    next => cases found

theorem check_sound {c : Call} {current : WorkOrderStatus} {u : Update}
    (h : c.check workOrderId current = .proceeds (.writing u)) : u.Sound := by
  cases c with
  | start brief later =>
    obtain ⟨_, checked, ⟨⟩⟩ := Checked.map_eq_proceeds.mp h
    obtain ⟨rfl, -⟩ := checkStart_proceeds checked
    trivial
  | advance toStatus review note =>
    obtain ⟨_, checked, ⟨⟩⟩ := Checked.map_eq_proceeds.mp h
    obtain ⟨event, known, rfl, -⟩ := checkAdvance_proceeds checked
    exact known
  | block reason =>
    obtain ⟨_, checked, ⟨⟩⟩ := Checked.map_eq_proceeds.mp h
    obtain ⟨rfl, open_⟩ := checkBlock_proceeds checked
    exact open_
  | unblock =>
    obtain ⟨_, -, ⟨⟩⟩ := Checked.map_eq_proceeds.mp h
  | reopen reason =>
    obtain ⟨_, checked, ⟨⟩⟩ := Checked.map_eq_proceeds.mp h
    obtain ⟨rfl, -⟩ := checkReopen_proceeds checked
    trivial
  | close held laneReview forced =>
    obtain ⟨_, checked, ⟨⟩⟩ := Checked.map_eq_proceeds.mp h
    obtain ⟨rfl, -⟩ := checkClose_proceeds checked
    trivial

theorem update_sound {c : Call} {current : WorkOrderStatus} {f : Flight} {remembers : Bool}
    {r : WorkOrderRow} (h : c.check workOrderId current = .proceeds f) :
    (f.update remembers r).Sound := by
  cases f with
  | recalling => exact recalled_blockable remembers r
  | writing u => exact check_sound h

end Checked

end DreamStudio.WorkOrders
