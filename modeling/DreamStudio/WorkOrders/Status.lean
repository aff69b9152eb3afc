import DreamStudio.Library.Json

namespace DreamStudio.WorkOrders

open Library

/-- `CANONICAL_WORK_ORDER_STATUSES`. -/
inductive WorkOrderStatus
  | created
  | inProgress
  | inReview
  | pushed
  | ciIssues
  | blocked
  | closed
  | cancelled
  | deleted
  deriving DecidableEq

namespace WorkOrderStatus

def text : WorkOrderStatus → String
  | created => "created"
  | inProgress => "in_progress"
  | inReview => "in_review"
  | pushed => "pushed"
  | ciIssues => "ci_issues"
  | blocked => "blocked"
  | closed => "closed"
  | cancelled => "cancelled"
  | deleted => "deleted"

def all : List WorkOrderStatus :=
  [created, inProgress, inReview, pushed, ciIssues, blocked, closed, cancelled, deleted]

/-- `WORK_ORDER_TRANSITIONS`. -/
def transitions : WorkOrderStatus → List WorkOrderStatus
  | created => [inProgress]
  | inProgress => [inReview]
  | inReview => [pushed]
  | pushed => [ciIssues, closed]
  | ciIssues => [closed]
  | closed => []
  | blocked => []
  | cancelled => []
  | deleted => []

/-- `BLOCKABLE_WORK_ORDER_STATUSES`. -/
def blockable : List WorkOrderStatus := all.filter fun s => !s.transitions.isEmpty

/-- `CLOSEABLE_WORK_ORDER_STATUSES`. -/
def closeable : List WorkOrderStatus := all.filter fun s => .closed ∈ s.transitions

/-- `TERMINAL_WORK_ORDER_STATUSES`. -/
def terminal : List WorkOrderStatus := [closed, cancelled, deleted]

end WorkOrderStatus

/-- `transition_refusal`. -/
def transitionRefusal (workOrderId : String) (current target : WorkOrderStatus) : Option String :=
  let allowed := current.transitions
  if target ∈ allowed then none
  else if current ∈ WorkOrderStatus.terminal then
    some ("Work order " ++ workOrderId ++ " is " ++ current.text ++
      ", which is terminal. Reopen it " ++
      "if the work is genuinely resuming; that is recorded as work_order.reopened.")
  else if current = .blocked then
    some ("Work order " ++ workOrderId ++ " is blocked. Unblock it first.")
  else
    let next := if allowed.isEmpty then "nowhere" else " or ".intercalate (allowed.map (·.text))
    some ("Work order " ++ workOrderId ++ " is " ++ current.text ++ " and cannot move to " ++
      target.text ++
        ": phases run created -> in_progress -> in_review -> pushed -> ci_issues -> " ++
      "closed, only ci_issues may be skipped, and from " ++ current.text ++
        " the next is " ++ next ++
      ".")

theorem transitionRefusal_eq_none {workOrderId : String} {current target : WorkOrderStatus} :
    transitionRefusal workOrderId current target = none ↔ target ∈ current.transitions := by
  constructor
  · intro none
    by_contra refused
    simp only [transitionRefusal, if_neg refused] at none
    split at none
    · cases none
    · split at none <;> cases none
  · intro allowed
    simp [transitionRefusal, allowed]

theorem mem_closeable {s : WorkOrderStatus} :
    s ∈ WorkOrderStatus.closeable ↔ .closed ∈ s.transitions := by
  cases s <;> decide

/-- The keys of `WORK_ORDER_EVENT_STATUS`, which are also the types the projection consumes. -/
inductive WorkOrderEventType
  | created
  | started
  | reviewRequested
  | pushed
  | ciFailed
  | blocked
  | unblocked
  | reopened
  | closed
  | cancelled
  | deleted
  deriving DecidableEq

namespace WorkOrderEventType

def text : WorkOrderEventType → String
  | created => "work_order.created"
  | started => "work_order.started"
  | reviewRequested => "work_order.review_requested"
  | pushed => "work_order.pushed"
  | ciFailed => "work_order.ci_failed"
  | blocked => "work_order.blocked"
  | unblocked => "work_order.unblocked"
  | reopened => "work_order.reopened"
  | closed => "work_order.closed"
  | cancelled => "work_order.cancelled"
  | deleted => "work_order.deleted"

def all : List WorkOrderEventType :=
  [created, started, reviewRequested, pushed, ciFailed, blocked, unblocked, reopened, closed,
    cancelled, deleted]

def ofText (eventType : String) : Option WorkOrderEventType := all.find? (·.text = eventType)

theorem ofText_text (type : WorkOrderEventType) : ofText type.text = some type := by
  cases type <;> rfl

/-- `status_for(event_type, work_order=True)`. -/
def statusFor : WorkOrderEventType → WorkOrderStatus
  | created => .created
  | started => .inProgress
  | unblocked => .inProgress
  | reopened => .inProgress
  | reviewRequested => .inReview
  | pushed => .pushed
  | ciFailed => .ciIssues
  | blocked => .blocked
  | closed => .closed
  | cancelled => .cancelled
  | deleted => .deleted

end WorkOrderEventType

def creationStatus : WorkOrderStatus := WorkOrderEventType.created.statusFor

/-- `WORK_ORDER_PRIORITIES`. -/
inductive Priority
  | blocker
  | defect
  | normal
  | backlog
  deriving DecidableEq

def Priority.text : Priority → String
  | blocker => "blocker"
  | defect => "defect"
  | normal => "normal"
  | backlog => "backlog"

def Priority.all : List Priority := [.blocker, .defect, .normal, .backlog]

/-- `_open_phase` of a payload value. `str()` of anything but a string spells no status. -/
def openPhase : Json → Option WorkOrderStatus
  | .str s => WorkOrderStatus.blockable.find? (·.text = pyStrip s)
  | _ => none

theorem openPhase_text {s : WorkOrderStatus} (h : s ∈ WorkOrderStatus.blockable) :
    openPhase (.str s.text) = some s := by
  revert h
  cases s <;> decide

/-- `_open_phase` of a stored phase. -/
def openStatus (s : WorkOrderStatus) : Option WorkOrderStatus :=
  if s ∈ WorkOrderStatus.blockable then some s else none

/-- `_coerce_priority`. -/
def coercePriority : Json → Priority
  | .str s => (Priority.all.find? (·.text = pyStrip s)).getD .normal
  | _ => .normal

end DreamStudio.WorkOrders
