import DreamStudio.Review.Ledger
import DreamStudio.WorkOrders.Preview

namespace DreamStudio.WorkOrders

open Library

/-- What `verify_work_order` answered. -/
structure Verified where
  ok : Bool
  passed : Bool
  spawned : Bool
  unreviewable : Bool

/-- What a check of the originating symptom meets: a database that opens or not, the queries' first
values with how they are spelled, the tests' details where they do not pass. -/
structure SymptomChecks where
  opens : Except String Unit
  query : String → Except String (Bool × String)
  test : String → Except String Unit

/-- `run_dashboard_truth`. -/
structure DashboardTruth where
  ok : Bool
  results : List (String × Bool × Option String)

/-- What a close meets, in the order it meets it. The evidence is read before verify, at the
gates, and after a stale verdict was verified again; the escalation level is what
`read_escalation` reads. -/
structure World where
  statusAtStart : Option WorkOrderStatus
  before : Evidence
  verify : Except String Verified
  gated : Evidence
  reverify : Except String Unit
  reverified : Evidence
  ran : Nat → WorkOrderTask → Nat → Run
  commitsAfter : String → Option (List String)
  deliveredStateHint : String
  symptom : SymptomChecks
  dashboard : DashboardTruth
  lanes : Review.Ledger
  escalationLevel : Option Int
  mainIsRed : Bool
  statusAtWrite : Option WorkOrderStatus

def World.outside (wd : World) (gate : Nat) : Outside where
  ran := wd.ran gate
  commitsAfter := wd.commitsAfter
  deliveredStateHint := wd.deliveredStateHint

structure CloseCall where
  force : Bool := false
  skipVerify : Bool := false

inductive CloseOutcome
  | raised (error : String)
  | refused (error : String) (failures : List String)
  | closed (bypassedGates : List String)

/-- `_REGISTRY`, as far as `exempt_from_verification`, with the ten built-in types. -/
def builtinTypes : Dict String Bool :=
  [("api_endpoint", false), ("authentication", false), ("data_pipeline", false),
    ("deployment", false), ("documentation", true), ("game_mechanic", false),
    ("infrastructure", false), ("saas_feature", false), ("ui_component", false), ("ui_page", false)]

/-- `is_verification_exempt`. -/
def isVerificationExempt (registry : Dict String Bool) (name : Option String) : Bool :=
  match name with
  | none => false
  | some name => name ≠ "" && (registry.get name).getD false

namespace TypeGates

variable (t : TypeGates) (registry : Dict String Bool)

/-- `_ir_in_post`. -/
def irInPost : Bool :=
  "independent_review" ∈ ((splitBar (t.postGate.getD "")).map pyStrip).filter (· ≠ "")

/-- `_verify_default_on`. -/
def verifyDefaultOn : Bool := !isVerificationExempt registry t.typeId

end TypeGates

def namesReview (failure : String) : Bool := startsWith failure "independent_review"

/-- What `--skip-verify` waives. No character outside ASCII lowers to a letter of the word. -/
def isUnreviewable (failure : String) : Bool :=
  namesReview failure && contains (pyLower failure) "unreviewable"

/-- `waive_unreviewable_review`. -/
def waiveUnreviewableReview (skipVerify : Bool) (failures : List String) :
    List String × List String :=
  if !skipVerify ∨ failures = [] then (failures, [])
  else
    let waived := failures.filter isUnreviewable
    if waived = [] then (failures, []) else (failures.filter (· ∉ waived), waived)

section Symptom

/-- `_CHECK_LINE` on a stripped line. -/
def symptomLine (rawLine : String) : Option (String × String) :=
  let line := (pyStrip rawLine).toList
  let capital := fun c => 'A' ≤ c && c ≤ 'Z'
  let name := line.takeWhile fun c => capital c || ('0' ≤ c && c ≤ '9') || c = '_'
  let rest := line.drop name.length
  if name.head?.any capital ∧ rest.take 7 = "-CHECK:".toList then
    some (String.ofList name, pyStrip (String.ofList (rest.drop 7)))
  else none

def symptomFailure (py : Stdlib) (checks : SymptomChecks) (rawLine : String) : Option String :=
  match symptomLine rawLine with
  | none => none
  | some ("TEST", expr) =>
    match checks.test expr with
    | .ok _ => none
    | .error detail =>
      some (objection "originating_symptom" ("TEST-CHECK still failing — " ++ py.repr (.str expr) ++
        ": " ++ pyTake 200 detail))
  | some ("SQL", expr) =>
    match checks.opens with
    | .error exc =>
      some (objection "originating_symptom" ("could not open DB for symptom check: " ++ exc))
    | .ok _ =>
      match checks.query expr with
      | .ok (true, _) => none
      | .ok (false, value) =>
        some (objection "originating_symptom"
          ("SQL-CHECK still failing — " ++ py.repr (.str expr) ++
          " returned " ++ value))
      | .error exc => some (objection "originating_symptom" ("SQL-CHECK error — " ++ exc))
  | some (kind, _) =>
    some (objection "originating_symptom"
      ("unrecognised check kind '" ++ kind ++ "-CHECK' -- this " ++
      "path evaluates SQL-CHECK, TEST-CHECK. Refused rather than skipped: a token nobody evaluates " ++
      "is a symptom that cannot reproduce anything."))

/-- `_check_originating_symptom`. -/
def checkOriginatingSymptom (py : Stdlib) (checks : SymptomChecks) (symptom : String) :
    Option String :=
  (splitLines symptom).findSome? (symptomFailure py checks)

end Symptom

section Failures

variable (py : Stdlib) (ev : Evidence) (wd : World) (w : WorkOrderMeta)

/-- `_DASHBOARD_TRUTH_GATED_TYPES`. -/
def dashboardTruthGatedTypes : List String :=
  ["dashboard", "telemetry", "data_pipeline", "saas_feature"]

def dashboardFailures : List String :=
  if w.typeId.getD "" ∈ dashboardTruthGatedTypes ∧ !wd.dashboard.ok then
    [objection "dashboard_truth" ("live-authority invariants failed — " ++
      "; ".intercalate ((wd.dashboard.results.filter (!·.2.1)).map fun (name, _, error) =>
        name ++
          (match error with
          | some error => if error = "" then "" else ": " ++ error
          | none => "")))]
  else []

/-- `_check_tasks_done`. -/
def checkTasksDone : List String :=
  match (ev.uncarried py).filter fun t => t.status ∉ ["complete", "cancelled"] with
  | [] => []
  | incomplete =>
    let preview := "; ".intercalate ((incomplete.take 3).map fun t =>
      py.repr (.str t.title) ++ " [" ++ t.status ++ "]")
    let more :=
      if 3 < incomplete.length then "; …and " ++ toString (incomplete.length - 3) ++ " more" else ""
    [objection "tasks_done" (toString incomplete.length ++
      " task(s) not marked done — " ++ preview ++
      more)]

def symptomFailures : List String :=
  let symptom := w.originatingSymptom.getD ""
  if symptom = "" then [] else (checkOriginatingSymptom py wd.symptom symptom).toList

/-- `lane_review_failure`. -/
def laneReviewFailure : Option String :=
  let status := Review.reviewStatus wd.lanes
  if !status.dispatched then
    some (objection "lane_review" ("this work order is past review but no review was ever " ++
      "dispatched. Run `ds review --dispatch --work-order " ++ ev.workOrderId ++ "`."))
  else if !status.blocking then none
  else
    some (objection "lane_review" ("the round " ++ ((status.round.map toString).getD "None") ++
      " lane review still holds this work order -- " ++ "; ".intercalate status.reasons ++
      ". See `ds review --status --work-order " ++ ev.workOrderId ++ "`."))

end Failures

section Close

variable (py : Stdlib) (registry : Dict String Bool) (call : CloseCall) (wd : World)
  (w : WorkOrderMeta)

/-- The gates the type names, as `_evaluate_gates` runs them. -/
def evaluateGates : Except String (List String) :=
  Gate.evaluate (w.gates.zipIdx.map fun (gate, i) =>
    runGateCheck py wd.gated (.executing (wd.outside i)) gate)

def reviewOf (ev : Evidence) : Gate Unit :=
  independentReview py ev (.executing (wd.outside w.gates.length))

def convene : Except CloseOutcome (Option Verified) :=
  let stored := (wd.before.artifact py "review_verdict").isSome ||
    (wd.before.file "review-verdict.json").isSome
  if (w.irInPost || w.verifyDefaultOn registry) && !stored && !(call.skipVerify || call.force) then
    match wd.verify with
    | .error exc => .error (.refused ("Auto-verify raised an exception: " ++ exc) [])
    | .ok result => .ok (if result.ok then some result else none)
  else .ok none

def TypeGates.reviewByDefault (t : TypeGates) : Bool :=
  t.verifyDefaultOn registry && !t.irInPost && !call.skipVerify

def defaultReview : Except String (Evidence × List String) :=
  if w.reviewByDefault registry call then do
    let failures ← (reviewOf py wd w wd.gated).failures
    if failures.any (contains · "verdict is stale") && !call.force then
      match wd.reverify, (reviewOf py wd w wd.reverified).failures with
      | .ok _, .ok again => return (wd.reverified, again)
      | _, _ => return (wd.reverified, failures)
    else return (wd.gated, failures)
  else return (wd.gated, [])

def criteriaFailures (ev : Evidence) : Except String (List String) :=
  if call.force then .ok []
  else (runAcGate py ev (.executing (wd.outside (w.gates.length + 1)))).failures

structure Collected where
  evidence : Evidence
  acFailures : List String
  failures : List String

def collect : Except String Collected := do
  let gates ← evaluateGates py wd w
  let (ev, review) ← defaultReview py registry call wd w
  let acFailures ← criteriaFailures py call wd w ev
  let structureFailures ← (structuralInvariants py ev).failures
  let impactFailures ← (changeImpactAffirmed py ev).failures
  return {
    evidence := ev
    acFailures := acFailures
    failures := (waiveUnreviewableReview call.skipVerify gates).1 ++ review ++ acFailures ++
      symptomFailures py wd w ++ dashboardFailures wd w ++ checkTasksDone py ev ++
      structureFailures ++ impactFailures ++ (laneReviewFailure ev wd).toList }

def World.isEscalated : Bool := 1 ≤ wd.escalationLevel.getD 0

def bypassReview (failures : List String) : List String := failures.filter (!namesReview ·)

def waive (verified : Option Verified) (c : Collected) : List String :=
  let hasGaps := verified.any fun result => !result.passed && result.spawned
  let failures := if hasGaps && !wd.isEscalated then bypassReview c.failures else c.failures
  if verified.any (·.unreviewable) && c.acFailures = [] && !wd.isEscalated then
    bypassReview failures
  else failures

def conclude (failures : List String) : CloseOutcome :=
  if wd.isEscalated && failures.any namesReview then
    .refused
      ("Escalated work order requires a passing independent review before re-close — this " ++
      "gate cannot be bypassed with force.") (failures.filter namesReview)
  else if failures ≠ [] && !call.force then .refused "Gate check failed" failures
  else if wd.mainIsRed && !call.force then
    .refused
      ("main is RED, so this work order is not done: the work is on the default branch and " ++
      "the default branch is failing. Fix main, or close with --force if this red is not yours " ++
      "(the bypass is recorded).") ["main_ci_green"]
  else
    match wd.statusAtWrite with
    | none =>
      .refused ("Work order " ++ wd.gated.workOrderId ++
        " is None and cannot move to closed: phases " ++
        "run created -> in_progress -> in_review -> pushed -> ci_issues -> closed, only ci_issues " ++
        "may be skipped, and from None the next is nowhere.") []
    | some status =>
      if status ∈ WorkOrderStatus.closeable then .closed (if call.force then failures else [])
      else
        .refused ((transitionRefusal wd.gated.workOrderId status .closed).getD
          ("Work order " ++ wd.gated.workOrderId ++ " changed phase while closing (" ++
            status.text ++ ").")) []

/-- `close_work_order`. -/
def closeWorkOrder (lookup : Option WorkOrderMeta) : CloseOutcome :=
  match wd.statusAtStart.bind (transitionRefusal wd.before.workOrderId · .closed) with
  | some refusal => .refused refusal []
  | none =>
    match lookup with
    | none => .refused ("Work order not found: " ++ wd.before.workOrderId) []
    | some w =>
      match convene py registry call wd w with
      | .error outcome => outcome
      | .ok verified =>
        match collect py registry call wd w with
        | .error error => .raised error
        | .ok c => conclude call wd (waive wd verified c)

end Close

end DreamStudio.WorkOrders
