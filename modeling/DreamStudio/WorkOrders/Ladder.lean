import DreamStudio.Library.Dict
import DreamStudio.Library.Potential
import DreamStudio.WorkOrders.Status
import Mathlib.Data.Prod.Lex
import Mathlib.Data.String.Basic

namespace DreamStudio.WorkOrders.Ladder

open Library

/-- A row of `ds_escalations`, under its work order. -/
structure Escalation where
  escalationLevel : Nat := 0
  retryCount : Nat := 0
  designatedExecutor : Option String := none
  lastReason : Option String := none
  deriving DecidableEq

/-- A row of kind `escalation` in `business_work_order_artifacts`; `content` is what `json.loads`
reads back of it, `none` where it refuses the text. -/
structure Artifact where
  content : Option Json
  updatedAt : String

/-- The columns of `business_work_orders` that the outcome eval reads. -/
structure WorkOrder where
  workOrderId : String
  status : WorkOrderStatus
  originatingSymptom : Option String
  closedAt : Option String

/-- The tables the ladder reads and writes. `config` is the value `ds_config` holds of the cap. -/
structure Authority where
  escalations : Dict String Escalation := []
  artifacts : Dict (String × String) Artifact := []
  workOrders : List WorkOrder := []
  config : Option String := none

def escalationExecutor : String := "opus"

def defaultExecutor : String := "sonnet"

def defaultRetryCap : Int := 3

/-- `int(text)`, `none` where it raises. -/
abbrev ParseInt := String → Option Int

/-- `get_retry_cap`. -/
def getRetryCap (int : ParseInt) (environ config : Option String) : Int :=
  ((environ.filter (· ≠ "")).bind int).getD ((config.bind int).getD defaultRetryCap)

variable (int : ParseInt)

namespace Authority

/-- `read_escalation`. -/
def readEscalation (db : Authority) (w : String) : Option Escalation := db.escalations.get w

/-- `resolve_executor`. -/
def resolveExecutor (db : Authority) (w : String) (default : String := defaultExecutor) : String :=
  (((db.readEscalation w).bind (·.designatedExecutor)).filter (· ≠ "")).getD default

/-- `mark_escalated`: a row that is there keeps its retry count. -/
def markEscalated (db : Authority) (w reason : String) (executor : String := escalationExecutor) :
    Authority :=
  let row := (db.readEscalation w).getD {}
  let marked := { row with
    escalationLevel := row.escalationLevel + 1
    designatedExecutor := some executor
    lastReason := some reason }
  { db with escalations := db.escalations.set w marked }

/-- What `register_retry` answers. -/
structure Retry where
  retryCount : Nat
  retryCap : Int
  capped : Bool

def Retry.cappedReason (retry : Retry) (reason : String) : String :=
  "retry cap reached (" ++ toString retry.retryCount ++ "/" ++ toString retry.retryCap ++
    "); last failure: " ++ reason

/-- `register_retry`. -/
def registerRetry (db : Authority) (w : String) (environ : Option String) : Authority × Retry :=
  let row := (db.readEscalation w).getD {}
  let cap := getRetryCap int environ db.config
  let count := row.retryCount + 1
  ({ db with escalations := db.escalations.set w { row with retryCount := count } },
    { retryCount := count, retryCap := cap, capped := decide (cap ≤ count) })

/-- `_record_escalation_artifact`, where the write goes through. -/
def recordEscalationArtifact (db : Authority) (w instanceKey reason now : String) : Authority :=
  let content := Json.obj [("type", .str instanceKey), ("status", .str "unresolved"),
    ("reason", .str reason), ("work_order_id", .str w), ("created_at", .str now)]
  { db with artifacts := db.artifacts.set (w, instanceKey) ⟨some content, now⟩ }

/-- `reopen_work_order`: only what is closed reopens. -/
def reopenWorkOrder (db : Authority) (w : String) : Authority :=
  { db with workOrders := db.workOrders.map fun r =>
      if r.workOrderId = w ∧ r.status = .closed then
        { r with status := WorkOrderEventType.reopened.statusFor }
      else r }

end Authority

/-- The fields of an escalation artifact; what is no JSON object has none. -/
def Artifact.fields (a : Artifact) : List (String × Json) :=
  match a.content with
  | some (.obj fields) => fields
  | _ => []

/-- What `_parse_escalation_artifact` makes of an artifact. -/
structure Listed where
  workOrderId : Json
  type : Json
  status : Json
  reason : Json
  createdAt : Json
  resolvedAt : Json
  updatedAt : String

def parseEscalationArtifact (w instanceKey : String) (a : Artifact) : Listed where
  workOrderId := (Json.lookup a.fields "work_order_id").or (.str w)
  type := (Json.lookup a.fields "type").or (.str instanceKey)
  status := (Json.lookup a.fields "status").or (.str "unknown")
  reason := Json.lookupD a.fields "reason" (.str "")
  createdAt := Json.lookupD a.fields "created_at" (.str "")
  resolvedAt := Json.lookup a.fields "resolved_at"
  updatedAt := a.updatedAt

/-- `ORDER BY updated_at DESC, work_order_id, instance_key`. -/
def newestFirst (x y : (String × String) × Artifact) : Bool :=
  toLex (y.2.updatedAt, toLex (x.1.1, x.1.2)) ≤ toLex (x.2.updatedAt, toLex (y.1.1, y.1.2))

def isUnresolved : Json → Bool
  | .str status => status = "unresolved"
  | _ => false

def isResolved : Json → Bool
  | .str status => status = "resolved"
  | _ => false

/-- The answer of `resolve_escalation`. -/
structure Resolution where
  resolved : List Json := []
  alreadyResolved : List Json := []
  found : Bool

/-- One artifact of `resolve_escalation`. -/
def resolveArtifact (now note : String) (a : Artifact) : Artifact :=
  let resolved := Dict.set (Dict.set a.fields "status" (.str "resolved")) "resolved_at" (.str now)
  ⟨some (.obj (if note = "" then resolved else Dict.set resolved "resolution_note" (.str note))),
    now⟩

namespace Authority

/-- `list_escalations`. -/
def listEscalations (db : Authority) (includeResolved : Bool := false) : List Listed :=
  ((db.artifacts.mergeSort newestFirst).map fun r =>
    parseEscalationArtifact r.1.1 r.1.2 r.2).filter fun listed =>
      includeResolved || isUnresolved listed.status

/-- `list_wo_artifacts(work_order_id, "escalation")`. -/
def listWoArtifacts (db : Authority) (w : String) : List (String × Artifact) :=
  ((db.artifacts.filter (·.1.1 = w)).map fun r => (r.1.2, r.2)).mergeSort (·.1 ≤ ·.1)

/-- `resolve_escalation`. -/
def resolveEscalation (db : Authority) (w : String) (instanceKey : Option String)
    (now note : String) : Authority × Resolution :=
  let rows := (db.listWoArtifacts w).filter fun r => instanceKey.all (r.1 = ·)
  let type (r : String × Artifact) := (Json.lookup r.2.fields "type").or (.str r.1)
  let done (r : String × Artifact) := isResolved (Json.lookup r.2.fields "status")
  let unsettled := rows.filter fun r => !done r
  ({ db with artifacts := unsettled.foldl (fun found r =>
      found.set (w, r.1) (resolveArtifact now note r.2)) db.artifacts },
    { resolved := unsettled.map type, alreadyResolved := (rows.filter done).map type,
      found := !rows.isEmpty })

end Authority

/-- Where an evaluator stands between two of the writes of `_reopen_and_escalate`. -/
inductive Place
  | reopening
  | marking
  | recording (instanceKey reason : String)
  | done
  deriving DecidableEq

/-- One call of `_reopen_and_escalate` that has counted its retry. -/
structure Evaluator where
  workOrderId : String
  reason : String
  place : Place
  deriving DecidableEq

/-- Where the answer of `register_retry` sends the call. -/
def Authority.Retry.place (retry : Authority.Retry) (reason : String) : Place :=
  if retry.capped then .recording "retrycap" (retry.cappedReason reason) else .reopening

/-- The next write of the call; `goes` tells whether it goes through. The two before the last end
the call when they raise, the last is best effort. -/
def Evaluator.proceed (e : Evaluator) (goes : Bool) (now : String) (db : Authority) :
    Option (Evaluator × Authority) :=
  match e.place with
  | .reopening =>
    some (if goes then ({ e with place := .marking }, db.reopenWorkOrder e.workOrderId)
      else ({ e with place := .done }, db))
  | .marking =>
    some (if goes then ({ e with place := .recording "outcome" e.reason },
      db.markEscalated e.workOrderId e.reason)
      else ({ e with place := .done }, db))
  | .recording instanceKey reason =>
    some ({ e with place := .done },
      if goes then db.recordEscalationArtifact e.workOrderId instanceKey reason now else db)
  | .done => none

/-- `"; ".join(failures) or "outcome regressed"`. -/
def failureReason (failures : List String) : String :=
  let joined := "; ".intercalate failures
  if joined = "" then "outcome regressed" else joined

structure Goes where
  registers : Bool := true
  reopens : Bool := true
  marks : Bool := true
  records : Bool := true

/-- `_reopen_and_escalate`, and whether it returned. -/
def reopenAndEscalate (db : Authority) (w : String) (failures : List String)
    (environ : Option String) (now : String) (goes : Goes) : Authority × Bool :=
  let reason := failureReason failures
  let record (db : Authority) (instanceKey reason : String) :=
    if goes.records then db.recordEscalationArtifact w instanceKey reason now else db
  if goes.registers then
    let (db, retry) := db.registerRetry int w environ
    if retry.capped then (record db "retrycap" (retry.cappedReason reason), true)
    else if goes.reopens then
      let db := db.reopenWorkOrder w
      if goes.marks then (record (db.markEscalated w reason) "outcome" reason, true)
      else (db, false)
    else (db, false)
  else (db, false)

/-- `TRIM(originating_symptom) <> ''`, which strips spaces only. -/
def hasSymptom (r : WorkOrder) : Bool := r.originatingSymptom.any fun s => s.toList.any (· ≠ ' ')

/-- The rows `run_outcome_eval` selects; `cutoff` is there when a window is. -/
def Authority.outcomeRows (db : Authority) (cutoff : Option String) : List String :=
  (db.workOrders.filter fun r => r.status = .closed ∧ hasSymptom r ∧
    cutoff.all fun cutoff => r.closedAt.any (cutoff ≤ ·)).map (·.workOrderId)

structure Outcome where
  workOrderId : String
  failures : List String
  reopened : Bool
  deriving DecidableEq

/-- What one pass finds: the failures of a work order as the database shows them then, the
environment and clock of the process, and which of its writes go through. -/
structure Pass where
  failures : Authority → String → List String
  environ : Option String
  now : String
  goes : String → Goes
  autoReopen : Bool := true
  cutoff : Option String := none

/-- One work order of `run_outcome_eval`. -/
def Pass.visit (p : Pass) (found : Authority × List Outcome) (w : String) :
    Authority × List Outcome :=
  let failures := p.failures found.1 w
  if failures ≠ [] ∧ p.autoReopen then
    let r := reopenAndEscalate int found.1 w failures p.environ p.now (p.goes w)
    (r.1, found.2 ++ [⟨w, failures, r.2⟩])
  else (found.1, found.2 ++ [⟨w, failures, false⟩])

/-- `run_outcome_eval`. -/
def runOutcomeEval (p : Pass) (db : Authority) : Authority × List Outcome :=
  (db.outcomeRows p.cutoff).foldl (p.visit int) (db, [])

structure System where
  authority : Authority
  inFlight : List Evaluator := []

/-- What can happen next: an evaluation that found its work order not fixed counts its retry, one
of those in flight makes its next write, the operator resolves or sets the cap, or any other
command moves a work order. -/
inductive Act
  | evaluate (workOrderId : String) (failures : List String) (environ : Option String) (goes : Bool)
  | proceed (evaluator : Nat) (goes : Bool) (now : String)
  | resolve (workOrderId : String) (instanceKey : Option String) (now note : String)
  | configure (value : Option String)
  | rewrite (workOrders : List WorkOrder)

def step (s : System) : Act → Option System
  | .evaluate w failures environ goes =>
    if goes then
      let (authority, retry) := s.authority.registerRetry int w environ
      let reason := failureReason failures
      some ⟨authority, s.inFlight ++ [⟨w, reason, retry.place reason⟩]⟩
    else some s
  | .proceed i goes now =>
    (s.inFlight[i]?).bind fun e =>
      (e.proceed goes now s.authority).map fun r => ⟨r.2, s.inFlight.set i r.1⟩
  | .resolve w instanceKey now note =>
    some { s with authority := (s.authority.resolveEscalation w instanceKey now note).1 }
  | .configure value => some { s with authority := { s.authority with config := value } }
  | .rewrite workOrders =>
    some { s with authority := { s.authority with workOrders := workOrders } }

/-- Every order of their steps. -/
def ladder : Machine System Act := ⟨step int⟩

end DreamStudio.WorkOrders.Ladder
