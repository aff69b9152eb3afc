import DreamStudio.Findings.Honesty
import DreamStudio.Library.Find
import DreamStudio.Library.Least
import Mathlib.Data.Prod.Lex
import Mathlib.Data.String.Basic

namespace DreamStudio.Findings

open Library

section Rows

inductive EventKind
  | findingRecorded
  | findingStatusChanged
  | findingResolved
  | scanRunStarted
  deriving DecidableEq

/-- A row of `security_events`. -/
structure SecurityEvent where
  eventId : String
  parentEventId : Option String := none
  eventKind : EventKind
  correlationId : Option String := none
  projectId : Option String := none
  workOrderId : Option String := none
  scannerType : Option String := none
  cweId : Option String := none
  owaspCategory : Option String := none
  cveId : Option String := none
  filePath : Option String := none
  lineNumber : Option Int := none
  vulnClass : Option String := none
  exploitability : Option String := none
  severity : Option String := none
  title : Option String := none
  body : Option String := none
  createdAt : String
  honesty : Honesty := {}
  deriving DecidableEq

/-- What `ORDER BY created_at DESC, event_id DESC` compares, the later being the less. -/
def SecurityEvent.stamp (e : SecurityEvent) : (String ×ₗ String)ᵒᵈ :=
  OrderDual.toDual (toLex (e.createdAt, e.eventId))

def SecurityEvent.isFinding (e : SecurityEvent) : Bool := e.eventKind = .findingRecorded

def SecurityEvent.speaksOf (e : SecurityEvent) (findingId : String) : Bool :=
  (e.eventKind = .findingStatusChanged || e.eventKind = .findingResolved) &&
    e.parentEventId = some findingId

/-- The table `security_events`. -/
structure Spine where
  rows : List SecurityEvent := []
  ids_nodup : (rows.map (·.eventId)).Nodup := by decide

inductive InsertError
  | idHeld
  | noParent
  | checkFailed
  deriving DecidableEq

namespace Spine

variable (s : Spine)

def ids : List String := s.rows.map (·.eventId)

/-- The row has a parent that is neither in the table nor itself. -/
def orphan (e : SecurityEvent) : Bool := e.parentEventId.any fun p => p ∉ s.ids ∧ p ≠ e.eventId

/-- `INSERT INTO security_events`, on a connection that enforces foreign keys or not. -/
def insert (enforced : Bool) (e : SecurityEvent) : Except InsertError Spine :=
  if e.honesty.admitted = false then .error .checkFailed
  else if held : e.eventId ∈ s.ids then .error .idHeld
  else if enforced && s.orphan e then .error .noParent
  else .ok ⟨s.rows ++ [e], by
    rw [List.map_append]
    exact List.nodup_append'.mpr ⟨s.ids_nodup, List.nodup_singleton _, by simpa [ids] using held⟩⟩

/-- `INSERT OR IGNORE`, of a row without a parent. -/
def insertOrIgnore (e : SecurityEvent) : Spine := (s.insert false e).toOption.getD s

def hasFinding (findingId : String) : Bool :=
  s.rows.any fun e => e.eventId = findingId && e.isFinding

end Spine

end Rows

section Status

/-- `TRIM`, which takes off spaces only. -/
def trim (text : String) : String :=
  String.ofList ((text.toList.dropWhile (· = ' ')).rdropWhile (· = ' '))

/-- The CASE of `FINDINGS_CURRENT_STATUS_SQL`. -/
def statusOf : Option String → String
  | none => "open"
  | some body =>
    trim (match find [':'] body.toList with
      | some i => String.ofList (body.toList.take i)
      | none => body)

/-- A row of the view that `FINDINGS_CURRENT_STATUS_SQL` selects. -/
structure StatusRow where
  findingId : String
  projectId : Option String
  workOrderId : Option String
  severity : Option String
  title : Option String
  filePath : Option String
  lineNumber : Option Int
  scannerType : Option String
  currentStatus : String
  lastStatusEventId : Option String
  createdAt : String
  updatedAt : String
  deriving DecidableEq

namespace Spine

variable (s : Spine)

/-- The status event on a finding that `rn = 1` picks. -/
def lastStatus (findingId : String) : Option SecurityEvent :=
  firstLeast SecurityEvent.stamp (s.rows.filter (·.speaksOf findingId))

def statusRow (r : SecurityEvent) : StatusRow :=
  let last := s.lastStatus r.eventId
  { findingId := r.eventId
    projectId := r.projectId
    workOrderId := r.workOrderId
    severity := r.severity
    title := r.title
    filePath := r.filePath
    lineNumber := r.lineNumber
    scannerType := r.scannerType
    currentStatus := statusOf (last.bind (·.body))
    lastStatusEventId := last.map (·.eventId)
    createdAt := r.createdAt
    updatedAt := (last.map (·.createdAt)).getD r.createdAt }

/-- `FINDINGS_CURRENT_STATUS_SQL`. -/
def currentStatus : List StatusRow := (s.rows.filter (·.isFinding)).map s.statusRow

end Spine

end Status

section Mutations

/-- What stands around a call: whether it owns its connection and so commits, whether that
connection enforces foreign keys, whether migration 161 has been applied, and whether the spool can
be written. -/
structure Around where
  owned : Bool
  enforced : Bool
  migrated : Bool
  spoolUp : Bool

inductive Announcement
  | recorded (findingId severity title : String) (projectId filePath scannerType : Option String)
  | statusChanged (findingId newStatus : String) (reason projectId : Option String)
  | execution (eventId : String)
  | logged (findingId severity status : String)
  | resolved (findingId : String) (resolution : Option String)
  deriving DecidableEq

/-- The spine, and what has been announced. -/
structure Surface where
  spine : Spine := {}
  spool : List Announcement := []

/-- The keyword arguments of `record_finding`. -/
structure Recorded where
  projectId : Option String := none
  workOrderId : Option String := none
  severity : String
  title : String
  body : Option String := none
  filePath : Option String := none
  lineNumber : Option Int := none
  scannerType : Option String := none
  cweId : Option String := none
  owaspCategory : Option String := none
  cveId : Option String := none
  vulnClass : Option String := none
  exploitability : Option String := none
  correlationId : Option String := none
  confidence : Option String := none
  coverage : Option String := none
  limitations : Limitations := .unsaid

def Recorded.row (f : Recorded) (migrated : Bool) (findingId now : String) : SecurityEvent where
  eventId := findingId
  parentEventId := none
  eventKind := .findingRecorded
  correlationId := f.correlationId
  projectId := f.projectId
  workOrderId := f.workOrderId
  scannerType := f.scannerType
  cweId := f.cweId
  owaspCategory := f.owaspCategory
  cveId := f.cveId
  filePath := f.filePath
  lineNumber := f.lineNumber
  vulnClass := f.vulnClass
  exploitability := f.exploitability
  severity := some f.severity
  title := some f.title
  body := f.body
  createdAt := now
  honesty := honestyColumns migrated (encodeHonesty f.confidence f.coverage f.limitations)

namespace Surface

variable (st : Surface) (around : Around)

def announce (a : Announcement) : Surface :=
  if around.spoolUp then { st with spool := st.spool ++ [a] } else st

/-- An INSERT on the connection of `_get_conn`. One that is not owned is closed without a commit,
and what it wrote goes with it. -/
def execute (e : SecurityEvent) : Except InsertError Surface :=
  (st.spine.insert around.enforced e).map fun s =>
    if around.owned then { st with spine := s } else st

/-- `record_finding`. -/
def recordFinding (f : Recorded) (findingId now : String) : Except InsertError Surface := do
  let st ← st.execute around (f.row around.migrated findingId now)
  return st.announce around
    (.recorded findingId f.severity f.title f.projectId f.filePath f.scannerType)

def statusBody (newStatus : String) : Option String → String
  | none => newStatus
  | some reason => newStatus ++ ": " ++ reason

def statusChange (eventId now findingId : String) (body : String)
    (projectId correlationId : Option String) : SecurityEvent where
  eventId := eventId
  parentEventId := some findingId
  eventKind := .findingStatusChanged
  correlationId := correlationId
  projectId := projectId
  body := some body
  createdAt := now

/-- `set_finding_status`. -/
def setFindingStatus (findingId newStatus : String) (projectId reason correlationId : Option String)
    (eventId now : String) : Except InsertError Surface := do
  let st ← st.execute around
    (statusChange eventId now findingId (statusBody newStatus reason) projectId correlationId)
  return st.announce around (.statusChanged findingId newStatus
    (reason.filter (· ≠ "")) (projectId.filter (· ≠ "")))

/-- What `dismiss_finding` answers. -/
inductive Dismissal
  | notFound
  | failed (e : InsertError)
  | dismissed (findingId reason status : String)
  deriving DecidableEq

/-- The connection `_get_conn(None)` hands out. -/
def borrowed (migrated spoolUp : Bool) : Around := ⟨false, true, migrated, spoolUp⟩

/-- `dismiss_finding`. -/
def dismissFinding (migrated spoolUp : Bool) (findingId reason eventId now : String) :
    Surface × Dismissal :=
  if st.spine.currentStatus.any (·.findingId = findingId) then
    match st.setFindingStatus (borrowed migrated spoolUp) findingId "false_positive" none
      (some reason) none eventId now with
    | .ok st => (st, .dismissed findingId reason "false_positive")
    | .error e => (st, .failed e)
  else (st, .notFound)

end Surface

end Mutations

section Emission

/-- What `emit_security_finding` hands to `record_security_finding`. -/
structure SecurityFinding where
  findingId : String
  processRunId : Option String := none
  projectId : Option String := none
  workOrderId : Option String := none
  taskId : Option String := none
  filePath : Option String := none
  startLine : Option Int := none
  ruleId : Option String := none
  category : Option String := none
  severity : String
  description : String := ""
  recommendation : Option String := none
  status : String := "open"
  confidence : Option String := none
  coverage : Option String := none
  limitations : Limitations := .unsaid

/-- `a or b` on texts. -/
def orText (a b : Option String) : Option String := (a.filter (· ≠ "")).or b

def SecurityFinding.row (v : SecurityFinding) (migrated : Bool) (now : String) : SecurityEvent where
  eventId := v.findingId
  eventKind := .findingRecorded
  correlationId := v.processRunId
  projectId := v.projectId
  workOrderId := orText v.workOrderId v.taskId
  filePath := v.filePath
  lineNumber := v.startLine
  vulnClass := orText v.ruleId v.category
  severity := some v.severity
  title := some v.description
  body := v.recommendation
  createdAt := now
  honesty := honestyColumns migrated (encodeHonesty v.confidence v.coverage v.limitations)

/-- The id and the time of a row that a call makes, and the reason its INSERT fails for, if it
does, other than the table's own constraints. -/
structure Stamped where
  eventId : String
  now : String
  fault : Option String := none

def validResolutions : List String :=
  ["fixed", "mitigated", "accepted", "false_positive", "resolved", "closed"]

def InsertError.reason : InsertError → String
  | .idHeld => "IntegrityError (SQLITE_CONSTRAINT_PRIMARYKEY)"
  | .noParent => "IntegrityError (SQLITE_CONSTRAINT_FOREIGNKEY)"
  | .checkFailed => "IntegrityError (SQLITE_CONSTRAINT_CHECK)"

namespace Spine

variable (s : Spine)

/-- `resolve_security_finding_reason`, and the spine it leaves in the transaction. -/
def resolveSecurityFinding (findingId : String) (resolution : Option String) (x : Stamped) :
    Spine × Option String :=
  let newStatus := (resolution.filter (· ∈ validResolutions)).getD "fixed"
  if s.hasFinding findingId then
    match x.fault with
    | some reason => (s, some reason)
    | none =>
      match s.insert true (Surface.statusChange x.eventId x.now findingId newStatus none none) with
      | .ok s => (s, none)
      | .error e => (s, some e.reason)
  else (s, some "finding not found")

/-- `record_security_finding`, and the spine it leaves in the transaction. -/
def recordSecurityFinding (migrated : Bool) (v : SecurityFinding) (x status : Stamped) :
    Spine × Option String :=
  match x.fault with
  | some reason => (s, some reason)
  | none =>
    match s.insert true (v.row migrated x.now) with
    | .error .idHeld => (s, some "duplicate finding id")
    | .error e => (s, some e.reason)
    | .ok s =>
      if v.status ≠ "" ∧ v.status ≠ "open" then
        let (s, reason) := s.resolveSecurityFinding v.findingId (some v.status) status
        (s, if reason = some "finding not found" then some "status event not written" else reason)
      else (s, none)

end Spine

namespace Surface

variable (st : Surface)

/-- `emit_security_finding`: only what has been committed is announced. -/
def emitSecurityFinding (around : Around) (v : SecurityFinding) (executionId : String)
    (x status : Stamped) : Surface × Option String :=
  if st.spine.hasFinding v.findingId then (st, some "duplicate security finding skipped")
  else
    match st.spine.recordSecurityFinding around.migrated v x status with
    | (_, some reason) =>
      (st, some (if reason = "duplicate finding id" then "duplicate security finding skipped"
        else "security finding write failed: " ++ reason))
    | (s, none) =>
      let st := { st with spine := s }
      ((st.announce around (.execution executionId)).announce around
        (.logged v.findingId v.severity v.status), none)

/-- `emit_security_finding_resolved`. -/
def emitSecurityFindingResolved (around : Around) (findingId : String) (resolution : Option String)
    (x : Stamped) : Surface × Option String :=
  match st.spine.resolveSecurityFinding findingId resolution x with
  | (_, some reason) =>
    (st, some (if reason = "finding not found" then "security finding not found: " ++ findingId
      else "security finding resolve failed: " ++ reason))
  | (s, none) => (({ st with spine := s } : Surface).announce around
    (.resolved findingId resolution), none)

/-- The row of `persist_scan_delta`. -/
def scanRun (deltaId now : String) (projectId : Option String) (body : String) : SecurityEvent where
  eventId := deltaId
  eventKind := .scanRunStarted
  projectId := projectId
  body := some body
  createdAt := now

/-- `persist_scan_delta`, whose INSERT OR IGNORE is lost on a connection it does not own. -/
def persistScanDelta (around : Around) (deltaId now : String) (projectId : Option String)
    (body : String) : Surface :=
  if around.owned then
    { st with spine := st.spine.insertOrIgnore (scanRun deltaId now projectId body) }
  else st

/-- A row of `_security_finding_rows`. -/
structure ImportedFinding where
  eventId : String
  projectId : String
  workOrderId : Option String
  severity : String
  vulnClass : String
  filePath : Option String
  lineNumber : Option Int
  title : String
  body : Option String
  createdAt : String

def ImportedFinding.row (f : ImportedFinding) : SecurityEvent where
  eventId := f.eventId
  eventKind := .findingRecorded
  projectId := some f.projectId
  workOrderId := f.workOrderId
  severity := some f.severity
  vulnClass := some f.vulnClass
  filePath := f.filePath
  lineNumber := f.lineNumber
  title := some f.title
  body := f.body
  createdAt := f.createdAt

/-- `_upsert` of an imported finding. -/
def importFinding (f : ImportedFinding) : Surface :=
  { st with spine := st.spine.insertOrIgnore f.row }

end Surface

end Emission

section System

inductive Write
  | record (around : Around) (f : Recorded) (findingId now : String)
  | setStatus (around : Around) (findingId newStatus : String)
      (projectId reason correlationId : Option String) (eventId now : String)
  | dismiss (migrated spoolUp : Bool) (findingId reason eventId now : String)
  | emit (around : Around) (v : SecurityFinding) (executionId : String) (x status : Stamped)
  | resolve (around : Around) (findingId : String) (resolution : Option String) (x : Stamped)
  | scanDelta (around : Around) (deltaId now : String) (projectId : Option String) (body : String)
  | import_ (f : Surface.ImportedFinding)

namespace Surface

variable (st : Surface)

def apply : Write → Surface
  | .record around f findingId now => (st.recordFinding around f findingId now).toOption.getD st
  | .setStatus around findingId newStatus projectId reason correlationId eventId now =>
    (st.setFindingStatus around findingId newStatus projectId reason correlationId eventId
      now).toOption.getD st
  | .dismiss migrated spoolUp findingId reason eventId now =>
    (st.dismissFinding migrated spoolUp findingId reason eventId now).1
  | .emit around v executionId x status => (st.emitSecurityFinding around v executionId x status).1
  | .resolve around findingId resolution x =>
    (st.emitSecurityFindingResolved around findingId resolution x).1
  | .scanDelta around deltaId now projectId body =>
    st.persistScanDelta around deltaId now projectId body
  | .import_ f => st.importFinding f

def run (writes : List Write) : Surface := writes.foldl apply st

end Surface

end System

section Growth

/-- What every row is that a call can write: a finding has no parent, no event resolves one, and the
CHECKs hold. -/
structure SecurityEvent.Plain (e : SecurityEvent) : Prop where
  root : e.isFinding = true → e.parentEventId = none
  spoken : e.eventKind ≠ .findingResolved
  admitted : e.honesty.admitted = true

def Spine.Grows (s t : Spine) : Prop := ∃ new, t.rows = s.rows ++ new ∧ ∀ e ∈ new, e.Plain

theorem Spine.Grows.refl (s : Spine) : s.Grows s :=
  ⟨[], (List.append_nil _).symm, List.forall_mem_nil _⟩

theorem Spine.Grows.trans {s t u : Spine} (first : s.Grows t) (second : t.Grows u) : s.Grows u := by
  obtain ⟨new, rows, plain⟩ := first
  obtain ⟨new', rows', plain'⟩ := second
  refine ⟨new ++ new', by rw [rows', rows, List.append_assoc], fun e member => ?_⟩
  exact (List.mem_append.mp member).elim (plain e) (plain' e)

theorem Spine.insert_ok {s t : Spine} {enforced : Bool} {e : SecurityEvent}
    (accepted : s.insert enforced e = .ok t) :
    t.rows = s.rows ++ [e] ∧ e.honesty.admitted = true := by
  rw [Spine.insert] at accepted
  split at accepted
  next => cases accepted
  next admitted =>
    split at accepted
    next => cases accepted
    next =>
      split at accepted
      next => cases accepted
      next =>
        cases accepted
        exact ⟨rfl, by simpa using admitted⟩

theorem Spine.grows_insert {s t : Spine} {enforced : Bool} {e : SecurityEvent}
    (accepted : s.insert enforced e = .ok t) (root : e.isFinding = true → e.parentEventId = none)
    (spoken : e.eventKind ≠ .findingResolved) :
    s.Grows t := by
  obtain ⟨rows, admitted⟩ := insert_ok accepted
  exact ⟨[e], rows, List.forall_mem_singleton.mpr ⟨root, spoken, admitted⟩⟩

theorem Spine.grows_insertOrIgnore (s : Spine) {e : SecurityEvent} (root : e.parentEventId = none)
    (spoken : e.eventKind ≠ .findingResolved) :
    s.Grows (s.insertOrIgnore e) := by
  rw [Spine.insertOrIgnore]
  cases accepted : s.insert false e with
  | error _ => exact .refl s
  | ok t => exact grows_insert accepted (fun _ => root) spoken

namespace Surface

variable {st st' : Surface} {around : Around}

theorem spine_announce (st : Surface) (around : Around) (a : Announcement) :
    (st.announce around a).spine = st.spine := by
  rw [announce]
  split <;> rfl

theorem grows_execute {e : SecurityEvent} (done : st.execute around e = .ok st')
    (root : e.isFinding = true → e.parentEventId = none) (spoken : e.eventKind ≠ .findingResolved) :
    st.spine.Grows st'.spine := by
  rw [execute] at done
  cases accepted : st.spine.insert around.enforced e with
  | error _ =>
    rw [accepted] at done
    cases done
  | ok t =>
    rw [accepted] at done
    cases done
    split
    · exact Spine.grows_insert accepted root spoken
    · exact .refl _

theorem grows_recordFinding (f : Recorded) (findingId now : String)
    (done : st.recordFinding around f findingId now = .ok st') : st.spine.Grows st'.spine := by
  rw [recordFinding] at done
  cases wrote : st.execute around (f.row around.migrated findingId now) with
  | error _ =>
    rw [wrote] at done
    cases done
  | ok t =>
    rw [wrote] at done
    cases done
    rw [spine_announce]
    exact grows_execute wrote (fun _ => rfl) nofun

theorem grows_setFindingStatus {findingId newStatus : String}
    {projectId reason correlationId : Option String} {eventId now : String}
    (done : st.setFindingStatus around findingId newStatus projectId reason correlationId eventId
      now = .ok st') : st.spine.Grows st'.spine := by
  rw [setFindingStatus] at done
  cases wrote : st.execute around (statusChange eventId now findingId
    (statusBody newStatus reason) projectId correlationId) with
  | error _ =>
    rw [wrote] at done
    cases done
  | ok t =>
    rw [wrote] at done
    cases done
    rw [spine_announce]
    exact grows_execute wrote nofun nofun

theorem grows_dismissFinding (st : Surface) (migrated spoolUp : Bool)
    (findingId reason eventId now : String) :
    st.spine.Grows (st.dismissFinding migrated spoolUp findingId reason eventId now).1.spine := by
  rw [dismissFinding]
  split
  · cases done : st.setFindingStatus (borrowed migrated spoolUp) findingId "false_positive" none
      (some reason) none eventId now with
    | ok t => exact grows_setFindingStatus done
    | error _ => exact .refl _
  · exact .refl _

end Surface

namespace Spine

variable {s : Spine}

theorem grows_resolve (findingId : String) (resolution : Option String) (x : Stamped) :
    s.Grows (s.resolveSecurityFinding findingId resolution x).1 := by
  rw [resolveSecurityFinding]
  split
  · cases x.fault with
    | some _ => exact .refl s
    | none =>
      dsimp only
      split
      next accepted => exact grows_insert accepted nofun nofun
      next => exact .refl s
  · exact .refl s

theorem grows_recordSecurityFinding (migrated : Bool) (v : SecurityFinding) (x status : Stamped) :
    s.Grows (s.recordSecurityFinding migrated v x status).1 := by
  rw [recordSecurityFinding]
  cases x.fault with
  | some _ => exact .refl s
  | none =>
    dsimp only
    split
    next => exact .refl s
    next => exact .refl s
    next t accepted =>
      have first : s.Grows t := grows_insert accepted (fun _ => rfl) nofun
      split
      · exact first.trans (grows_resolve v.findingId (some v.status) status)
      · exact first

end Spine

namespace Surface

theorem grows_emit (st : Surface) (around : Around) (v : SecurityFinding) (executionId : String)
    (x status : Stamped) :
    st.spine.Grows (st.emitSecurityFinding around v executionId x status).1.spine := by
  rw [emitSecurityFinding]
  split
  · exact .refl _
  · have grown := st.spine.grows_recordSecurityFinding around.migrated v x status
    split
    next => exact .refl _
    next s stored =>
      rw [stored] at grown
      simpa only [spine_announce] using grown

theorem grows_resolved (st : Surface) (around : Around) (findingId : String)
    (resolution : Option String) (x : Stamped) :
    st.spine.Grows (st.emitSecurityFindingResolved around findingId resolution x).1.spine := by
  rw [emitSecurityFindingResolved]
  have grown := st.spine.grows_resolve findingId resolution x
  split
  next => exact .refl _
  next s stored =>
    rw [stored] at grown
    simpa only [spine_announce] using grown

theorem grows_apply (st : Surface) (w : Write) : st.spine.Grows (st.apply w).spine := by
  cases w with
  | record around f findingId now =>
    rw [apply]
    cases done : st.recordFinding around f findingId now with
    | ok t => exact grows_recordFinding f findingId now done
    | error _ => exact .refl _
  | setStatus around findingId newStatus projectId reason correlationId eventId now =>
    rw [apply]
    cases done : st.setFindingStatus around findingId newStatus projectId reason correlationId
      eventId now with
    | ok t => exact grows_setFindingStatus done
    | error _ => exact .refl _
  | dismiss migrated spoolUp findingId reason eventId now =>
    exact grows_dismissFinding st migrated spoolUp findingId reason eventId now
  | emit around v executionId x status => exact grows_emit st around v executionId x status
  | resolve around findingId resolution x => exact grows_resolved st around findingId resolution x
  | scanDelta around deltaId now projectId body =>
    rw [apply, persistScanDelta]
    split
    · exact st.spine.grows_insertOrIgnore rfl nofun
    · exact .refl _
  | import_ f => exact st.spine.grows_insertOrIgnore rfl nofun

theorem grows_run (st : Surface) (writes : List Write) : st.spine.Grows (st.run writes).spine := by
  induction writes generalizing st with
  | nil => exact .refl _
  | cons w writes ih => exact (grows_apply st w).trans (ih (st.apply w))

end Surface

end Growth

section Reading

theorem statusOf_statusBody {status : String} (whole : ':' ∉ status.toList)
    (tight : trim status = status) (reason : Option String) :
    statusOf (some (Surface.statusBody status reason)) = status := by
  rw [statusOf]
  cases reason with
  | none =>
    rw [Surface.statusBody, find_eq_none_of_not_mem (List.mem_singleton_self ':') whole]
    exact tight
  | some reason =>
    have text : (Surface.statusBody status (some reason)).toList =
        status.toList ++ (':' :: ' ' :: reason.toList) := by
      simp [Surface.statusBody, String.toList_append]
    have at_ : find [':'] (status.toList ++ (':' :: ' ' :: reason.toList)) =
        some status.toList.length := by
      rw [find_append_of_not_mem whole, find_of_start (by simp)]
      rfl
    rw [text, at_]
    dsimp only
    rw [List.take_left, String.ofList_toList]
    exact tight

theorem Spine.eq_of_stamp (s : Spine) {d e : SecurityEvent} (hd : d ∈ s.rows) (he : e ∈ s.rows)
    (same : d.stamp = e.stamp) : d = e := by
  have ids := congrArg Prod.snd (toLex.injective (OrderDual.toDual.injective same))
  exact List.inj_on_of_nodup_map s.ids_nodup hd he ids

theorem lastStatus_perm {s t : Spine} (same : s.rows.Perm t.rows) (findingId : String) :
    s.lastStatus findingId = t.lastStatus findingId :=
  firstLeast_perm (same.filter _) fun _ hd _ he =>
    s.eq_of_stamp (List.mem_of_mem_filter hd) (List.mem_of_mem_filter he)

/-- The view depends on which rows the spine holds, and not on the order they came in. -/
theorem currentStatus_perm {s t : Spine} (same : s.rows.Perm t.rows) :
    s.currentStatus.Perm t.currentStatus := by
  have rows : s.statusRow = t.statusRow := by
    funext r
    simp only [Spine.statusRow, lastStatus_perm same]
  rw [Spine.currentStatus, Spine.currentStatus, rows]
  exact (same.filter _).map _

def twice : List SecurityEvent :=
  [Surface.statusChange "e-1" "2026-01-02T00:00:00.000000Z" "f-1" "resolved" none none,
    Surface.statusChange "e-2" "2026-01-02T00:00:00.000000Z" "f-1" "accepted" none none,
    { eventId := "f-1", eventKind := .findingRecorded, createdAt := "2026-01-01T00:00:00.000000Z" }]

theorem currentStatus_perm_reversed :
    (Spine.currentStatus { rows := twice }).Perm (Spine.currentStatus { rows := twice.reverse }) :=
  currentStatus_perm (List.reverse_perm twice).symm

end Reading

section Latest

variable {s t : Spine}

theorem lastStatus_append {e : SecurityEvent} (rows : t.rows = s.rows ++ [e]) (findingId : String) :
    t.lastStatus findingId =
      if e.speaksOf findingId then better SecurityEvent.stamp (s.lastStatus findingId) e
      else s.lastStatus findingId := by
  rw [Spine.lastStatus, rows, List.filter_append, List.filter_singleton]
  cases e.speaksOf findingId with
  | true =>
    rw [cond_true, firstLeast_append]
    rfl
  | false =>
    rw [cond_false, List.append_nil]
    rfl

/-- The stamp is later than that of every status event on the finding. -/
def Spine.Later (s : Spine) (findingId : String) (e : SecurityEvent) : Prop :=
  ∀ d ∈ s.rows, d.speaksOf findingId = true → e.stamp < d.stamp

theorem better_of_later {e : SecurityEvent} {findingId : String} (later : s.Later findingId e) :
    better SecurityEvent.stamp (s.lastStatus findingId) e = some e := by
  cases last : s.lastStatus findingId with
  | none => rfl
  | some d =>
    obtain ⟨member, speaks⟩ := List.mem_filter.mp (firstLeast_spec last).mem
    exact if_pos (later d member speaks)

/-- A status that is stored, on a connection that commits, under a later stamp, is the one that is
read of its finding, whatever the reason; what is read of the others is as before. -/
theorem setFindingStatus_read {st st' : Surface} {around : Around} (owned : around.owned = true)
    {findingId status : String} {projectId reason correlationId : Option String}
    {eventId now : String} (whole : ':' ∉ status.toList) (tight : trim status = status)
    (later : st.spine.Later findingId (Surface.statusChange eventId now findingId
      (Surface.statusBody status reason) projectId correlationId))
    (done : st.setFindingStatus around findingId status projectId reason correlationId eventId now =
      .ok st') :
    ∀ r : SecurityEvent, (st'.spine.statusRow r).currentStatus =
      if r.eventId = findingId then status else (st.spine.statusRow r).currentStatus := by
  intro r
  rw [Surface.setFindingStatus, Surface.execute] at done
  cases accepted : st.spine.insert around.enforced (Surface.statusChange eventId now findingId
      (Surface.statusBody status reason) projectId correlationId) with
  | error _ =>
    rw [accepted] at done
    cases done
  | ok t =>
    rw [accepted, owned] at done
    cases done
    have rows := (Spine.insert_ok accepted).1
    rw [Surface.spine_announce]
    have latest := lastStatus_append rows r.eventId
    change statusOf ((t.lastStatus r.eventId).bind (·.body)) = _
    rw [latest]
    by_cases own : r.eventId = findingId
    · have speaks : (Surface.statusChange eventId now findingId (Surface.statusBody status reason)
          projectId correlationId).speaksOf r.eventId = true := by
        simp [SecurityEvent.speaksOf, Surface.statusChange, own]
      rw [if_pos speaks, if_pos own, own, better_of_later later]
      exact statusOf_statusBody whole tight reason
    · have silent : (Surface.statusChange eventId now findingId (Surface.statusBody status reason)
          projectId correlationId).speaksOf r.eventId = false := by
        simp [SecurityEvent.speaksOf, Surface.statusChange, Ne.symm own]
      rw [if_neg (by simp [silent]), if_neg own]
      rfl

def leak : Recorded := { severity := "high", title := "token in the log", vulnClass := "sec-013" }

def owned : Around := ⟨true, false, true, true⟩

def leaked : Surface where
  spine := { rows := [leak.row true "f-1" "2026-01-01T00:00:00.000000Z"] }

theorem setFindingStatus_read_resolved : ∃ st', leaked.setFindingStatus owned "f-1" "resolved" none
      (some "fixed: in 4f2") none "e-1" "2026-01-02T00:00:00.000000Z" = .ok st' ∧
    (st'.spine.statusRow (leak.row true "f-1" "2026-01-01T00:00:00.000000Z")).currentStatus =
      "resolved" := by
  have later :
      leaked.spine.Later "f-1" (Surface.statusChange "e-1" "2026-01-02T00:00:00.000000Z" "f-1"
      (Surface.statusBody "resolved" (some "fixed: in 4f2")) none none) := by
    intro d member speaks
    cases List.mem_singleton.mp member
    cases speaks
  have done : leaked.setFindingStatus owned "f-1" "resolved" none (some "fixed: in 4f2") none "e-1"
      "2026-01-02T00:00:00.000000Z" = .ok _ := rfl
  exact ⟨_, done, (setFindingStatus_read rfl (by decide) (by decide) later done _).trans
    (if_pos rfl)⟩

end Latest

section Borrowed

/-- The call writes on the connection `_get_conn(None)` hands out. -/
def Write.borrowed : Write → Bool
  | .record around _ _ _ => !around.owned
  | .setStatus around _ _ _ _ _ _ _ => !around.owned
  | .dismiss _ _ _ _ _ _ => true
  | .scanDelta around _ _ _ _ => !around.owned
  | .emit _ _ _ _ _ | .resolve _ _ _ _ | .import_ _ => false

variable {st st' : Surface} {around : Around}

theorem execute_borrowed (lent : around.owned = false) {e : SecurityEvent}
    (done : st.execute around e = .ok st') : st' = st := by
  rw [Surface.execute] at done
  cases accepted : st.spine.insert around.enforced e with
  | error _ =>
    rw [accepted] at done
    cases done
  | ok t =>
    rw [accepted, lent] at done
    cases done
    rfl

theorem setFindingStatus_borrowed (lent : around.owned = false) {findingId newStatus : String}
    {projectId reason correlationId : Option String} {eventId now : String}
    (done : st.setFindingStatus around findingId newStatus projectId reason correlationId eventId
      now = .ok st') : st'.spine = st.spine := by
  rw [Surface.setFindingStatus] at done
  cases wrote : st.execute around (Surface.statusChange eventId now findingId
    (Surface.statusBody newStatus reason) projectId correlationId) with
  | error _ =>
    rw [wrote] at done
    cases done
  | ok t =>
    rw [wrote] at done
    cases done
    rw [Surface.spine_announce, execute_borrowed lent wrote]

theorem recordFinding_borrowed (lent : around.owned = false) {f : Recorded} {findingId now : String}
    (done : st.recordFinding around f findingId now = .ok st') : st'.spine = st.spine := by
  rw [Surface.recordFinding] at done
  cases wrote : st.execute around (f.row around.migrated findingId now) with
  | error _ =>
    rw [wrote] at done
    cases done
  | ok t =>
    rw [wrote] at done
    cases done
    rw [Surface.spine_announce, execute_borrowed lent wrote]

theorem dismissFinding_spine (st : Surface) (migrated spoolUp : Bool)
    (findingId reason eventId now : String) :
    (st.dismissFinding migrated spoolUp findingId reason eventId now).1.spine = st.spine := by
  rw [Surface.dismissFinding]
  split
  · cases done : st.setFindingStatus (Surface.borrowed migrated spoolUp) findingId "false_positive"
      none (some reason) none eventId now with
    | ok t => exact setFindingStatus_borrowed rfl done
    | error _ => rfl
  · rfl

theorem apply_borrowed (st : Surface) {w : Write} (lent : w.borrowed = true) :
    (st.apply w).spine = st.spine := by
  cases w with
  | record around f findingId now =>
    rw [Surface.apply]
    cases done : st.recordFinding around f findingId now with
    | ok t => exact recordFinding_borrowed (by simpa [Write.borrowed] using lent) done
    | error _ => rfl
  | setStatus around findingId newStatus projectId reason correlationId eventId now =>
    rw [Surface.apply]
    cases done : st.setFindingStatus around findingId newStatus projectId reason correlationId
      eventId now with
    | ok t => exact setFindingStatus_borrowed (by simpa [Write.borrowed] using lent) done
    | error _ => rfl
  | dismiss migrated spoolUp findingId reason eventId now =>
    exact dismissFinding_spine st migrated spoolUp findingId reason eventId now
  | scanDelta around deltaId now projectId body =>
    have lost : around.owned = false := by simpa [Write.borrowed] using lent
    rw [Surface.apply, Surface.persistScanDelta, lost]
    rfl
  | emit | resolve | import_ => cases lent

theorem insert_accepts {s : Spine} {e : SecurityEvent} (enforced : Bool)
    (admitted : e.honesty.admitted = true) (fresh : e.eventId ∉ s.ids)
    (orphan : s.orphan e = false) :
    ∃ t, s.insert enforced e = .ok t := by
  rw [Spine.insert, if_neg (by simp [admitted]), dif_neg fresh, orphan, Bool.and_false]
  exact ⟨_, rfl⟩

theorem dismissFinding_answer (st : Surface) (migrated spoolUp : Bool)
    {findingId eventId : String} (reason now : String) (held : st.spine.hasFinding findingId = true)
    (fresh : eventId ∉ st.spine.ids) :
    (st.dismissFinding migrated spoolUp findingId reason eventId now).2 =
      .dismissed findingId reason "false_positive" := by
  obtain ⟨r, member, both⟩ := List.any_eq_true.mp held
  rw [Bool.and_eq_true, decide_eq_true_eq] at both
  have shown : st.spine.currentStatus.any (·.findingId = findingId) = true := by
    apply List.any_eq_true.mpr
    refine ⟨st.spine.statusRow r, List.mem_map_of_mem (List.mem_filter.mpr ⟨member, both.2⟩), ?_⟩
    exact decide_eq_true both.1
  have parent : findingId ∈ st.spine.ids := both.1 ▸ List.mem_map_of_mem member
  obtain ⟨t, stored⟩ : ∃ t, st.spine.insert true (Surface.statusChange eventId now findingId
      (Surface.statusBody "false_positive" (some reason)) none none) = .ok t := by
    apply insert_accepts true rfl fresh
    simp [Spine.orphan, Surface.statusChange, parent]
  rw [Surface.dismissFinding, if_pos shown, Surface.setFindingStatus, Surface.execute]
  simp only [Surface.borrowed, stored]
  rfl

/-- In every run of calls on borrowed connections nothing is stored. A finding that is dismissed
after it is reported as a false positive, and reads as it did before. -/
theorem borrowed_run {writes : List Write} (lent : ∀ w ∈ writes, Write.borrowed w = true) :
    (st.run writes).spine = st.spine ∧
      ∀ findingId reason eventId now, st.spine.hasFinding findingId = true →
        eventId ∉ st.spine.ids → ∀ migrated spoolUp,
          ((st.run writes).dismissFinding migrated spoolUp findingId reason eventId now).2 =
              .dismissed findingId reason "false_positive" ∧
            ((st.run writes).dismissFinding migrated spoolUp findingId reason eventId
              now).1.spine = st.spine := by
  have kept : (st.run writes).spine = st.spine := by
    induction writes generalizing st with
    | nil => rfl
    | cons w writes ih =>
      rw [List.forall_mem_cons] at lent
      exact (ih lent.2).trans (apply_borrowed st lent.1)
  refine ⟨kept, fun findingId reason eventId now held fresh migrated spoolUp => ⟨?_, ?_⟩⟩
  · exact dismissFinding_answer _ migrated spoolUp reason now (kept ▸ held) (kept ▸ fresh)
  · exact (dismissFinding_spine _ migrated spoolUp findingId reason eventId now).trans kept

theorem borrowed_run_dismissed :
    ((leaked.run [.dismiss true true "f-1" "noise" "e-1" "t-1"]).dismissFinding true
      true "f-1" "noise"
      "e-2" "t-2").2 = .dismissed "f-1" "noise" "false_positive" :=
  ((borrowed_run (by decide)).2 "f-1" "noise" "e-2" "t-2" rfl (by decide) true true).1

end Borrowed

end DreamStudio.Findings
