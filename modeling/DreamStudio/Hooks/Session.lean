import DreamStudio.Library.Machine

namespace DreamStudio.Hooks

open Library

/-- A time as `now_iso` prints it; `parse_ts` reads the same time back. -/
abbrev Instant := Nat

/-- What happened to a write or an unlink: done, refused with the file as it was, or broken off. -/
inductive Outcome
  | done
  | refused
  | torn
  deriving DecidableEq

structure Edit where
  path : String
  projectId : String
  workOrderId : Option String
  claimants : List String
  attribution : Option String
  ts : Instant
  deriving DecidableEq

structure Posture where
  mode : String
  posture : String
  recordedAt : Instant
  deriving DecidableEq

/-- The dict in a session file; `none` is a key it does not have. -/
structure Session where
  sessionId : Option String := none
  startedAt : Option Instant := none
  sourceEdits : Option (List Edit) := none
  docEdits : Option (List Edit) := none
  stopBlockedAt : Option (Option Instant) := none
  activeSkillPosture : Option Posture := none
  deriving DecidableEq

inductive SessionFile
  | absent
  | unreadable
  | holds (s : Session)
  deriving DecidableEq

inductive EditKind
  | source
  | doc
  deriving DecidableEq

structure EditArgs where
  filePath : String
  kind : EditKind
  projectId : String
  workOrderId : Option String
  claimants : Option (List String) := none
  attribution : Option String := none

structure Disk where
  reads : Bool := true
  save : Outcome := .done

inductive SessionCall
  | posture (mode posture : String) (now : Instant) (disk : Disk)
  | edit (e : EditArgs) (opened now : Instant) (disk : Disk)
  | delete (unlink : Outcome)

section Session

variable (resolve : String → Option String) (sessionId : String)

def loadSession (disk : Disk) : SessionFile → Option Session
  | .holds s => if disk.reads then some s else none
  | _ => none

/-- `load_session(...)` in a place where an empty dict counts as none. -/
def found (disk : Disk) (f : SessionFile) : Option Session :=
  (loadSession disk f).filter (· ≠ {})

def saveSession (disk : Disk) (s : Session) (f : SessionFile) : SessionFile :=
  match disk.save with
  | .done => .holds s
  | .refused => f
  | .torn => .unreadable

def recordSkillPosture (mode posture : String) (now : Instant) (disk : Disk) (f : SessionFile) :
    SessionFile :=
  if sessionId = "" ∨ mode = "" ∨ posture = "" then f
  else saveSession disk { (found disk f).getD {} with activeSkillPosture := some ⟨mode, posture, now⟩ } f

/-- The session `record_edit` starts with when it finds none. -/
def freshSession (opened : Instant) : Session where
  sessionId := some sessionId
  startedAt := some opened
  sourceEdits := some []
  docEdits := some []
  stopBlockedAt := some none

def bucketLimit : Nat := 500

/-- `value or None`, `value or []`: an empty text counts as none. -/
def given (value : Option String) : Option String := value.filter (· ≠ "")

def EditArgs.claims (e : EditArgs) : List String :=
  match e.claimants with
  | some (c :: cs) => c :: cs
  | _ => (given e.workOrderId).toList

def normalized (e : EditArgs) : String := (resolve e.filePath).getD e.filePath

def EditArgs.entry (e : EditArgs) (now : Instant) : Edit where
  path := normalized resolve e
  projectId := e.projectId
  workOrderId := e.workOrderId
  claimants := e.claims
  attribution := e.attribution
  ts := now

def EditArgs.renew (e : EditArgs) (now : Instant) (entry : Edit) : Edit :=
  { entry with
    workOrderId := e.workOrderId
    claimants := e.claims
    attribution := (given e.attribution).or entry.attribution
    ts := now }

/-- The `for` loop over a bucket; `none` when it ends without a `break`. -/
def renewFirst (e : EditArgs) (now : Instant) (path : String) : List Edit → Option (List Edit)
  | [] => none
  | entry :: entries =>
    if entry.path = path then some (e.renew now entry :: entries)
    else (renewFirst e now path entries).map (entry :: ·)

def recordIn (e : EditArgs) (now : Instant) (bucket : List Edit) : List Edit :=
  match renewFirst e now (normalized resolve e) bucket with
  | some renewed => renewed
  | none => if bucket.length < bucketLimit then bucket ++ [e.entry resolve now] else bucket

def Session.record (e : EditArgs) (now : Instant) (s : Session) : Session :=
  match e.kind with
  | .source => { s with sourceEdits := some (recordIn resolve e now (s.sourceEdits.getD [])) }
  | .doc => { s with docEdits := some (recordIn resolve e now (s.docEdits.getD [])) }

def recordEdit (e : EditArgs) (opened now : Instant) (disk : Disk) (f : SessionFile) :
    SessionFile :=
  saveSession disk (((found disk f).getD (freshSession sessionId opened)).record resolve e now) f

def deleteSession (unlink : Outcome) (f : SessionFile) : SessionFile :=
  if unlink = .done then .absent else f

def SessionCall.apply : SessionCall → SessionFile → SessionFile
  | .posture mode declared now disk => recordSkillPosture sessionId mode declared now disk
  | .edit e opened now disk => recordEdit resolve sessionId e opened now disk
  | .delete unlink => deleteSession unlink

def session : Machine SessionFile SessionCall where
  step f call := some (call.apply resolve sessionId f)

end Session

end DreamStudio.Hooks
