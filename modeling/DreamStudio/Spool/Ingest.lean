import DreamStudio.Library.Machine
import DreamStudio.Spool.Database
import Mathlib.Data.List.Sort

namespace DreamStudio.Spool

open Library

/-- The directories of `SpoolState` the ingestor moves files between. -/
inductive Dir
  | spool
  | processing
  | processed
  | failed
  deriving DecidableEq

/-- A file, whatever its path: `os.replace` keeps the inode. `content` is what
`json.loads(path.read_text(encoding="utf-8"))` makes of its bytes. -/
structure SpoolFile where
  inode : Nat
  name : String
  content : Loaded
  dir : Dir

def SpoolFile.path (f : SpoolFile) : Option (Dir × String) := some (f.dir, f.name)

def SpoolFile.inodeKey (f : SpoolFile) : Option Nat := some f.inode

def SpoolFile.at (f : SpoolFile) (dir : Dir) (name : String) : Bool := f.dir = dir ∧ f.name = name

structure OsError where
  notFound : Bool
  message : String

def OsError.raised (e : OsError) : Raised :=
  if e.notFound then .fileNotFound e.message else .other e.message

/-- The rename of `os.replace`: what is at the destination goes. -/
def rename (files : List SpoolFile) (name : String) (src dst : Dir) : List SpoolFile :=
  Table.update (·.at src name) (fun f => { f with dir := dst })
    (files.filter fun f => !f.at dst name)

def replace (files : List SpoolFile) (name : String) (src dst : Dir) (fault : Option OsError) :
    Except OsError (List SpoolFile) :=
  match fault with
  | some e => .error e
  | none =>
    if files.any (·.at src name) then .ok (rename files name src dst)
    else .error ⟨true, "No such file or directory"⟩

structure IngestResult where
  processed : Nat := 0
  failed : Nat := 0
  skipped : Nat := 0
  lockError : Bool := false
  deriving DecidableEq

/-- The directories under the spool root, and the database. `log` is no part of them: the envelopes
whose file was moved to processed/, the newest first. -/
structure Root where
  files : List SpoolFile := []
  nextInode : Nat := 0
  reasons : List (String × String) := []
  db : Database := {}
  result : IngestResult := {}
  log : List Fields := []

/-- What the environment does to one turn of the loop: the clock, and what each operation raises. -/
structure Turn where
  now : Nat := 0
  claim : Option OsError := none
  read : Option OsError := none
  raw : Option Raised := none
  restore : Option OsError := none
  dual : Option Raised := none
  finish : Option OsError := none
  reason : Option OsError := none
  fail : Option OsError := none

namespace Root

/-- `_move_to_failed`: both the reason and the move are best effort. -/
def moveToFailed (s : Root) (t : Turn) (name : String) (src : Dir) (reason : String) : Root :=
  let s :=
    match t.reason with
    | some _ => s
    | none => { s with reasons := (name, reason) :: s.reasons.filter (·.1 ≠ name) }
  match replace s.files name src .failed t.fail with
  | .ok files => { s with files := files }
  | .error _ => s

def countFailed (s : Root) : Root :=
  { s with result := { s.result with failed := s.result.failed + 1 } }

def countSkipped (s : Root) (lockError : Bool) : Root :=
  { s with
    result :=
      { s.result with
        skipped := s.result.skipped + 1, lockError := s.result.lockError || lockError } }

/-- The writes of `_process_one`, and the move that ends it. -/
def writeEvent (env : Env) (t : Turn) (s : Root) (name : String) (envelope : Fields) :
    Root × Option Raised :=
  match env.writeToRawSqlite t.raw t.now envelope s.db with
  | .error e =>
    match replace s.files name .processing .spool t.restore with
    | .ok files => ({ s with files := files }, some e)
    | .error _ => (s, some e)
  | .ok db =>
    match env.writeToDualCanonical t.dual t.now envelope db with
    | .error e => ({ s with db := db }, some e)
    | .ok db =>
      match replace s.files name .processing .processed t.finish with
      | .error e => ({ s with db := db }, some e.raised)
      | .ok files =>
        ({ s with
            files := files, db := db, log := envelope :: s.log
            result := { s.result with processed := s.result.processed + 1 } },
          none)

/-- What `json.loads(processing_path.read_text(…))` gives; an `OSError` is caught with the
`JSONDecodeError`. -/
def readFile (t : Turn) (s : Root) (name : String) : Loaded :=
  match t.read with
  | some e => .malformed e.message
  | none =>
    match s.files.find? (·.at .processing name) with
    | some f => f.content
    | none => .malformed "No such file or directory"

/-- `_process_one` after the claim. -/
def processClaimed (env : Env) (t : Turn) (s : Root) (name : String) : Root × Option Raised :=
  match s.readFile t name with
  | .malformed message =>
    ((s.moveToFailed t name .processing ("parse_error: " ++ message)).countFailed, none)
  | .raises message => (s, some (.other message))
  | .value data =>
    match check data with
    | .error e => (s, some e)
    | .ok (some reason) => ((s.moveToFailed t name .processing reason).countFailed, none)
    | .ok none =>
      match data with
      | .obj envelope => s.writeEvent env t name envelope
      | _ => (s, none)

/-- `_process_one`: the state it leaves, and what it raises. -/
def processOne (env : Env) (t : Turn) (s : Root) (name : String) : Root × Option Raised :=
  match replace s.files name .spool .processing t.claim with
  | .error e => (s, some e.raised)
  | .ok files => processClaimed env t { s with files := files } name

/-- `"locked" in str(e).lower() or "busy" in str(e).lower()`. -/
def isLock (message : String) : Bool :=
  contains (pyLower message) "locked" || contains (pyLower message) "busy"

/-- The `except` clauses around `_process_one`: they know the path the file had in spool/. -/
def settle (t : Turn) (name : String) : Root × Option Raised → Root
  | (s, none) => s
  | (s, some (.operational message)) =>
    if isLock message then s.countSkipped true
    else (s.moveToFailed t name .spool ("sqlite_error: " ++ message)).countFailed
  | (s, some (.fileNotFound _)) => s.countSkipped false
  | (s, some (.other message)) => (s.moveToFailed t name .spool message).countFailed

/-- The body of the loop of `ingest`. -/
def ingestFile (env : Env) (t : Turn) (s : Root) (name : String) : Root :=
  settle t name (processOne env t s name)

/-- What `spool_dir.glob("*.json")` finds. -/
def isPending (f : SpoolFile) : Bool :=
  f.dir = .spool ∧ ".json".toList.isSuffixOf f.name.toList

/-- `sorted(spool_dir.glob("*.json"))`. -/
def pending (s : Root) : List String :=
  ((s.files.filter isPending).map (·.name)).insertionSort (· ≤ ·)

/-- `ingest`; the environment may treat each file differently. -/
def ingest (env : Env) (turns : String → Turn) (s : Root) : Root :=
  s.pending.foldl (fun s name => s.ingestFile env (turns name) name) { s with result := {} }

/-- `write_event`: a new file, moved to its name in spool/. -/
def write (s : Root) (name : String) (content : Loaded) : Root :=
  { s with
    files := (s.files.filter fun f => !f.at .spool name) ++
      [{ inode := s.nextInode, name := name, content := content, dir := .spool }]
    nextInode := s.nextInode + 1 }

end Root

end DreamStudio.Spool
