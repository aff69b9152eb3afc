import DreamStudio.Library.Dict
import DreamStudio.Library.Machine
import Mathlib.Data.List.Sort
import Mathlib.Data.String.Basic

namespace DreamStudio.Hooks

open Library

structure QueueRecord where
  event : String
  payload : String
  deriving DecidableEq

/-- Where a call of `drain` stands: the rotated files it goes through are known by the time in their
names. -/
inductive DrainPhase
  | globbed (paths : List Nat)
  | reading (processed : Nat) (paths : List Nat)
  | unlinking (processed : Nat) (path : Nat) (rest : List Nat)
  | finished
  deriving DecidableEq

namespace DrainPhase

/-- The top of the loop. -/
def next (processed : Nat) : List Nat → DrainPhase
  | [] => .finished
  | path :: rest => .reading processed (path :: rest)

def unread : DrainPhase → List Nat
  | .globbed paths => paths
  | .reading _ paths => paths
  | .unlinking _ _ rest => rest
  | .finished => []

def unlinks : DrainPhase → Option Nat
  | .unlinking _ path _ => some path
  | _ => none

def below (cap : Nat) : DrainPhase → Bool
  | .reading processed (_ :: _) => processed < cap
  | _ => true

@[simp] theorem unread_next (processed : Nat) (paths : List Nat) :
    (next processed paths).unread = paths := by
  cases paths <;> rfl

@[simp] theorem unlinks_next (processed : Nat) (paths : List Nat) :
    (next processed paths).unlinks = none := by
  cases paths <;> rfl

end DrainPhase

/-- The files by their inode, the names that lead to one, the handles that have yet to append, the
calls of `drain`, and every record that was appended and that was handed to a handler. -/
structure HookQueue where
  files : List (List QueueRecord) := []
  live : Option Nat := none
  rotated : Dict Nat Nat := []
  handles : List Nat := []
  drainers : List DrainPhase := []
  appended : List QueueRecord := []
  handed : List QueueRecord := []

/-- A writer opens the queue, or appends its line and closes; a call of `drain` begins with its
glob, or makes its next step. -/
inductive QueueMove
  | openQueue
  | append (handle : Nat) (record : QueueRecord)
  | drain
  | advance (drainer : Nat) (now : Nat)
  deriving DecidableEq

namespace HookQueue

variable (s : HookQueue)

def file (inode : Nat) : List QueueRecord := (s.files[inode]?).getD []

def openQueue : HookQueue :=
  match s.live with
  | some inode => { s with handles := s.handles ++ [inode] }
  | none =>
    { s with
      files := s.files ++ [[]]
      live := some s.files.length
      handles := s.handles ++ [s.files.length] }

def append (handle : Nat) (record : QueueRecord) : Option HookQueue :=
  (s.handles[handle]?).map fun inode =>
    { s with
      files := s.files.modify inode (· ++ [record])
      handles := s.handles.eraseIdx handle
      appended := s.appended ++ [record] }

def rotatedName (time : Nat) : String := "hookq." ++ toString time ++ ".jsonl"

/-- `sorted(paths.state_dir().glob(_ROTATED_GLOB))`. -/
def glob : List Nat := s.rotated.keys.insertionSort fun a b => rotatedName a ≤ rotatedName b

def startDrain : HookQueue := { s with drainers := s.drainers ++ [.globbed s.glob] }

def goes (drainer : Nat) (phase : DrainPhase) : HookQueue :=
  { s with drainers := s.drainers.set drainer phase }

/-- `_rotate`: the rename replaces a file of its name. -/
def rotate (drainer now : Nat) (paths : List Nat) : HookQueue :=
  match s.live with
  | none => s.goes drainer (.next 0 paths)
  | some inode =>
    if s.file inode = [] then s.goes drainer (.next 0 paths)
    else
      { s with live := none, rotated := s.rotated.set now inode }.goes drainer
        (.next 0 (if now ∈ paths then paths else paths ++ [now]))

/-- Every record of the file goes to the handler; a file that is gone has none. -/
def read (drainer processed path : Nat) (rest : List Nat) : HookQueue :=
  let records := ((s.rotated.get path).map s.file).getD []
  { s with handed := s.handed ++ records }.goes drainer
    (.unlinking (processed + records.length) path rest)

def unlink (drainer processed path : Nat) (rest : List Nat) : HookQueue :=
  { s with rotated := s.rotated.erase path }.goes drainer (.next processed rest)

def advance (cap drainer now : Nat) : DrainPhase → Option HookQueue
  | .globbed paths => some (s.rotate drainer now paths)
  | .reading processed (path :: rest) =>
    if cap ≤ processed then some (s.goes drainer .finished)
    else some (s.read drainer processed path rest)
  | .reading _ [] => some (s.goes drainer .finished)
  | .unlinking processed path rest => some (s.unlink drainer processed path rest)
  | .finished => none

def step (cap : Nat) : QueueMove → Option HookQueue
  | .openQueue => some s.openQueue
  | .append handle record => s.append handle record
  | .drain => some s.startDrain
  | .advance drainer now => (s.drainers[drainer]?).bind (s.advance cap drainer now)

end HookQueue

/-- `cap` is `MAX_RECORDS_PER_DRAIN`. -/
def hookQueue (cap : Nat) : Machine HookQueue QueueMove where
  step s m := s.step cap m

end DreamStudio.Hooks
