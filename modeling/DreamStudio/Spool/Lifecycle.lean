import DreamStudio.Library.Dict
import DreamStudio.Library.Json
import DreamStudio.Library.Machine

namespace DreamStudio.Spool

open Library

/-- A date by its ordinal, where 1 is the first of January of the year 1. -/
abbrev Ordinal := Nat

section Dates

def weekday (date : Ordinal) : Nat := (date + 6) % 7

def leap (year : Nat) : Bool := year % 4 = 0 ∧ (year % 100 ≠ 0 ∨ year % 400 = 0)

def monthLengths (year : Nat) : List Nat :=
  [31, if leap year then 29 else 28, 31, 30, 31, 30, 31, 31, 30, 31, 30, 31]

def monthDay : List Nat → Nat → Nat × Nat
  | [], day => (1, day + 1)
  | length :: rest, day =>
    if day < length then (1, day + 1)
    else
      let (month, day) := monthDay rest (day - length)
      (month + 1, day)

/-- `date.fromordinal`, by cycles of 400, 100, 4 and 1 years. -/
def yearMonthDay (date : Ordinal) : Nat × Nat × Nat :=
  let n := date - 1
  let n400 := n / 146097
  let n100 := n % 146097 / 36524
  let n4 := n % 146097 % 36524 / 1461
  let n1 := n % 146097 % 36524 % 1461 / 365
  let year := n400 * 400 + n100 * 100 + n4 * 4 + n1 + 1
  if n1 = 4 ∨ n100 = 4 then (year - 1, 12, 31)
  else (year, monthDay (monthLengths year) (n % 146097 % 36524 % 1461 % 365))

def padded (width n : Nat) : String :=
  let digits := toString n
  String.ofList (List.replicate (width - digits.length) '0') ++ digits

def isoformat (date : Ordinal) : String :=
  let (year, month, day) := yearMonthDay date
  padded 4 year ++ "-" ++ padded 2 month ++ "-" ++ padded 2 day

example : isoformat 739621 = "2026-01-05" ∧ weekday 739621 = 0 := by decide +kernel

/-- `_prior_week_monday`; a date before the year 1 overflows. -/
def priorWeekMonday (today : Ordinal) : Option Ordinal :=
  if weekday today + 7 < today then some (today - weekday today - 7) else none

end Dates

/-- The bytes of a file of `processed/`, or a zip file: its entries, and whether they all read
back. -/
inductive Content
  | event (bytes : List UInt8)
  | zip (entries : List (String × Content)) (intact : Bool)

abbrev Entries := List (String × Content)

structure Stored where
  mtime : Int
  content : Content

abbrev Directory := Dict String Stored

inductive Folder
  | processed
  | archives

inductive Kind
  | week (monday : Ordinal)
  | year (year : Int)

namespace Kind

def folder : Kind → Folder
  | .week _ => .processed
  | .year _ => .archives

/-- `archive_name`, `year_archive_name`. -/
def target : Kind → String
  | .week monday => "spool-processed-" ++ isoformat monday ++ ".zip"
  | .year y => "spool-processed-" ++ toString y ++ ".zip"

def finds (kind : Kind) (name : String) : Bool :=
  match kind with
  | .week _ => ".json".toList.isSuffixOf name.toList
  | .year y =>
    startsWith name ("spool-processed-" ++ toString y ++ "-") &&
      ".zip".toList.isSuffixOf name.toList

/-- `start_ts <= mtime < end_ts`, by the local time of midnight. -/
def keeps (midnight : Ordinal → Int) (kind : Kind) (file : Stored) : Bool :=
  match kind with
  | .week monday => midnight monday ≤ file.mtime ∧ file.mtime < midnight (monday + 7)
  | .year _ => true

end Kind

inductive Call
  | archiveWeek (today : Ordinal)
  | consolidateYear (year : Option Int) (today : Ordinal)

def Call.kind : Call → Option Kind
  | .archiveWeek today => (priorWeekMonday today).map .week
  | .consolidateYear year today => some (.year (year.getD ((yearMonthDay today).1 - 1)))

/-- Where a call has got to: what it still has to look at, to write or to unlink. -/
inductive Phase
  | listing (names picked : List String)
  | writing (picked rest : List String) (entries : Entries) (intact : Bool)
  | verifying (picked : List String)
  | discarding
  | deleting (rest : List String)

structure Job where
  kind : Kind
  phase : Phase

/-- The two directories, the call under way, and every file that ever arrived. -/
structure Shelves where
  processed : Directory := []
  archives : Directory := []
  job : Option Job := none
  placed : List (String × List UInt8) := []

namespace Shelves

def directory (s : Shelves) : Folder → Directory
  | .processed => s.processed
  | .archives => s.archives

def unlink (s : Shelves) (name : String) : Folder → Shelves
  | .processed => { s with processed := s.processed.erase name }
  | .archives => { s with archives := s.archives.erase name }

/-- `_verify_zip`. -/
def verifyZip (s : Shelves) (name : String) (expectedCount : Nat) : Bool :=
  match (s.archives.get name).map Stored.content with
  | some (Content.zip entries intact) => intact && entries.length = expectedCount
  | _ => false

/-- A file moved into `processed/`, over one of its name. -/
def arrive (s : Shelves) (name : String) (mtime : Int) (bytes : List UInt8) : Shelves :=
  { s with
    processed := s.processed.set name ⟨mtime, .event bytes⟩
    placed := (name, bytes) :: s.placed }

def start (s : Shelves) (kind : Kind) : Shelves :=
  if (s.archives.get kind.target).isSome then s
  else { s with job := some ⟨kind, .listing ((s.directory kind.folder).keys.filter kind.finds) []⟩ }

structure Outcome where
  fails : Bool := false
  damages : Bool := false

section Work

variable (midnight : Ordinal → Int) (s : Shelves) (kind : Kind) (o : Outcome)

def archive (file : Stored) : Shelves := { s with archives := s.archives.set kind.target file }

def goes (phase : Phase) : Shelves := { s with job := some ⟨kind, phase⟩ }

def ends : Shelves := { s with job := none }

def work : Phase → Shelves
  | .listing (name :: names) picked =>
    match (s.directory kind.folder).get name with
    | some file =>
      if o.fails then s.ends
      else s.goes kind
        (.listing names (if kind.keeps midnight file then picked ++ [name] else picked))
    | none => s.ends
  | .listing [] picked => if picked = [] then s.ends else s.goes kind
    (.writing picked picked [] true)
  | .writing picked (name :: rest) entries intact =>
    match (s.directory kind.folder).get name with
    | some file =>
      if o.fails then s.ends
      else s.goes kind (.writing picked rest (entries ++ [(name, file.content)])
        (intact && !o.damages))
    | none => s.ends
  | .writing picked [] entries intact =>
    if o.fails then s.ends
    -- no call reads the time of an archive
    else (s.archive kind ⟨0, .zip entries intact⟩).goes kind (.verifying picked)
  | .verifying picked =>
    if !o.fails && s.verifyZip kind.target picked.length then s.goes kind (.deleting picked)
    else s.goes kind .discarding
  | .discarding => if o.fails then s.ends else { s with archives := s.archives.erase kind.target }.ends
  | .deleting (name :: rest) =>
    (if o.fails then s else s.unlink name kind.folder).goes kind (.deleting rest)
  | .deleting [] => s.ends

end Work

/-- What happens to the directories: a file arrives, a call begins while none runs, the call under
way does its next operation, or it is over (an exception, a kill). -/
inductive Move
  | arrive (name : String) (mtime : Int) (bytes : List UInt8)
  | call (c : Call)
  | work (o : Outcome)
  | stop

def step (midnight : Ordinal → Int) (s : Shelves) : Move → Option Shelves
  | .arrive name mtime bytes => some (s.arrive name mtime bytes)
  | .call c => if s.job.isSome then none else some ((c.kind.map s.start).getD s)
  | .work o => s.job.map fun j => s.work midnight j.kind o j.phase
  | .stop => some s.ends

def lifecycle (midnight : Ordinal → Int) : Machine Shelves Move where
  step := step midnight

end Shelves

end DreamStudio.Spool
