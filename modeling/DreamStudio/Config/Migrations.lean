import DreamStudio.Library.Connection
import DreamStudio.Library.Json
import DreamStudio.Library.Machine
import DreamStudio.Library.Strip
import Mathlib.Data.List.Infix

namespace DreamStudio.Config

open Library

/-- `s.rstrip(";")`. -/
def stripSemicolons (s : String) : String :=
  String.ofList ((s.toList.reverse.dropWhile (· = ';')).reverse)

def endsWith (s suffix : String) : Bool := suffix.toList.isSuffixOf s.toList

/-- `"\n".join(current).strip().rstrip(";").strip()`, unless nothing is left. -/
def closeStatement (current : List String) : List String :=
  let stmt := pyStrip (stripSemicolons (pyStrip ("\n".intercalate current)))
  if stmt = "" then [] else [stmt]

structure SplitState where
  statements : List String := []
  current : List String := []
  depth : Nat := 0

def splitLine (u : Letters) (s : SplitState) (line : String) : SplitState :=
  let stripped := pyStrip line
  if stripped = "" ∨ startsWith stripped "--" then s
  else
    let upper := u.capitals stripped
    let current := s.current ++ [line]
    let depth := if u.hasWord "BEGIN" upper then s.depth + 1 else s.depth
    if endsWith stripped ";" then
      let endToken := stripSemicolons upper
      let depth := if 0 < depth ∧ endsWith (pyStrip endToken) "END" then depth - 1 else depth
      if depth = 0 then ⟨s.statements ++ closeStatement current, [], 0⟩
      else { s with current := current, depth := depth }
    else { s with current := current, depth := depth }

/-- `split_statements`. -/
def splitStatements (u : Letters) (sqlText : String) : List String :=
  let s := (splitLines sqlText).foldl (splitLine u) {}
  s.statements ++ closeStatement s.current

/-- An exception of `conn.execute`. -/
structure SqlError where
  operational : Bool
  message : String

def startsWithAny (u : Letters) (prefixes : List String) (stmt : String) : Bool :=
  prefixes.any fun pre => startsWith (u.capitals (pyStrip stmt)) pre

def retiredTables : List String :=
  ["projects", "milestones", "work_orders", "tasks", "design_briefs", "work_order_types"]

/-- The errors `run_migrations` goes on after. -/
def tolerates (u : Letters) (stmt : String) (error : SqlError) : Bool :=
  let msg := u.lower error.message
  let lower := u.lower stmt
  let noTable := contains msg "no such table"
  let indexOrTrigger :=
    startsWithAny u ["CREATE INDEX", "CREATE UNIQUE INDEX", "CREATE TRIGGER"] stmt
  let columnError := contains msg "no such column" || contains msg "has no column named"
  error.operational && (contains msg "duplicate column name" || contains msg "no such module" ||
    noTable && (contains msg "fts_gotchas" || contains msg "ds_documents" ||
      contains msg "canonical_events") && !indexOrTrigger ||
    noTable && contains msg "memory_entries" &&
      !startsWithAny u ["CREATE INDEX", "CREATE TRIGGER"] stmt ||
    noTable && (contains msg "token_usage_records" ||
      contains msg "ai_usage_operational_records") &&
      !indexOrTrigger ||
    contains msg "no such column" && (contains lower "token_usage_records" ||
      contains lower "ai_usage_operational_records") ||
    noTable && (retiredTables.any fun t => contains msg ("ds_" ++ t)) && !indexOrTrigger ||
    noTable && startsWithAny u ["INSERT", "UPDATE", "DELETE", "DROP"] stmt ||
    columnError && startsWithAny u ["CREATE INDEX"] stmt ||
    columnError && retiredTables.any fun t => contains lower ("ds_" ++ t))

/-- The tables, and the versions in `_schema_version`. -/
structure Database (σ : Type) where
  content : σ
  versions : List Nat
  deriving DecidableEq

/-- What SQLite makes of a statement, and Python of its letters. -/
structure Engine (σ : Type) where
  letters : Letters
  run : String → Database σ → Except SqlError (Database σ)

/-- Before what `sqlite3` opens a transaction by itself, in any case of the ASCII letters. -/
def opensTransaction (stmt : String) : Bool :=
  ["INSERT", "UPDATE", "DELETE", "REPLACE"].any fun pre => startsWith (pyUpper (pyStrip stmt)) pre

structure MigrationFile where
  version : Nat
  text : String

def MigrationFile.statements (u : Letters) (f : MigrationFile) : List String :=
  splitStatements u f.text

/-- What a call is made with, and what it finds out about the authority and its own process. -/
structure MigrationCall where
  targetVersion : Option Int
  live : Bool
  released : Int
  applyUnreleased : Bool

section Runner

variable {σ : Type} (execute : Engine σ)

/-- `conn.execute(stmt)`, and what is done about its error. -/
def executeStatement (stmt : String) : Connection.Action (Database σ) := fun c =>
  match execute.run stmt c.visible with
  | .ok d => some ((if opensTransaction stmt then c.begun else c).write d)
  | .error e => if tolerates execute.letters stmt e then some c else none

/-- The row in `_schema_version`, whose key is the version, and the commit. -/
def recordVersion (version : Nat) : Connection.Action (Database σ) := fun c =>
  if version ∈ c.visible.versions then none
  else some (c.begun.write { c.visible with versions := c.visible.versions ++ [version] }).commit

def MigrationFile.body (f : MigrationFile) : List (Connection.Action (Database σ)) :=
  (f.statements execute.letters).map (executeStatement execute)

def MigrationFile.actions (f : MigrationFile) : List (Connection.Action (Database σ)) :=
  f.body execute ++ [recordVersion f.version]

/-- `applied_schema_version`. -/
def appliedSchemaVersion (d : Database σ) : Nat := d.versions.foldr max 0

/-- `latest_migration_version`. -/
def latestMigrationVersion (files : List MigrationFile) : Nat := (files.map (·.version)).foldr max 0

def MigrationCall.latestCode (call : MigrationCall) (files : List MigrationFile) : Int :=
  match call.targetVersion with
  | some target => min (latestMigrationVersion files) target
  | none => latestMigrationVersion files

def MigrationCall.withholds (call : MigrationCall) (version : Nat) : Bool :=
  call.live && !call.applyUnreleased && decide (call.released < version)

/-- The migrations a call goes through, in their order. -/
def MigrationCall.due (call : MigrationCall) (files : List MigrationFile) (d : Database σ) :
    List MigrationFile :=
  files.filter fun f => appliedSchemaVersion d < f.version ∧ f.version ≤ call.latestCode files ∧
    !call.withholds f.version

/-- An error from outside: at which version, before which of its statements (or of the version's
row). -/
abbrev Fault := Option (Nat × Nat)

def runFile (fault : Fault) (f : MigrationFile) (c : Connection (Database σ)) :
    Connection (Database σ) × Bool :=
  match fault with
  | some (version, k) =>
    if version = f.version then ((Connection.run ((f.actions execute).take k) c).1, false)
    else Connection.run (f.actions execute) c
  | none => Connection.run (f.actions execute) c

def runFiles (fault : Fault) : List MigrationFile → Connection (Database σ) →
    Connection (Database σ) × Bool
  | [], c => (c, true)
  | f :: rest, c =>
    match runFile execute fault f c with
    | (c', true) => runFiles fault rest c'
    | (c', false) => (c', false)

/-- `run_migrations` on a connection of its own: the database it leaves, and the version it
returns. -/
def runMigrations (files : List MigrationFile) (call : MigrationCall) (fault : Fault)
    (d : Database σ) :
    Database σ × Option Nat :=
  if files = [] then (d, some (appliedSchemaVersion d))
  else if latestMigrationVersion files < appliedSchemaVersion d then (d, none)
  else
    match runFiles execute fault (call.due files d) (.opened d) with
    | (c, true) => (c.close, some (appliedSchemaVersion c.close))
    | (c, false) => (c.close, none)

end Runner

end DreamStudio.Config
