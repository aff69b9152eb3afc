import DreamStudio.Files.Store
import DreamStudio.Library.Script

namespace DreamStudio.Files

open Library

/-- The columns of `_DDL`. -/
inductive Column
  | fileId | projectId | workOrderId | category | name | version | contentType | content | correlationId
  | createdAt | createdBy | expiresAt | checksum
  deriving DecidableEq

def columns : List Column :=
  [.fileId, .projectId, .workOrderId, .category, .name, .version, .contentType, .content,
    .correlationId,
    .createdAt, .createdBy, .expiresAt, .checksum]

theorem mem_columns (c : Column) : c ∈ columns := by
  cases c <;> decide

inductive Cell
  | null
  | integer (n : Int)
  | real (text : String)
  | text (s : String)
  | blob (bytes : List Nat)
  deriving DecidableEq

def Column.notNull : Column → Bool
  | .fileId | .category | .name | .version | .contentType | .content | .createdAt => true
  | _ => false

/-- The default of a column, at a time. -/
def Column.default (now : String) : Column → Cell
  | .version => .integer 1
  | .createdAt => .text now
  | _ => .null

abbrev Row := Column → Cell

/-- A `ds_files` table: its columns, the categories its CHECK lists, its rows. -/
structure FilesTable where
  columns : List Column
  categories : List String
  rows : List Row

/-- What `CREATE TABLE` of `_DDL` creates. -/
def FilesTable.empty : FilesTable := ⟨Files.columns, validCategories, []⟩

/-- `all(f"'{category}'" in live_sql for category in _VALID_CATEGORIES)`. -/
def FilesTable.covers (t : FilesTable) : Bool := validCategories.all (· ∈ t.categories)

inductive Index
  | projectCategory | nameVersion | workOrder
  deriving DecidableEq

def Index.columns : Index → List Column
  | .projectCategory => [.projectId, .category]
  | .nameVersion => [.name, .version]
  | .workOrder => [.workOrderId]

/-- files.db: `ds_files`, `_ds_files_old`, and the indexes, those of the second apart. -/
structure FilesDb where
  files : Option FilesTable
  old : Option FilesTable := none
  indexes : List Index := []
  oldIndexes : List Index := []

/-- A row the table takes: no NULL where there may be none, and a category the CHECK lists. -/
def FilesTable.takes (t : FilesTable) (r : Row) : Bool :=
  t.columns.all (fun c => !c.notNull || r c ≠ .null) &&
    t.categories.any fun s => r .category = .text s

/-- `INSERT`: the rows one by one, each with a key of its own. -/
def FilesTable.insert (t : FilesTable) : List Row → Option FilesTable
  | [] => some t
  | r :: rows =>
    if t.takes r && t.rows.all (fun s => s .fileId ≠ r .fileId) then
      FilesTable.insert { t with rows := t.rows ++ [r] } rows
    else none

/-- `INSERT INTO ds_files (common) SELECT common FROM _ds_files_old`, a row of it. -/
def copied (now : String) (common : List Column) (r : Row) : Row := fun c =>
  if c ∈ common then r c else c.default now

namespace Statement

def read : Connection.Action FilesDb := some

def commit : Connection.Action FilesDb := fun c => some c.commit

def createTable : Connection.Action FilesDb := fun c =>
  match c.visible.files with
  | some _ => some c
  | none => some (c.write { c.visible with files := some .empty })

/-- `CREATE INDEX IF NOT EXISTS`. An index's name is one in the whole file. -/
def createIndex (i : Index) : Connection.Action FilesDb := fun c =>
  if i ∈ c.visible.indexes ∨ i ∈ c.visible.oldIndexes then some c
  else
    match c.visible.files with
    | some t =>
      if ∀ col ∈ i.columns, col ∈ t.columns then
        some (c.write { c.visible with indexes := c.visible.indexes ++ [i] })
      else none
    | none => none

def dropIndex (i : Index) : Connection.Action FilesDb := fun c =>
  some (c.write { c.visible with
    indexes := c.visible.indexes.filter (· ≠ i)
    oldIndexes := c.visible.oldIndexes.filter (· ≠ i) })

/-- `ALTER TABLE ds_files RENAME TO _ds_files_old`. The indexes follow. -/
def rename : Connection.Action FilesDb := fun c =>
  match c.visible.files, c.visible.old with
  | some t, none => some (c.write ⟨none, some t, [], c.visible.indexes⟩)
  | _, _ => none

def copy (now : String) : Connection.Action FilesDb := fun c =>
  match c.visible.files, c.visible.old with
  | some t, some o =>
    let common := t.columns.filter (· ∈ o.columns)
    if common = [] then none
    else (t.insert (o.rows.map (copied now common))).map fun t =>
      c.begun.write { c.visible with files := some t }
  | _, _ => none

def dropOld : Connection.Action FilesDb := fun c =>
  match c.visible.old with
  | some _ => some (c.write { c.visible with old := none, oldIndexes := [] })
  | none => none

/-- `ALTER TABLE ds_files ADD COLUMN work_order_id TEXT`. -/
def addColumn : Connection.Action FilesDb := fun c =>
  match c.visible.files with
  | some t =>
    some (c.write { c.visible with
      files := some { t with
        columns := t.columns ++ [.workOrderId]
        rows := t.rows.map fun r => Function.update r .workOrderId .null } })
  | none => none

end Statement

open Statement Script

/-- `conn.executescript(_DDL)`. -/
def ddl : List (Connection.Action FilesDb) :=
  [commit, createTable, createIndex .projectCategory, createIndex .nameVersion]

/-- What `_ensure_category_check` does to a table whose CHECK does not cover every category. -/
def widening (now : String) : List (Connection.Action FilesDb) :=
  [rename, dropIndex .projectCategory, dropIndex .nameVersion, dropIndex .workOrder] ++ ddl ++
    [read, read, copy now, dropOld, commit]

/-- `_ensure_work_order_id_column`, and the last commit. -/
def ensureWorkOrderIdColumn : Script FilesDb :=
  exec read fun a =>
    match a.files with
    | none => all [commit] .done
    | some _ => exec read fun a =>
      all (if a.files.any (.workOrderId ∈ ·.columns) then [] else [addColumn])
        (all [createIndex .workOrder, commit, commit] .done)

/-- `ensure_files_schema`. -/
def ensureFilesSchema (now : String) : Script FilesDb :=
  all ddl (exec read fun a =>
    match a.files with
    | none => ensureWorkOrderIdColumn
    | some t => if t.covers then ensureWorkOrderIdColumn else all (widening now)
      ensureWorkOrderIdColumn)

/-- `read_file`. Without all the columns the query fails. -/
def readFile (now : String) (db : FilesDb) (fileId : String) : Option Row :=
  match (ensureFilesSchema now).finish (.opened db) with
  | (_, false) => none
  | (c, true) =>
    c.visible.files.bind fun t =>
      if ∀ c ∈ columns, c ∈ t.columns then t.rows.find? fun r => r .fileId = .text fileId else none

end DreamStudio.Files
