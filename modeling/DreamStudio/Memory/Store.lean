import DreamStudio.Library.Dict
import DreamStudio.Library.Json
import DreamStudio.Library.Table
import Mathlib.Algebra.Ring.Nat
import Mathlib.Data.List.Sort
import Mathlib.Data.Prod.Lex
import Mathlib.Data.String.Basic

namespace DreamStudio.Memory

open Library

section Catalog

structure LifecycleSpec where
  states : List String
  transitions : Dict String (List String)

abbrev TypeCatalog := Dict String LifecycleSpec

namespace TypeCatalog

/-- `validate_state`: an entity type without a lifecycle takes any. -/
def validateState (catalog : TypeCatalog) (entityType state : String) : Bool :=
  match catalog.get entityType with
  | none => true
  | some spec => spec.states.contains state

/-- `validate_transition`. -/
def validateTransition (catalog : TypeCatalog) (entityType : String) (fromState : Option String)
    (toState : String) : Bool :=
  match catalog.get entityType with
  | none => true
  | some spec =>
    match fromState.bind spec.transitions.get with
    | none => false
    | some allowed => allowed.contains toState

end TypeCatalog

def memoryLifecycle : LifecycleSpec where
  states := ["DRAFT", "CANDIDATE", "PROMOTED", "ACTIVE", "STALE", "SUPERSEDED", "ARCHIVED"]
  transitions :=
    [("DRAFT", ["CANDIDATE", "ARCHIVED"]), ("CANDIDATE", ["PROMOTED", "ARCHIVED"]),
      ("PROMOTED", ["ACTIVE"]), ("ACTIVE", ["STALE", "SUPERSEDED"]),
      ("STALE", ["ACTIVE", "ARCHIVED"]), ("SUPERSEDED", ["ARCHIVED"]), ("ARCHIVED", [])]

def executionLifecycle : LifecycleSpec where
  states := ["pending", "active", "blocked", "completed", "failed", "skipped"]
  transitions :=
    [("pending", ["active", "blocked", "skipped"]), ("active", ["completed", "failed", "blocked"]),
      ("blocked", ["pending", "active", "skipped"]), ("completed", []), ("failed", ["pending"]),
      ("skipped", [])]

def documentLifecycle : LifecycleSpec where
  states := ["active", "archived"]
  transitions := [("active", ["archived"]), ("archived", ["active"])]

/-- `LIFECYCLE_CATALOG`. -/
def lifecycleCatalog : TypeCatalog :=
  [("memory", memoryLifecycle), ("workflow", executionLifecycle),
    ("workflow_node", executionLifecycle), ("session", executionLifecycle),
    ("finding", executionLifecycle), ("artifact", documentLifecycle)]

/-- `_DEFAULT_RETRIEVE_STATES`. -/
def defaultRetrieveStates : List String := ["ACTIVE", "PROMOTED", "CANDIDATE"]

end Catalog

section Rows

variable {S : Type}

/-- A row of `memory_entries`; columns of JSON hold their text. -/
structure MemoryRow (S : Type) where
  memoryId : String
  source : String
  category : String
  content : String
  sourceType : Option String
  sourceId : Option String
  lifecycleState : Option String
  metadata : Option String
  importance : S
  confidence : Option S
  createdAt : String
  updatedAt : Option String
  lastAccessed : Option String
  accessCount : Nat
  tags : Option String
  project : Option String
  skill : Option String
  provenance : Option String
  lineage : Option String
  relationships : Option String
  surfacedAt : Option String := none

/-- A row of `memory_fts`. -/
structure FtsRow where
  memoryId : String
  content : String
  category : String
  tags : Option String
  deriving DecidableEq

/-- The key of `idx_memory_provenance`, which holds no NULL. -/
def MemoryRow.provenanceKey (m : MemoryRow S) : Option (String × String) :=
  m.sourceType.bind fun t => m.sourceId.map fun i => (t, i)

def MemoryRow.key (m : MemoryRow S) : Option String := some m.memoryId

def MemoryRow.ftsRow (m : MemoryRow S) : FtsRow :=
  ⟨m.memoryId, m.content, m.category, some (m.tags.getD "")⟩

/-- Rows that `INSERT OR REPLACE` of the other deletes. -/
def MemoryRow.clash (m other : MemoryRow S) : Bool :=
  Table.SameKey MemoryRow.key m other || Table.SameKey MemoryRow.provenanceKey m other

def MemoryRow.retrievable (states : List String) (m : MemoryRow S) : Bool :=
  m.lifecycleState.any states.contains

def MemoryRow.stateText (m : MemoryRow S) : String := m.lifecycleState.getD "None"

/-- `memory_entries` and `memory_fts`. -/
structure MemoryDb (S : Type) where
  entries : List (MemoryRow S)
  fts : List FtsRow
  ids_unique : Table.Unique MemoryRow.key entries
  provenance_unique : Table.Unique MemoryRow.provenanceKey entries

end Rows

namespace MemoryDb

variable {S : Type}

section Statements

/-- `INSERT OR REPLACE`. The rows it deletes fire no trigger, since `recursive_triggers` is off; the
row it inserts does. -/
def insertOrReplace (db : MemoryDb S) (row : MemoryRow S) : MemoryDb S where
  entries := db.entries.filter (!·.clash row) ++ [row]
  fts := db.fts ++ [row.ftsRow]
  ids_unique := by
    apply (Table.append_unique_iff (Table.filter_unique db.ids_unique _) row).mpr
    intro m member same
    simp [MemoryRow.clash, same] at member
  provenance_unique := by
    apply (Table.append_unique_iff (Table.filter_unique db.provenance_unique _) row).mpr
    intro m member same
    simp [MemoryRow.clash, same] at member

@[simp] theorem insertOrReplace_entries (db : MemoryDb S) (row : MemoryRow S) :
    (db.insertOrReplace row).entries = db.entries.filter (!·.clash row) ++ [row] := rfl

@[simp] theorem insertOrReplace_fts (db : MemoryDb S) (row : MemoryRow S) :
    (db.insertOrReplace row).fts = db.fts ++ [row.ftsRow] := rfl

structure Change (S : Type) where
  apply : MemoryRow S → MemoryRow S
  memoryId : ∀ m, (apply m).memoryId = m.memoryId
  sourceType : ∀ m, (apply m).sourceType = m.sourceType
  sourceId : ∀ m, (apply m).sourceId = m.sourceId

theorem Change.provenanceKey (change : Change S) (m : MemoryRow S) :
    (change.apply m).provenanceKey = m.provenanceKey := by
  rw [MemoryRow.provenanceKey, change.sourceType, change.sourceId]
  rfl

theorem Change.key (change : Change S) (m : MemoryRow S) : (change.apply m).key = m.key :=
  congrArg some (change.memoryId m)

/-- `UPDATE memory_entries SET … WHERE memory_id = ?`, and what the trigger makes of it. -/
def update (db : MemoryDb S) (memoryId : String) (change : Change S) : MemoryDb S where
  entries := Table.update (·.memoryId = memoryId) change.apply db.entries
  fts :=
    match db.entries.find? (·.memoryId = memoryId) with
    | none => db.fts
    | some m => db.fts.filter (·.memoryId ≠ memoryId) ++ [(change.apply m).ftsRow]
  ids_unique := Table.update_unique db.ids_unique fun m _ => change.key m
  provenance_unique := Table.update_unique db.provenance_unique fun m _ => change.provenanceKey m

/-- `DELETE FROM memory_entries WHERE memory_id IN …`, and what the trigger makes of it. -/
def delete (db : MemoryDb S) (ids : List String) : MemoryDb S where
  entries := db.entries.filter (!ids.contains ·.memoryId)
  fts := db.fts.filter fun row =>
    !(ids.contains row.memoryId && db.entries.any (·.memoryId = row.memoryId))
  ids_unique := Table.filter_unique db.ids_unique _
  provenance_unique := Table.filter_unique db.provenance_unique _

end Statements

end MemoryDb

section Entries

variable {S : Type}

/-- A `MemoryEntry`; its JSON fields are the texts they are stored as, none where they are empty. -/
structure MemoryEntry (S : Type) where
  memoryId : String := ""
  memoryType : String
  category : String
  content : String
  sourceType : String := "unknown"
  sourceId : String := ""
  lifecycleState : Option String := some "ACTIVE"
  metadata : Option String := none
  importance : S
  confidence : Option S := none
  createdAt : String := ""
  lastAccessed : String := ""
  accessCount : Nat := 0
  tags : List String := []
  project : Option String := none
  skill : Option String := none
  provenance : Option String := none
  lineage : Option String := none
  relationships : Option String := none

/-- What the store uses of Python: `json.dumps` of tags, what `_row_to_entry` raises of a row whose
JSON does not decode, and sums of importance cut to its bounds. -/
structure MemoryPython (S : Type) where
  dumps : List String → String
  refuses : MemoryRow S → Option String
  raised : S → S → S
  lowered : S → S → S

variable (py : MemoryPython S)

def MemoryEntry.tagsText (entry : MemoryEntry S) : Option String :=
  if entry.tags = [] then none else some (py.dumps entry.tags)

/-- The values that `store` inserts. -/
def MemoryEntry.row (entry : MemoryEntry S) (memoryId now : String) : MemoryRow S where
  memoryId := memoryId
  source := entry.memoryType
  category := entry.category
  content := entry.content
  sourceType := some entry.sourceType
  sourceId := if entry.sourceId = "" then none else some entry.sourceId
  lifecycleState := entry.lifecycleState
  metadata := entry.metadata
  importance := entry.importance
  confidence := entry.confidence
  createdAt := if entry.createdAt = "" then now else entry.createdAt
  updatedAt := some now
  lastAccessed := some entry.lastAccessed
  accessCount := entry.accessCount
  tags := entry.tagsText py
  project := entry.project
  skill := entry.skill
  provenance := entry.provenance
  lineage := entry.lineage
  relationships := entry.relationships

def MemoryEntry.dated (entry : MemoryEntry S) (now : String) : MemoryEntry S :=
  { entry with createdAt := if entry.createdAt = "" then now else entry.createdAt }

/-- The id that `store` gives an entry. -/
def MemoryEntry.idOr (entry : MemoryEntry S) (uuid : String) : String :=
  if entry.memoryId = "" then uuid else entry.memoryId

/-- A `MemoryQuery`; `worth` is the bound on importance, all true where it is 0. -/
structure MemoryQuery (S : Type) where
  text : String := ""
  memoryType : String := ""
  category : String := ""
  tags : List String := []
  project : String := ""
  skill : String := ""
  worth : S → Bool := fun _ => true
  limit : Nat := 10
  includeDecayed : Bool := false
  lifecycleStates : List String := []

def MemoryQuery.states (query : MemoryQuery S) : List String :=
  if query.lifecycleStates = [] then defaultRetrieveStates else query.lifecycleStates

/-- The WHERE clause; `like` tells whether a column holds a tag, as `LIKE` finds it. -/
def MemoryQuery.admits (like : String → String → Bool) (query : MemoryQuery S) (m : MemoryRow S) :
    Bool :=
  m.retrievable query.states
    && query.tags.all (fun tag => m.tags.any (like tag))
    && (query.memoryType = "" || m.source = query.memoryType)
    && (query.category = "" || m.category = query.category)
    && (query.project = "" || m.project = none || m.project = some query.project)
    && (query.skill = "" || m.skill = none || m.skill = some query.skill)
    && query.worth m.importance

end Entries

namespace MemoryDb

variable {S : Type} (py : MemoryPython S)

section Changes

def refresh (entry : MemoryEntry S) (now : String) : Change S where
  apply m :=
    { m with
      content := entry.content, category := entry.category, metadata := entry.metadata
      confidence := entry.confidence, tags := entry.tagsText py, updatedAt := some now
      provenance := entry.provenance, lineage := entry.lineage
      relationships := entry.relationships, project := entry.project, skill := entry.skill }
  memoryId _ := rfl
  sourceType _ := rfl
  sourceId _ := rfl

def moved (newState now : String) : Change S where
  apply m := { m with lifecycleState := some newState, updatedAt := some now }
  memoryId _ := rfl
  sourceType _ := rfl
  sourceId _ := rfl

def accessed (now : String) : Change S where
  apply m :=
    { m with lastAccessed := some now, accessCount := m.accessCount + 1, updatedAt := some now }
  memoryId _ := rfl
  sourceType _ := rfl
  sourceId _ := rfl

def weighed (weigh : S → S) (now : String) : Change S where
  apply m := { m with importance := weigh m.importance, updatedAt := some now }
  memoryId _ := rfl
  sourceType _ := rfl
  sourceId _ := rfl

def surfaced (now : String) : Change S where
  apply m := { m with surfacedAt := some now }
  memoryId _ := rfl
  sourceType _ := rfl
  sourceId _ := rfl

end Changes

section Operations

/-- `MemoryStore.store`. -/
def store (db : MemoryDb S) (entry : MemoryEntry S) (uuid now : String) : MemoryDb S :=
  db.insertOrReplace (entry.row py (entry.idOr uuid) now)

/-- The row that `upsert_by_provenance` finds. -/
def existing (db : MemoryDb S) (entry : MemoryEntry S) : Option (MemoryRow S) :=
  db.entries.find? (·.provenanceKey = some (entry.sourceType, entry.sourceId))

def provenanceRequired : String := "upsert_by_provenance requires source_type and source_id"

/-- `MemoryStore.upsert_by_provenance`; the store it falls back on reads the clock again. -/
def upsertByProvenance (db : MemoryDb S) (entry : MemoryEntry S) (uuid now later : String) :
    Except String (MemoryDb S) :=
  if entry.sourceType = "" ∨ entry.sourceId = "" then
    .error provenanceRequired
  else
    match db.existing entry with
    | some m => .ok (db.update m.memoryId (refresh py entry now))
    | none => .ok (db.store py (entry.dated now) uuid later)

/-- `MemoryStore.transition`. -/
def transition (db : MemoryDb S) (memoryId newState now : String) : Except String (MemoryDb S) :=
  if !lifecycleCatalog.validateState "memory" newState then .error s!"Invalid state: {newState}"
  else
    match db.entries.find? (·.memoryId = memoryId) with
    | none => .error s!"Memory {memoryId} not found"
    | some m =>
      if !lifecycleCatalog.validateTransition "memory" m.lifecycleState newState then
        .error s!"Invalid transition: {m.stateText} -> {newState}."
      else .ok (db.update memoryId (moved newState now))

/-- `MemoryStore.record_access`. -/
def recordAccess (db : MemoryDb S) (memoryId now : String) : MemoryDb S :=
  db.update memoryId (accessed now)

/-- `MemoryStore.boost_importance`. -/
def boostImportance (db : MemoryDb S) (memoryId : String) (delta : S) (now : String) :
    MemoryDb S :=
  db.update memoryId (weighed (py.raised · delta) now)

/-- `MemoryStore.decay_importance`. -/
def decayImportance (db : MemoryDb S) (memoryId : String) (delta : S) (now : String) :
    MemoryDb S :=
  db.update memoryId (weighed (py.lowered · delta) now)

/-- `_stamp_surfaced` of the hook that injects memories. -/
def stampSurfaced (db : MemoryDb S) (ids : List String) (now : String) : MemoryDb S :=
  ids.foldl (fun db memoryId => db.update memoryId (surfaced now)) db

end Operations

section Orphans

/-- A row without a source type, of whose content another row with one has the same. -/
def orphan (rows : List (MemoryRow S)) (m : MemoryRow S) : Bool :=
  m.sourceType.isNone &&
    rows.any fun other =>
      other.sourceType.isSome && other.content = m.content && other.memoryId ≠ m.memoryId

/-- `find_orphan_candidates`. -/
def findOrphanCandidates (db : MemoryDb S) : List String :=
  (db.entries.filter (orphan db.entries)).map (·.memoryId)

/-- `count_unmatched_nulls`. -/
def countUnmatchedNulls (db : MemoryDb S) : Nat :=
  db.entries.countP fun m => m.sourceType.isNone && !orphan db.entries m

structure DedupResult where
  candidatesFound : Nat
  deleted : Nat
  preservedNull : Nat
  deriving DecidableEq

/-- The batches of `dedup_orphans`, each of at most `size` ids. -/
def batches (size : Nat) : Nat → List String → List (List String)
  | 0, _ => []
  | fuel + 1, ids => if ids = [] then [] else ids.take size :: batches size fuel (ids.drop size)

/-- `dedup_orphans`, with the trigger there that deletes from the index. -/
def dedupOrphans (db : MemoryDb S) (dryRun : Bool) : MemoryDb S × DedupResult :=
  let candidates := db.findOrphanCandidates
  let preserved := db.countUnmatchedNulls
  if dryRun ∨ candidates = [] then (db, ⟨candidates.length, 0, preserved⟩)
  else
    let chunks := batches 200 candidates.length candidates
    (chunks.foldl delete db, ⟨candidates.length, (chunks.map List.length).sum, preserved⟩)

end Orphans

section Index

/-- The rows that `rebuild_index` writes. -/
def copied (m : MemoryRow S) : FtsRow := ⟨m.memoryId, m.content, m.category, m.tags⟩

/-- `FTS5MemoryRetriever.rebuild_index`. -/
def rebuildIndex (db : MemoryDb S) : MemoryDb S :=
  { db with fts := (db.entries.filter (·.retrievable defaultRetrieveStates)).map copied }

end Index

section Retrieval

variable {R : Type} [LinearOrder S] [LinearOrder R]

/-- What a retrieval takes from SQLite, the clock and floats: `LIKE`, whether the weight of a row
has decayed below a tenth, its relevance to a text, and `isalnum`. -/
structure Retrieval (S R : Type) where
  like : String → String → Bool
  faded : MemoryRow S → Bool
  relevance : String → MemoryRow S → R
  alnum : Char → Bool

/-- What `ORDER BY importance DESC, created_at DESC` puts in order. -/
def sqlKey (m : MemoryRow S) : S ×ₗ String := toLex (m.importance, m.createdAt)

/-- The rows that `retrieve` fetches. -/
def fetched (tools : Retrieval S R) (db : MemoryDb S) (query : MemoryQuery S) :
    List (MemoryRow S) :=
  ((db.entries.filter (query.admits tools.like)).insertionSort fun m n =>
    sqlKey n ≤ sqlKey m).take (query.limit * 3)

/-- `MemoryStore.retrieve`. -/
def retrieve (tools : Retrieval S R) (db : MemoryDb S) (query : MemoryQuery S) :
    Except String (List (MemoryRow S × R)) :=
  match (fetched tools db query).findSome? py.refuses with
  | some why => .error why
  | none =>
    let results := ((fetched tools db query).filter fun m =>
      query.includeDecayed || !tools.faded m).map fun m => (m, tools.relevance query.text m)
    .ok ((results.insertionSort fun r s => s.2 ≤ r.2).take query.limit)

/-- `_sanitize_fts_query`. -/
def sanitizeFtsQuery (tools : Retrieval S R) (query : String) : String :=
  " OR ".intercalate ((((query.toList.splitOnP pySpace).map fun t =>
    t.filter fun c => tools.alnum c || c = '-' || c = '_').filter (· ≠ [])).map String.ofList)

/-- `FTS5MemoryRetriever.search`, where `available` is what `_fts_available` answers. In the join of
`_fts_search`, `mf MATCH ?` names the alias, which is no column: the statement raises at every call,
and `_keyword_search` answers. -/
def search (tools : Retrieval S R) (db : MemoryDb S) (available : Bool) (query : String)
    (filters : MemoryQuery S) (topK : Nat) : Except String (List (MemoryRow S × R)) :=
  if pyStrip query = "" then .ok []
  else if available && sanitizeFtsQuery tools query = "" then .ok []
  else retrieve py tools db { filters with text := query, limit := topK }

end Retrieval

end MemoryDb

end DreamStudio.Memory
