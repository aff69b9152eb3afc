import DreamStudio.Library.Except
import DreamStudio.Memory.Lifecycle

namespace DreamStudio.Memory

open Library

variable {S : Type}

section Sources

/-- An `IngestionRecord`; its metadata is the text it is stored as. -/
structure IngestionRecord (S : Type) where
  sourceType : String
  sourceId : String
  memoryType : String
  content : String
  confidence : Option S
  category : String
  tags : List String
  metadata : Option String
  originalTimestamp : String
  project : Option String := none
  skill : Option String := none

/-- An `IngestionConsumer` and what it makes of its table: records of its type, or what raises. -/
structure IngestionConsumer (S : Type) where
  name : String
  sourceType : String
  table : Except String (List (IngestionRecord S))
  initialImportance : IngestionRecord S → S
  provenance : IngestionRecord S → String → String
  named : sourceType ≠ ""
  typed : ∀ rs, table = .ok rs → ∀ r ∈ rs, r.sourceType = sourceType

/-- What is drawn while a record is ingested: an id, and the clock as the upsert and the store in it
read it. -/
structure Draw where
  uuid : String
  upserted : String
  stored : String

structure IngestionResult where
  consumerName : String
  recordsFound : Nat
  recordsIngested : Nat := 0
  recordsUpdated : Nat := 0
  recordsSkipped : Nat := 0
  errors : List String := []
  deriving DecidableEq

end Sources

section Ingestion

variable (py : MemoryPython S) (consumer : IngestionConsumer S)

/-- The records of `fetch_pending`, of which no memory has the source id. -/
def MemoryDb.fetchPending (db : MemoryDb S) : Except String (List (IngestionRecord S)) :=
  consumer.table.map fun records => records.filter fun r =>
    !db.entries.any fun m =>
      m.sourceType = some consumer.sourceType && m.sourceId = some r.sourceId

def MemoryDb.known (db : MemoryDb S) (r : IngestionRecord S) : Option (MemoryRow S) :=
  db.entries.find? (·.provenanceKey = some (r.sourceType, r.sourceId))

/-- `_find_existing`. -/
def MemoryDb.findExisting (db : MemoryDb S) (r : IngestionRecord S) :
    Except String (Option (MemoryRow S)) :=
  match (db.known r).bind py.refuses with
  | some why => .error why
  | none => .ok (db.known r)

/-- The entry that `_ingest_one` makes of a record. -/
def IngestionConsumer.entry (r : IngestionRecord S) (existing : Option (MemoryRow S))
    (draw : Draw) : MemoryEntry S where
  memoryId := existing.elim draw.uuid (·.memoryId)
  memoryType := r.memoryType
  category := r.category
  content := String.ofList (r.content.toList.take 2000)
  sourceType := r.sourceType
  sourceId := r.sourceId
  lifecycleState := existing.elim (some "DRAFT") (·.lifecycleState)
  metadata := r.metadata
  importance := existing.elim (consumer.initialImportance r) (·.importance)
  confidence := r.confidence
  tags := r.tags
  project := r.project
  skill := r.skill
  provenance := some (consumer.provenance r draw.upserted)

/-- `_ingest_one`. -/
def MemoryDb.ingestOne (db : MemoryDb S) (result : IngestionResult) (r : IngestionRecord S)
    (draw : Draw) : Except String (MemoryDb S × IngestionResult) := do
  let existing ← db.findExisting py r
  let db' ← db.upsertByProvenance py (consumer.entry r existing draw) draw.uuid draw.upserted
    draw.stored
  match existing with
  | some _ => return (db', { result with recordsUpdated := result.recordsUpdated + 1 })
  | none => return (db', { result with recordsIngested := result.recordsIngested + 1 })

/-- What `ingest` does for one record: an exception is kept as an error. -/
def ingestNext (draws : IngestionRecord S → Draw) (state : MemoryDb S × IngestionResult)
    (r : IngestionRecord S) : MemoryDb S × IngestionResult :=
  match state.1.ingestOne py consumer state.2 r (draws r) with
  | .ok next => next
  | .error e => (state.1, { state.2 with errors := state.2.errors ++ [s!"{r.sourceId}: {e}"] })

/-- `IngestionConsumer.ingest`. -/
def MemoryDb.ingest (db : MemoryDb S) (draws : IngestionRecord S → Draw) :
    Except String (MemoryDb S × IngestionResult) := do
  let records ← db.fetchPending consumer
  return records.foldl (ingestNext py consumer draws)
    (db, ⟨consumer.name, records.length, 0, 0, 0, []⟩)

def IngestionConsumer.failed (e : String) : IngestionResult := ⟨consumer.name, 0, 0, 0, 0, [e]⟩

/-- The try block of `run_all_ingestion`. -/
def MemoryDb.tryIngest (db : MemoryDb S) (draws : IngestionRecord S → Draw) :
    MemoryDb S × IngestionResult :=
  match db.ingest py consumer draws with
  | .ok next => next
  | .error e => (db, consumer.failed e)

/-- `run_all_ingestion`. -/
def MemoryDb.runAllIngestion (db : MemoryDb S) (draws : IngestionRecord S → Draw) :
    List (IngestionConsumer S) → MemoryDb S × List IngestionResult
  | [] => (db, [])
  | consumer :: consumers =>
    let first := db.tryIngest py consumer draws
    let rest := first.1.runAllIngestion draws consumers
    (rest.1, first.2 :: rest.2)

end Ingestion

section Appends

variable {py : MemoryPython S} {db db' db'' : MemoryDb S} {rows rows' : List (MemoryRow S)}
  {consumer : IngestionConsumer S} {r : IngestionRecord S} {draws : IngestionRecord S → Draw}

/-- The database has these rows more, each with its row in the index. -/
structure Appended (db : MemoryDb S) (rows : List (MemoryRow S)) (db' : MemoryDb S) : Prop where
  entries : db'.entries = db.entries ++ rows
  fts : db'.fts = db.fts ++ rows.map MemoryRow.ftsRow

theorem Appended.refl (db : MemoryDb S) : Appended db [] db := ⟨by simp, by simp⟩

theorem Appended.trans (first : Appended db rows db') (next : Appended db' rows' db'') :
    Appended db (rows ++ rows') db'' where
  entries := by rw [next.entries, first.entries, List.append_assoc]
  fts := by rw [next.fts, first.fts, List.append_assoc, List.map_append]

theorem MemoryDb.appended_insertOrReplace {row : MemoryRow S}
    (apart : ∀ m ∈ db.entries, m.clash row = false) :
    Appended db [row] (db.insertOrReplace row) where
  entries := by
    rw [MemoryDb.insertOrReplace_entries, List.filter_eq_self.mpr]
    intro m member
    rw [apart m member]
    rfl
  fts := rfl

/-- Only a record with an id can be ingested. -/
def IngestionRecord.keyed (r : IngestionRecord S) : Bool := r.sourceId ≠ ""

/-- The row a record becomes where no memory has its provenance. -/
def IngestionConsumer.row (consumer : IngestionConsumer S) (py : MemoryPython S)
    (draws : IngestionRecord S → Draw) (r : IngestionRecord S) : MemoryRow S :=
  ((consumer.entry r none (draws r)).dated (draws r).upserted).row py
    ((consumer.entry r none (draws r)).idOr (draws r).uuid) (draws r).stored

theorem IngestionConsumer.row_memoryId : (consumer.row py draws r).memoryId = (draws r).uuid :=
  ite_self (c := (draws r).uuid = "") _

theorem IngestionConsumer.map_row_memoryId (rs : List (IngestionRecord S)) :
    (rs.map (consumer.row py draws)).map (·.memoryId) = rs.map fun r => (draws r).uuid := by
  rw [List.map_map]
  apply List.map_congr_left
  intro r _
  exact IngestionConsumer.row_memoryId

theorem IngestionConsumer.row_provenanceKey (keyed : r.keyed = true) :
    (consumer.row py draws r).provenanceKey = some (r.sourceType, r.sourceId) := by
  have named : r.sourceId ≠ "" := of_decide_eq_true keyed
  simp [MemoryRow.provenanceKey, IngestionConsumer.row, MemoryEntry.row, MemoryEntry.dated,
    IngestionConsumer.entry, named]

def IngestionResult.noted (result : IngestionResult) (r : IngestionRecord S) : IngestionResult :=
  if r.keyed then { result with recordsIngested := result.recordsIngested + 1 }
  else
    { result with
      errors := result.errors ++ [s!"{r.sourceId}: {MemoryDb.provenanceRequired}"] }

theorem upsert_unkeyed (bare : r.keyed = false) (existing : Option (MemoryRow S)) (draw : Draw) :
    db.upsertByProvenance py (consumer.entry r existing draw) draw.uuid draw.upserted draw.stored =
      .error MemoryDb.provenanceRequired := by
  rw [MemoryDb.upsertByProvenance]
  have unnamed : r.sourceId = "" := by simpa [IngestionRecord.keyed] using bare
  exact if_pos (.inr unnamed)

theorem ingestNext_unkeyed (bare : r.keyed = false) (state : MemoryDb S × IngestionResult) :
    (ingestNext py consumer draws state r).1 = state.1 := by
  rw [ingestNext, MemoryDb.ingestOne]
  cases state.1.findExisting py r with
  | error why => rfl
  | ok existing =>
    rw [ok_bind, upsert_unkeyed bare]
    rfl

theorem findExisting_unknown (unknown : db.known r = none) : db.findExisting py r = .ok none := by
  rw [MemoryDb.findExisting, unknown]
  rfl

theorem upsert_unknown (typed : r.sourceType = consumer.sourceType) (keyed : r.keyed = true)
    (unknown : db.known r = none) :
    db.upsertByProvenance py (consumer.entry r none (draws r)) (draws r).uuid (draws r).upserted
        (draws r).stored = .ok (db.insertOrReplace (consumer.row py draws r)) := by
  have named : r.sourceId ≠ "" := of_decide_eq_true keyed
  have absent : db.existing (consumer.entry r none (draws r)) = none := unknown
  rw [MemoryDb.upsertByProvenance, absent, if_neg]
  · rfl
  · simp [IngestionConsumer.entry, typed, consumer.named, named]

theorem clash_row (keyed : r.keyed = true) (unknown : db.known r = none)
    (fresh : (draws r).uuid ∉ db.entries.map (·.memoryId)) {m : MemoryRow S}
    (member : m ∈ db.entries) : m.clash (consumer.row py draws r) = false := by
  rw [MemoryRow.clash_eq_false_iff, IngestionConsumer.row_memoryId,
    IngestionConsumer.row_provenanceKey keyed]
  constructor
  · exact fun same => fresh (same ▸ List.mem_map_of_mem member)
  · exact fun same => absurd (decide_eq_true same) (List.find?_eq_none.mp unknown m member)

theorem appended_ingestNext (result : IngestionResult) (typed : r.sourceType = consumer.sourceType)
    (unknown : db.known r = none)
    (fresh : r.keyed = true → (draws r).uuid ∉ db.entries.map (·.memoryId)) :
    ∃ db', Appended db (([r].filter (·.keyed)).map (consumer.row py draws)) db' ∧
      ingestNext py consumer draws (db, result) r = (db', result.noted r) := by
  cases keyed : r.keyed with
  | false =>
    refine ⟨db, ?_, ?_⟩
    · rw [List.filter_singleton, keyed]
      exact Appended.refl db
    · rw [ingestNext, MemoryDb.ingestOne, findExisting_unknown unknown, ok_bind,
        upsert_unkeyed keyed, IngestionResult.noted, keyed]
      rfl
  | true =>
    refine ⟨db.insertOrReplace (consumer.row py draws r), ?_, ?_⟩
    · rw [List.filter_singleton, keyed]
      exact MemoryDb.appended_insertOrReplace fun m => clash_row keyed unknown (fresh keyed)
    · rw [ingestNext, MemoryDb.ingestOne, findExisting_unknown unknown, ok_bind,
        upsert_unknown typed keyed unknown, IngestionResult.noted, if_pos keyed]
      rfl

theorem known_appended {rs : List (IngestionRecord S)} {r' : IngestionRecord S}
    (appended : Appended db ((rs.filter (·.keyed)).map (consumer.row py draws)) db')
    (apart : ∀ r ∈ rs, r.sourceId ≠ r'.sourceId) : db'.known r' = db.known r' := by
  rw [MemoryDb.known, appended.entries, List.find?_append, MemoryDb.known]
  have none_new : ((rs.filter (·.keyed)).map (consumer.row py draws)).find?
      (·.provenanceKey = some (r'.sourceType, r'.sourceId)) = none := by
    apply List.find?_eq_none.mpr
    intro row member same
    obtain ⟨r, kept, rfl⟩ := List.mem_map.mp member
    obtain ⟨listed, keyed⟩ := List.mem_filter.mp kept
    rw [decide_eq_true_eq, IngestionConsumer.row_provenanceKey keyed, Option.some_inj] at same
    exact apart r listed (congrArg Prod.snd same)
  rw [none_new, Option.or_none]

theorem appended_foldl {rs : List (IngestionRecord S)}
    (typed : ∀ r ∈ rs, r.sourceType = consumer.sourceType) (nodup : (rs.map (·.sourceId)).Nodup)
    (unknown : ∀ r ∈ rs, db.known r = none)
    (fresh : (db.entries.map (·.memoryId) ++
      (rs.filter (·.keyed)).map fun r => (draws r).uuid).Nodup) (result : IngestionResult) :
    ∃ db', Appended db ((rs.filter (·.keyed)).map (consumer.row py draws)) db' ∧
      rs.foldl (ingestNext py consumer draws) (db, result) =
        (db', rs.foldl IngestionResult.noted result) := by
  induction rs generalizing db result with
  | nil => exact ⟨db, Appended.refl db, rfl⟩
  | cons r rs ih =>
    rw [List.forall_mem_cons] at typed unknown
    rw [List.map_cons, List.nodup_cons] at nodup
    have own : r.keyed = true → (draws r).uuid ∉ db.entries.map (·.memoryId) := by
      intro keyed inside
      rw [List.filter_cons_of_pos keyed, List.map_cons] at fresh
      exact List.disjoint_of_nodup_append fresh inside List.mem_cons_self
    obtain ⟨db', first, step⟩ : ∃ db',
        Appended db (([r].filter (·.keyed)).map (consumer.row py draws)) db' ∧
          ingestNext py consumer draws (db, result) r = (db', result.noted r) :=
      appended_ingestNext result typed.1 unknown.1 own
    have later : ∀ r' ∈ rs, db'.known r' = none := by
      intro r' listed
      rw [known_appended first, unknown.2 r' listed]
      intro e alone
      rw [List.mem_singleton.mp alone]
      intro same
      exact nodup.1 (same ▸ List.mem_map_of_mem listed)
    have fresh' : (db'.entries.map (·.memoryId) ++
        (rs.filter (·.keyed)).map fun r => (draws r).uuid).Nodup := by
      rw [first.entries, List.map_append, IngestionConsumer.map_row_memoryId, List.append_assoc,
        ← List.map_append, ← List.filter_append]
      exact fresh
    obtain ⟨db'', next, rest⟩ := ih typed.2 nodup.2 later fresh' (result.noted r)
    refine ⟨db'', ?_, ?_⟩
    · have both := first.trans next
      rw [← List.map_append, ← List.filter_append] at both
      exact both
    · rw [List.foldl_cons, step, rest, List.foldl_cons]

end Appends

section Consumers

variable {py : MemoryPython S} {db db' db'' : MemoryDb S} {rows : List (MemoryRow S)}
  {consumer : IngestionConsumer S} {consumers : List (IngestionConsumer S)}
  {r : IngestionRecord S} {draws : IngestionRecord S → Draw}

/-- The records that are pending, none where the table is not read. -/
def IngestionConsumer.pending (consumer : IngestionConsumer S) (db : MemoryDb S) :
    List (IngestionRecord S) :=
  (db.fetchPending consumer).toOption.getD []

theorem IngestionConsumer.mem_pending_iff :
    r ∈ consumer.pending db ↔ (∃ rs, consumer.table = .ok rs ∧ r ∈ rs) ∧
      ∀ m ∈ db.entries, m.provenanceKey ≠ some (consumer.sourceType, r.sourceId) := by
  rw [IngestionConsumer.pending, MemoryDb.fetchPending]
  cases consumer.table with
  | error e => simp [Except.map, Except.toOption]
  | ok rs => simp [Except.map, Except.toOption, MemoryRow.provenanceKey_eq_some]

theorem IngestionConsumer.typed_of_pending (pending : r ∈ consumer.pending db) :
    r.sourceType = consumer.sourceType := by
  obtain ⟨⟨rs, table, member⟩, -⟩ := IngestionConsumer.mem_pending_iff.mp pending
  exact consumer.typed rs table r member

/-- The rows that are yet to be made of a consumer's records. -/
def IngestionConsumer.pendingRows (consumer : IngestionConsumer S) (py : MemoryPython S)
    (draws : IngestionRecord S → Draw) (db : MemoryDb S) : List (MemoryRow S) :=
  ((consumer.pending db).filter (·.keyed)).map (consumer.row py draws)

def IngestionConsumer.outcome (consumer : IngestionConsumer S) (db : MemoryDb S) :
    IngestionResult :=
  match db.fetchPending consumer with
  | .error e => consumer.failed e
  | .ok records =>
    records.foldl IngestionResult.noted ⟨consumer.name, records.length, 0, 0, 0, []⟩

theorem appended_ingest (distinct : ((consumer.pending db).map (·.sourceId)).Nodup)
    (fresh : (db.entries.map (·.memoryId) ++
      (consumer.pendingRows py draws db).map (·.memoryId)).Nodup) :
    ∃ db', Appended db (consumer.pendingRows py draws db) db' ∧
      db.tryIngest py consumer draws = (db', consumer.outcome db) := by
  rw [MemoryDb.tryIngest, MemoryDb.ingest, IngestionConsumer.outcome]
  rw [IngestionConsumer.pendingRows, IngestionConsumer.map_row_memoryId] at fresh
  rw [IngestionConsumer.pendingRows]
  have typed : ∀ r ∈ consumer.pending db, r.sourceType = consumer.sourceType := fun _ =>
    consumer.typed_of_pending
  have unknown : ∀ r ∈ consumer.pending db, db.known r = none := by
    intro r pending
    apply List.find?_eq_none.mpr
    intro m member same
    rw [decide_eq_true_eq, typed r pending] at same
    exact (IngestionConsumer.mem_pending_iff.mp pending).2 m member same
  rw [IngestionConsumer.pending] at distinct fresh typed unknown ⊢
  cases fetched : db.fetchPending consumer with
  | error e => exact ⟨db, Appended.refl db, rfl⟩
  | ok records =>
    rw [fetched] at distinct fresh typed unknown
    obtain ⟨db', appended, same⟩ := appended_foldl typed distinct unknown fresh
      ⟨consumer.name, records.length, 0, 0, 0, []⟩
    exact ⟨db', appended, same⟩

theorem sourceType_pendingRows {row : MemoryRow S}
    (member : row ∈ consumer.pendingRows py draws db) :
    row.sourceType = some consumer.sourceType := by
  obtain ⟨r, kept, rfl⟩ := List.mem_map.mp member
  exact congrArg some (IngestionConsumer.typed_of_pending (List.mem_of_mem_filter kept))

theorem fetchPending_appended (appended : Appended db rows db')
    (apart : ∀ row ∈ rows, row.sourceType ≠ some consumer.sourceType) :
    db'.fetchPending consumer = db.fetchPending consumer := by
  rw [MemoryDb.fetchPending, MemoryDb.fetchPending, appended.entries]
  congr 1
  funext records
  apply List.filter_congr
  intro r _
  have none_new : (rows.any fun m =>
      m.sourceType = some consumer.sourceType && m.sourceId = some r.sourceId) = false := by
    apply List.any_eq_false.mpr
    intro row member
    simp [apart row member]
  rw [List.any_append, none_new, Bool.or_false]

theorem appended_runAllIngestion (types : (consumers.map (·.sourceType)).Nodup)
    (distinct : ∀ c ∈ consumers, ((c.pending db).map (·.sourceId)).Nodup)
    (fresh : (db.entries.map (·.memoryId) ++
      (consumers.flatMap fun c => c.pendingRows py draws db).map (·.memoryId)).Nodup) :
    ∃ db', Appended db (consumers.flatMap fun c => c.pendingRows py draws db) db' ∧
      db.runAllIngestion py draws consumers = (db', consumers.map fun c => c.outcome db) := by
  induction consumers generalizing db with
  | nil => exact ⟨db, Appended.refl db, rfl⟩
  | cons consumer consumers ih =>
    rw [List.map_cons, List.nodup_cons] at types
    rw [List.flatMap_cons, List.map_append, ← List.append_assoc] at fresh
    rw [List.forall_mem_cons] at distinct
    obtain ⟨db', first, step⟩ := appended_ingest distinct.1 fresh.of_append_left
    have same : ∀ c ∈ consumers, db'.fetchPending c = db.fetchPending c := by
      intro c listed
      apply fetchPending_appended first
      intro row member own
      rw [sourceType_pendingRows member, Option.some_inj] at own
      exact types.1 (own ▸ List.mem_map_of_mem listed)
    have rows : (consumers.flatMap fun c => c.pendingRows py draws db') =
        consumers.flatMap fun c => c.pendingRows py draws db := by
      apply List.flatMap_congr
      intro c listed
      rw [IngestionConsumer.pendingRows, IngestionConsumer.pending, same c listed]
      rfl
    have results : (consumers.map fun c => c.outcome db') =
        consumers.map fun c => c.outcome db := by
      apply List.map_congr_left
      intro c listed
      rw [IngestionConsumer.outcome, same c listed, IngestionConsumer.outcome]
    rw [← List.map_append, ← first.entries, ← rows] at fresh
    have distinct' : ∀ c ∈ consumers, ((c.pending db').map (·.sourceId)).Nodup := by
      intro c listed
      rw [IngestionConsumer.pending, same c listed]
      exact distinct.2 c listed
    obtain ⟨db'', next, rest⟩ := ih types.2 distinct' fresh
    refine ⟨db'', ?_, ?_⟩
    · rw [rows] at next
      exact first.trans next
    · rw [results] at rest
      simp only [MemoryDb.runAllIngestion, step, rest, List.map_cons]

/-- No record that could become a memory is left. -/
def Settled (db : MemoryDb S) (consumers : List (IngestionConsumer S)) : Prop :=
  ∀ c ∈ consumers, ∀ r ∈ c.pending db, r.keyed = false

theorem settled_of_appended
    (appended : Appended db (consumers.flatMap fun c => c.pendingRows py draws db) db') :
    Settled db' consumers := by
  intro c listed r pending
  by_contra keyed
  rw [Bool.not_eq_false] at keyed
  obtain ⟨own, unknown⟩ := IngestionConsumer.mem_pending_iff.mp pending
  rw [appended.entries] at unknown
  have before : r ∈ c.pending db :=
    IngestionConsumer.mem_pending_iff.mpr
      ⟨own, fun m member => unknown m (List.mem_append_left _ member)⟩
  have made : c.row py draws r ∈ consumers.flatMap fun c => c.pendingRows py draws db := by
    apply List.mem_flatMap.mpr
    exact ⟨c, listed, List.mem_map_of_mem (List.mem_filter.mpr ⟨before, keyed⟩)⟩
  apply unknown _ (List.mem_append_right _ made)
  rw [IngestionConsumer.row_provenanceKey keyed, c.typed_of_pending before]

theorem settled_run {acts : List (Act S)} (settled : Settled db consumers)
    (spared : ∀ m ∈ db.entries, m.provenanceKey ≠ none →
      ∀ x ∈ (system py).transitions db acts, Spares py m x.before x.label)
    (reach : (system py).run db acts = some db') : Settled db' consumers := by
  intro c listed r pending
  by_contra keyed
  obtain ⟨own, unknown⟩ := IngestionConsumer.mem_pending_iff.mp pending
  have gone : ¬ ∀ m ∈ db.entries, m.provenanceKey ≠ some (c.sourceType, r.sourceId) :=
    fun none => keyed (settled c listed r (IngestionConsumer.mem_pending_iff.mpr ⟨own, none⟩))
  push Not at gone
  obtain ⟨m, member, key⟩ := gone
  have named : m.provenanceKey ≠ none := by simp [key]
  obtain ⟨m', member', continues⟩ :=
    keeps_run ⟨m, member, ⟨rfl, rfl, rfl, rfl, rfl⟩⟩ named (spared m member named) reach
  exact unknown m' member' (continues.provenanceKey.trans key)

theorem foldl_unkeyed {rs : List (IngestionRecord S)} (bare : ∀ r ∈ rs, r.keyed = false)
    (state : MemoryDb S × IngestionResult) :
    (rs.foldl (ingestNext py consumer draws) state).1 = state.1 := by
  induction rs generalizing state with
  | nil => rfl
  | cons r rs ih =>
    rw [List.forall_mem_cons] at bare
    rw [List.foldl_cons, ih bare.2, ingestNext_unkeyed bare.1]

theorem tryIngest_settled (settled : ∀ r ∈ consumer.pending db, r.keyed = false) :
    (db.tryIngest py consumer draws).1 = db := by
  rw [MemoryDb.tryIngest, MemoryDb.ingest]
  rw [IngestionConsumer.pending] at settled
  cases fetched : db.fetchPending consumer with
  | error e => rfl
  | ok records =>
    rw [fetched] at settled
    exact foldl_unkeyed settled _

theorem runAllIngestion_settled (settled : Settled db consumers) :
    (db.runAllIngestion py draws consumers).1 = db := by
  induction consumers with
  | nil => rfl
  | cons consumer consumers ih =>
    obtain ⟨here, later⟩ := List.forall_mem_cons.mp settled
    rw [MemoryDb.runAllIngestion, tryIngest_settled here]
    exact ih later

/-- Where the pending records of a consumer have distinct ids, an ingestion adds one row for every
one that has an id, each consumer as if it were alone, and reports the others, and what raises, as
errors. Whatever is then done to the memories without replacing them, the next ingestion adds and
changes nothing. -/
theorem ingest_once (types : (consumers.map (·.sourceType)).Nodup)
    (distinct : ∀ c ∈ consumers, ((c.pending db).map (·.sourceId)).Nodup)
    (fresh : (db.entries.map (·.memoryId) ++
      (consumers.flatMap fun c => c.pendingRows py draws db).map (·.memoryId)).Nodup) :
    ∃ ingested, db.runAllIngestion py draws consumers =
        (ingested, consumers.map fun c => c.outcome db) ∧
      Appended db (consumers.flatMap fun c => c.pendingRows py draws db) ingested ∧
      ∀ acts db' draws',
        (∀ m ∈ ingested.entries, m.provenanceKey ≠ none →
          ∀ x ∈ (system py).transitions ingested acts, Spares py m x.before x.label) →
        (system py).run ingested acts = some db' →
          (db'.runAllIngestion py draws' consumers).1 = db' := by
  obtain ⟨ingested, appended, same⟩ := appended_runAllIngestion types distinct fresh
  refine ⟨ingested, same, appended, ?_⟩
  intro acts db' draws' spared reach
  exact runAllIngestion_settled (settled_run (settled_of_appended appended) spared reach)

def lessons : IngestionConsumer Nat where
  name := "lesson_ingestion"
  sourceType := "raw_lessons"
  table := .ok
    [⟨"raw_lessons", "L-1", "lesson", "read the log", some 6, "general", [], none, "", none, none⟩,
      ⟨"raw_lessons", "", "lesson", "ask", some 6, "general", [], none, "", none, none⟩]
  initialImportance _ := 6
  provenance r now := s!"{r.sourceId} {now}"
  named := by decide
  typed := by
    intro rs table
    rw [← Except.ok.inj table]
    simp

def drawn (_ : IngestionRecord Nat) : Draw := ⟨"m-2", "2", "3"⟩

theorem ingest_once_lessons :
    ∃ ingested, pitfalls.runAllIngestion tenths drawn [lessons] =
        (ingested, [⟨"lesson_ingestion", 2, 1, 0, 0,
          [": upsert_by_provenance requires source_type and source_id"]⟩]) ∧
      ingested.entries.map (·.memoryId) = ["m-1", "m-2"] ∧
        (((ingested.recordAccess "m-2" "4").rebuildIndex).runAllIngestion tenths drawn
          [lessons]).1 = (ingested.recordAccess "m-2" "4").rebuildIndex := by
  have types : ([lessons].map (·.sourceType)).Nodup := by decide
  have fresh : (pitfalls.entries.map (·.memoryId) ++
      ([lessons].flatMap fun c => c.pendingRows tenths drawn pitfalls).map (·.memoryId)).Nodup := by
    decide
  have distinct : ∀ c ∈ [lessons], ((c.pending pitfalls).map (·.sourceId)).Nodup := by decide
  obtain ⟨ingested, result, appended, again⟩ := ingest_once types distinct fresh
  refine ⟨ingested, result, by rw [appended.entries]; decide, ?_⟩
  apply again [.recordAccess "m-2" "4", .rebuild] _ drawn _ rfl
  intro m _ _
  simp only [forall_transitions_cons]
  exact ⟨trivial, trivial, List.forall_mem_nil _⟩

end Consumers

section Dedup

variable {db : MemoryDb S} {m : MemoryRow S} {ids : List String}

theorem flatten_batches {size fuel : Nat} (some_size : 0 < size) (enough : ids.length ≤ fuel) :
    (MemoryDb.batches size fuel ids).flatten = ids := by
  induction fuel generalizing ids with
  | zero =>
    rw [List.eq_nil_of_length_eq_zero (Nat.le_zero.mp enough)]
    rfl
  | succ fuel ih =>
    rw [MemoryDb.batches]
    split
    next empty => exact empty.symm
    next =>
      rw [List.flatten_cons, ih, List.take_append_drop]
      rw [List.length_drop]
      omega

theorem entries_foldl_delete (db : MemoryDb S) (chunks : List (List String)) :
    (chunks.foldl MemoryDb.delete db).entries =
      db.entries.filter (!chunks.flatten.contains ·.memoryId) := by
  induction chunks generalizing db with
  | nil => simp
  | cons chunk chunks ih =>
    rw [List.foldl_cons, ih, MemoryDb.delete, List.filter_filter, List.flatten_cons]
    apply List.filter_congr
    intro m _
    rw [List.contains_append, Bool.not_or, Bool.and_comm]

theorem any_filter_memoryId (rows : List (MemoryRow S)) (ids : List String) (id : String) :
    (rows.filter (!ids.contains ·.memoryId)).any (·.memoryId = id) =
      (!ids.contains id && rows.any (·.memoryId = id)) := by
  rw [List.any_filter]
  induction rows with
  | nil => simp
  | cons m rows ih =>
    rw [List.any_cons, List.any_cons, ih, Bool.and_or_distrib_left]
    congr 1
    by_cases here : m.memoryId = id
    · rw [here]
    · simp [here]

theorem fts_foldl_delete (db : MemoryDb S) (chunks : List (List String)) :
    (chunks.foldl MemoryDb.delete db).fts = db.fts.filter fun row =>
      !(chunks.flatten.contains row.memoryId && db.entries.any (·.memoryId = row.memoryId)) := by
  induction chunks generalizing db with
  | nil => simp
  | cons chunk chunks ih =>
    rw [List.foldl_cons, ih, MemoryDb.delete, List.filter_filter, List.flatten_cons]
    apply List.filter_congr
    intro row _
    rw [any_filter_memoryId, List.contains_append]
    cases chunk.contains row.memoryId <;> simp

theorem mem_findOrphanCandidates (member : m ∈ db.entries) :
    m.memoryId ∈ db.findOrphanCandidates ↔ MemoryDb.orphan db.entries m = true := by
  constructor
  · intro listed
    obtain ⟨e, inside, same⟩ := List.mem_map.mp listed
    obtain ⟨there, isOrphan⟩ := List.mem_filter.mp inside
    rw [← db.eq_of_memoryId there member same]
    exact isOrphan
  · exact fun isOrphan => List.mem_map_of_mem (List.mem_filter.mpr ⟨member, isOrphan⟩)

theorem entries_dedupOrphans (db : MemoryDb S) :
    (db.dedupOrphans false).1.entries = db.entries.filter (!MemoryDb.orphan db.entries ·) := by
  have each : db.entries.filter (!db.findOrphanCandidates.contains ·.memoryId) =
      db.entries.filter (!MemoryDb.orphan db.entries ·) := by
    apply List.filter_congr
    intro m member
    rw [Bool.not_inj_iff, Bool.eq_iff_iff, List.contains_iff_mem]
    exact mem_findOrphanCandidates member
  rw [MemoryDb.dedupOrphans, ← each]
  split
  next done =>
    have none : db.findOrphanCandidates = [] := by simpa using done
    simp [none]
  next => rw [entries_foldl_delete, flatten_batches (by decide) le_rfl]

theorem fts_dedupOrphans (db : MemoryDb S) :
    (db.dedupOrphans false).1.fts =
      db.fts.filter (!db.findOrphanCandidates.contains ·.memoryId) := by
  rw [MemoryDb.dedupOrphans]
  split
  next done =>
    have none : db.findOrphanCandidates = [] := by simpa using done
    simp [none]
  next =>
    rw [fts_foldl_delete, flatten_batches (by decide) le_rfl]
    apply List.filter_congr
    intro row _
    cases listed : db.findOrphanCandidates.contains row.memoryId with
    | false => rw [Bool.false_and]
    | true =>
      obtain ⟨m, inside, same⟩ := List.mem_map.mp (List.contains_iff_mem.mp listed)
      rw [Bool.true_and, List.any_eq_true.mpr]
      exact ⟨m, List.mem_of_mem_filter inside, decide_eq_true same⟩

theorem result_dedupOrphans (db : MemoryDb S) :
    (db.dedupOrphans false).2 =
      ⟨db.findOrphanCandidates.length, db.findOrphanCandidates.length, db.countUnmatchedNulls⟩ := by
  rw [MemoryDb.dedupOrphans]
  split
  next done =>
    have none : db.findOrphanCandidates = [] := by simpa using done
    rw [none]
    rfl
  next =>
    have all : ((MemoryDb.batches 200 db.findOrphanCandidates.length
        db.findOrphanCandidates).map List.length).sum = db.findOrphanCandidates.length := by
      rw [← List.length_flatten, flatten_batches (by decide) le_rfl]
    simp only [all]

theorem orphan_filter (rows : List (MemoryRow S)) (m : MemoryRow S) :
    MemoryDb.orphan (rows.filter (!MemoryDb.orphan rows ·)) m = MemoryDb.orphan rows m := by
  rw [MemoryDb.orphan, MemoryDb.orphan, List.any_filter]
  congr 2
  funext other
  cases keyed : other.sourceType with
  | none => simp
  | some t => simp [MemoryDb.orphan, keyed]

theorem isNone_of_orphan {rows : List (MemoryRow S)} (isOrphan : MemoryDb.orphan rows m = true) :
    m.sourceType.isNone = true := by
  rw [MemoryDb.orphan, Bool.and_eq_true] at isOrphan
  exact isOrphan.1

theorem length_findOrphanCandidates (db : MemoryDb S) :
    db.findOrphanCandidates.length + db.countUnmatchedNulls =
      db.entries.countP (·.sourceType.isNone) := by
  rw [MemoryDb.findOrphanCandidates, List.length_map, ← List.countP_eq_length_filter,
    MemoryDb.countUnmatchedNulls,
    List.countP_eq_countP_filter_add db.entries (·.sourceType.isNone) (MemoryDb.orphan db.entries),
    List.countP_filter, List.countP_filter]
  congr 1
  apply List.countP_congr
  intro m _
  constructor
  · intro isOrphan
    rw [isOrphan, isNone_of_orphan isOrphan, Bool.and_self]
  · intro both
    exact (Bool.and_eq_true_iff.mp both).2

theorem findOrphanCandidates_dedupOrphans (db : MemoryDb S) :
    (db.dedupOrphans false).1.findOrphanCandidates = [] := by
  rw [MemoryDb.findOrphanCandidates, entries_dedupOrphans, List.map_eq_nil_iff,
    List.filter_eq_nil_iff]
  intro m member
  rw [orphan_filter]
  simpa using (List.mem_filter.mp member).2

theorem countUnmatchedNulls_dedupOrphans (db : MemoryDb S) :
    (db.dedupOrphans false).1.countUnmatchedNulls = db.countUnmatchedNulls := by
  rw [MemoryDb.countUnmatchedNulls, entries_dedupOrphans, List.countP_filter,
    MemoryDb.countUnmatchedNulls]
  apply List.countP_congr
  intro m _
  rw [orphan_filter, Bool.and_assoc, Bool.and_self]

theorem content_dedupOrphans (db : MemoryDb S) (member : m ∈ db.entries) :
    ∃ kept ∈ (db.dedupOrphans false).1.entries, kept.content = m.content := by
  rw [entries_dedupOrphans]
  cases isOrphan : MemoryDb.orphan db.entries m with
  | false => exact ⟨m, List.mem_filter.mpr ⟨member, by rw [isOrphan]; rfl⟩, rfl⟩
  | true =>
    rw [MemoryDb.orphan, Bool.and_eq_true, List.any_eq_true] at isOrphan
    obtain ⟨other, inside, both⟩ := isOrphan.2
    rw [Bool.and_eq_true, Bool.and_eq_true, decide_eq_true_eq] at both
    refine ⟨other, List.mem_filter.mpr ⟨inside, ?_⟩, both.1.2⟩
    obtain ⟨t, keyed⟩ := Option.isSome_iff_exists.mp both.1.1
    rw [MemoryDb.orphan, keyed]
    rfl

/-- A deduplication deletes the orphans and their rows of the index, and nothing else; every row
without a source type is deleted or counted as preserved, and every text is held as before. Another
one finds no orphan, and the same to preserve. -/
theorem dedupOrphans_spec (db : MemoryDb S) :
    (db.dedupOrphans false).1.entries = db.entries.filter (!MemoryDb.orphan db.entries ·) ∧
      (db.dedupOrphans false).1.fts =
        db.fts.filter (!db.findOrphanCandidates.contains ·.memoryId) ∧
      (db.dedupOrphans false).2.deleted + (db.dedupOrphans false).2.preservedNull =
        db.entries.countP (·.sourceType.isNone) ∧
      (∀ m ∈ db.entries, ∃ kept ∈ (db.dedupOrphans false).1.entries, kept.content = m.content) ∧
      ∀ dryRun, (db.dedupOrphans false).1.dedupOrphans dryRun =
        ((db.dedupOrphans false).1, ⟨0, 0, (db.dedupOrphans false).2.preservedNull⟩) := by
  refine ⟨entries_dedupOrphans db, fts_dedupOrphans db, ?_, ?_, ?_⟩
  · rw [result_dedupOrphans]
    exact length_findOrphanCandidates db
  · exact fun m => content_dedupOrphans db
  · intro dryRun
    rw [result_dedupOrphans, ← countUnmatchedNulls_dedupOrphans, MemoryDb.dedupOrphans]
    have none := findOrphanCandidates_dedupOrphans db
    rw [if_pos (.inr none), none]
    rfl

end Dedup

end DreamStudio.Memory
