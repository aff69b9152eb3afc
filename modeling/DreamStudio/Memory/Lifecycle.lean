import DreamStudio.Library.Machine
import DreamStudio.Memory.Store
import Mathlib.Logic.Relation

namespace DreamStudio.Memory

open Library

variable {S : Type} (py : MemoryPython S)

section System

/-- What is done to the memories, in any order. An upsert that finds nothing may lie apart from the
store it goes on to; that store is then a `store` of its own. -/
inductive Act (S : Type)
  | store (entry : MemoryEntry S) (uuid now : String)
  | upsert (entry : MemoryEntry S) (uuid now later : String)
  | transition (memoryId newState now : String)
  | recordAccess (memoryId now : String)
  | boost (memoryId : String) (delta : S) (now : String)
  | decay (memoryId : String) (delta : S) (now : String)
  | stamp (ids : List String) (now : String)
  | dedup (dryRun : Bool)
  | rebuild

def MemoryDb.orSame (db : MemoryDb S) : Except String (MemoryDb S) → MemoryDb S
  | .ok db' => db'
  | .error _ => db

def MemoryDb.apply (db : MemoryDb S) : Act S → MemoryDb S
  | .store entry uuid now => db.store py entry uuid now
  | .upsert entry uuid now later => db.orSame (db.upsertByProvenance py entry uuid now later)
  | .transition memoryId newState now => db.orSame (db.transition memoryId newState now)
  | .recordAccess memoryId now => db.recordAccess memoryId now
  | .boost memoryId delta now => db.boostImportance py memoryId delta now
  | .decay memoryId delta now => db.decayImportance py memoryId delta now
  | .stamp ids now => db.stampSurfaced ids now
  | .dedup dryRun => (db.dedupOrphans dryRun).1
  | .rebuild => db.rebuildIndex

def system : Machine (MemoryDb S) (Act S) := ⟨fun db a => some (db.apply py a)⟩

end System

section Standing

/-- What a memory has come to. -/
structure Standing (S : Type) where
  lifecycleState : Option String
  accessCount : Nat
  importance : S

def MemoryRow.standing (m : MemoryRow S) : Standing S :=
  ⟨m.lifecycleState, m.accessCount, m.importance⟩

/-- How a memory's standing moves: only by what is asked of this memory. -/
def Standing.next (memoryId : String) (s : Standing S) : Act S → Standing S
  | .transition id newState _ =>
    if id = memoryId ∧ lifecycleCatalog.validateState "memory" newState = true ∧
        lifecycleCatalog.validateTransition "memory" s.lifecycleState newState = true then
      { s with lifecycleState := some newState }
    else s
  | .recordAccess id _ => if id = memoryId then { s with accessCount := s.accessCount + 1 } else s
  | .boost id delta _ =>
    if id = memoryId then { s with importance := py.raised s.importance delta } else s
  | .decay id delta _ =>
    if id = memoryId then { s with importance := py.lowered s.importance delta } else s
  | _ => s

/-- The act does not replace the memory by another row. -/
def Spares (m : MemoryRow S) (db : MemoryDb S) : Act S → Prop
  | .store entry uuid now => m.clash (entry.row py (entry.idOr uuid) now) = false
  | .upsert entry uuid _ _ => db.existing entry = none → entry.idOr uuid ≠ m.memoryId
  | _ => True

/-- A row that is the memory still, with a standing. -/
structure Continues (m : MemoryRow S) (standing : Standing S) (m' : MemoryRow S) : Prop where
  memoryId : m'.memoryId = m.memoryId
  provenanceKey : m'.provenanceKey = m.provenanceKey
  source : m'.source = m.source
  createdAt : m'.createdAt = m.createdAt
  standing : m'.standing = standing

def MemoryDb.Keeps (db : MemoryDb S) (m : MemoryRow S) (standing : Standing S) : Prop :=
  ∃ m' ∈ db.entries, Continues m standing m'

end Standing

section Statements

variable {db : MemoryDb S} {m m' row : MemoryRow S} {s : Standing S} {id : String}
  {change : MemoryDb.Change S} {ids : List String}

theorem MemoryDb.mem_update (member : m ∈ db.entries) :
    (if m.memoryId = id then change.apply m else m) ∈ (db.update id change).entries := by
  apply List.mem_map.mpr
  exact ⟨m, member, by simp⟩

theorem MemoryDb.eq_of_memoryId (db : MemoryDb S) (member : m ∈ db.entries)
    (member' : m' ∈ db.entries) (same : m.memoryId = m'.memoryId) : m = m' :=
  Table.eq_of_key_eq db.ids_unique member member' (congrArg some same) (Option.some_ne_none _)

theorem MemoryDb.find_memoryId (db : MemoryDb S) (member : m ∈ db.entries)
    (same : m.memoryId = id) : db.entries.find? (·.memoryId = id) = some m := by
  cases found : db.entries.find? (·.memoryId = id) with
  | none => exact absurd (decide_eq_true same) (List.find?_eq_none.mp found m member)
  | some e =>
    have named : e.memoryId = id := by simpa using List.find?_some found
    rw [db.eq_of_memoryId (List.mem_of_find?_eq_some found) member (named.trans same.symm)]

theorem MemoryRow.provenanceKey_eq_some {t i : String} :
    m.provenanceKey = some (t, i) ↔ m.sourceType = some t ∧ m.sourceId = some i := by
  rw [MemoryRow.provenanceKey]
  cases m.sourceType <;> cases m.sourceId <;> simp

theorem MemoryRow.clash_eq_false_iff :
    m.clash row = false ↔ m.memoryId ≠ row.memoryId ∧
      (m.provenanceKey = row.provenanceKey → m.provenanceKey = none) := by
  rw [MemoryRow.clash, Bool.or_eq_false_iff, decide_eq_false_iff_not, decide_eq_false_iff_not]
  simp [Table.SameKey, MemoryRow.key]

theorem MemoryDb.Keeps.replaced (keeps : db.Keeps m s) (apart : m.clash row = false) :
    (db.insertOrReplace row).Keeps m s := by
  obtain ⟨m', member, continues⟩ := keeps
  refine ⟨m', List.mem_append_left _ (List.mem_filter.mpr ⟨member, ?_⟩), continues⟩
  have same : m'.clash row = false := by
    rw [MemoryRow.clash_eq_false_iff, continues.memoryId, continues.provenanceKey]
    exact MemoryRow.clash_eq_false_iff.mp apart
  rw [same]
  rfl

theorem MemoryDb.Keeps.updated (keeps : db.Keeps m s) {s' : Standing S}
    (own : id = m.memoryId → ∀ m', Continues m s m' → Continues m s' (change.apply m'))
    (other : id ≠ m.memoryId → s' = s) : (db.update id change).Keeps m s' := by
  obtain ⟨m', member, continues⟩ := keeps
  refine ⟨if m'.memoryId = id then change.apply m' else m', MemoryDb.mem_update member, ?_⟩
  by_cases here : m'.memoryId = id
  · rw [if_pos here]
    exact own (here.symm.trans continues.memoryId) m' continues
  · rw [if_neg here, other fun same => here (continues.memoryId.trans same.symm)]
    exact continues

theorem MemoryDb.Keeps.deleted (keeps : db.Keeps m s) (apart : m.memoryId ∉ ids) :
    (db.delete ids).Keeps m s := by
  obtain ⟨m', member, continues⟩ := keeps
  refine ⟨m', List.mem_filter.mpr ⟨member, ?_⟩, continues⟩
  rw [continues.memoryId]
  simpa using apart

end Statements

section Steps

variable {py : MemoryPython S} {db : MemoryDb S} {m m' : MemoryRow S} {s : Standing S}

theorem keeps_upsert (keeps : db.Keeps m s) {entry : MemoryEntry S} {uuid now later : String}
    (spares : db.existing entry = none → entry.idOr uuid ≠ m.memoryId) :
    (db.orSame (db.upsertByProvenance py entry uuid now later)).Keeps m s := by
  rw [MemoryDb.upsertByProvenance]
  split
  next => exact keeps
  next named =>
    rw [not_or] at named
    split
    next => exact keeps.updated (fun _ m' continues => { continues with }) fun _ => rfl
    next unknown =>
      apply keeps.replaced
      obtain ⟨m', member, continues⟩ := keeps
      have apart : m.memoryId ≠ entry.idOr uuid := (spares unknown).symm
      have other : m.provenanceKey ≠ some (entry.sourceType, entry.sourceId) := by
        rw [← continues.provenanceKey]
        simpa using List.find?_eq_none.mp unknown m' member
      have own : ((entry.dated now).row py ((entry.dated now).idOr uuid) later).provenanceKey =
          some (entry.sourceType, entry.sourceId) := by
        simp [MemoryRow.provenanceKey, MemoryEntry.row, MemoryEntry.dated, named.2]
      rw [MemoryRow.clash_eq_false_iff, own]
      exact ⟨apart, fun same => absurd same other⟩

theorem orSame_transition (memoryId newState now : String) :
    db.orSame (db.transition memoryId newState now) =
      if lifecycleCatalog.validateState "memory" newState = true ∧
          (db.entries.find? (·.memoryId = memoryId)).any
            (fun e => lifecycleCatalog.validateTransition "memory" e.lifecycleState newState) = true
      then db.update memoryId (MemoryDb.moved newState now) else db := by
  rw [MemoryDb.transition]
  cases lifecycleCatalog.validateState "memory" newState with
  | false => rfl
  | true =>
    cases db.entries.find? (·.memoryId = memoryId) with
    | none => rfl
    | some e =>
      cases h : lifecycleCatalog.validateTransition "memory" e.lifecycleState newState <;>
        simp [h, MemoryDb.orSame]

theorem keeps_transition (keeps : db.Keeps m s) (memoryId newState now : String) :
    (db.orSame (db.transition memoryId newState now)).Keeps m
      (s.next py m.memoryId (.transition memoryId newState now)) := by
  rw [orSame_transition, Standing.next]
  by_cases here : memoryId = m.memoryId
  · obtain ⟨m', member, continues⟩ := keeps
    have found : db.entries.find? (·.memoryId = memoryId) = some m' :=
      db.find_memoryId member (continues.memoryId.trans here.symm)
    have state : m'.lifecycleState = s.lifecycleState := congrArg (·.lifecycleState)
      continues.standing
    rw [found, Option.any_some, state]
    simp only [here, true_and]
    split
    next =>
      apply MemoryDb.Keeps.updated ⟨m', member, continues⟩
      · intro _ e goes
        exact { goes with standing := by rw [← goes.standing]; rfl }
      · exact fun other => absurd rfl other
    next => exact ⟨m', member, continues⟩
  · rw [if_neg (c := memoryId = m.memoryId ∧ _) fun both => here both.1]
    split
    next => exact keeps.updated (fun same => absurd same here) fun _ => rfl
    next => exact keeps

theorem keeps_stamp (keeps : db.Keeps m s) (ids : List String) (now : String) :
    (db.stampSurfaced ids now).Keeps m s := by
  induction ids generalizing db with
  | nil => exact keeps
  | cons id ids ih =>
    exact ih (keeps.updated (fun _ m' continues => { continues with }) fun _ => rfl)

theorem not_mem_findOrphanCandidates (keeps : db.Keeps m s) (keyed : m.provenanceKey ≠ none) :
    m.memoryId ∉ db.findOrphanCandidates := by
  intro listed
  obtain ⟨e, inside, same⟩ := List.mem_map.mp listed
  obtain ⟨there, isOrphan⟩ := List.mem_filter.mp inside
  obtain ⟨m', member, continues⟩ := keeps
  have one : e = m' := db.eq_of_memoryId there member (same.trans continues.memoryId.symm)
  have bare : m'.sourceType = none := by
    rw [one, MemoryDb.orphan, Bool.and_eq_true, Option.isNone_iff_eq_none] at isOrphan
    exact isOrphan.1
  apply keyed
  rw [← continues.provenanceKey, MemoryRow.provenanceKey, bare]
  rfl

theorem mem_of_mem_batches {size fuel : Nat} {ids chunk : List String} {id : String}
    (member : chunk ∈ MemoryDb.batches size fuel ids) (inside : id ∈ chunk) : id ∈ ids := by
  induction fuel generalizing ids with
  | zero => cases member
  | succ fuel ih =>
    rw [MemoryDb.batches] at member
    split at member
    next => cases member
    next =>
      obtain rfl | later := List.mem_cons.mp member
      · exact List.mem_of_mem_take inside
      · exact List.mem_of_mem_drop (ih later)

theorem MemoryDb.Keeps.batched (keeps : db.Keeps m s) {chunks : List (List String)}
    (apart : ∀ chunk ∈ chunks, m.memoryId ∉ chunk) :
    (chunks.foldl MemoryDb.delete db).Keeps m s := by
  induction chunks generalizing db with
  | nil => exact keeps
  | cons chunk chunks ih =>
    rw [List.forall_mem_cons] at apart
    exact ih (keeps.deleted apart.1) apart.2

theorem keeps_dedup (keeps : db.Keeps m s) (keyed : m.provenanceKey ≠ none) (dryRun : Bool) :
    (db.dedupOrphans dryRun).1.Keeps m s := by
  have spared := not_mem_findOrphanCandidates keeps keyed
  rw [MemoryDb.dedupOrphans]
  split
  next => exact keeps
  next => exact keeps.batched fun chunk member inside => spared (mem_of_mem_batches member inside)

theorem keeps_apply {a : Act S} (keeps : db.Keeps m s) (keyed : m.provenanceKey ≠ none)
    (spares : Spares py m db a) : (db.apply py a).Keeps m (s.next py m.memoryId a) := by
  cases a with
  | store entry uuid now => exact keeps.replaced spares
  | upsert entry uuid now later => exact keeps_upsert keeps spares
  | transition memoryId newState now => exact keeps_transition keeps memoryId newState now
  | recordAccess memoryId now =>
    apply keeps.updated
    · intro same m' goes
      exact { goes with standing := by rw [Standing.next, if_pos same, ← goes.standing]; rfl }
    · exact fun other => if_neg other
  | boost memoryId delta now =>
    apply keeps.updated
    · intro same m' goes
      exact { goes with standing := by rw [Standing.next, if_pos same, ← goes.standing]; rfl }
    · exact fun other => if_neg other
  | decay memoryId delta now =>
    apply keeps.updated
    · intro same m' goes
      exact { goes with standing := by rw [Standing.next, if_pos same, ← goes.standing]; rfl }
    · exact fun other => if_neg other
  | stamp ids now => exact keeps_stamp keeps ids now
  | dedup dryRun => exact keeps_dedup keeps keyed dryRun
  | rebuild => exact keeps

end Steps

section Runs

variable {py : MemoryPython S} {db db' : MemoryDb S} {m : MemoryRow S} {s : Standing S}
  {acts : List (Act S)}

theorem forall_transitions_cons {a : Act S}
    {P : Machine.Transition (MemoryDb S) (Act S) → Prop} :
    (∀ x ∈ (system py).transitions db (a :: acts), P x) ↔
      P ⟨db, a, db.apply py a⟩ ∧ ∀ x ∈ (system py).transitions (db.apply py a) acts, P x := by
  have step : (system py).step db a = some (db.apply py a) := rfl
  rw [(system py).transitions_cons_of_step step, List.forall_mem_cons]

theorem keeps_run (keeps : db.Keeps m s) (keyed : m.provenanceKey ≠ none)
    (spared : ∀ x ∈ (system py).transitions db acts, Spares py m x.before x.label)
    (reach : (system py).run db acts = some db') :
    db'.Keeps m (acts.foldl (Standing.next py m.memoryId) s) := by
  induction acts generalizing db s with
  | nil =>
    cases reach
    exact keeps
  | cons a acts ih =>
    rw [forall_transitions_cons] at spared
    exact ih (keeps_apply keeps keyed spared.1) spared.2 reach

/-- In every run, whatever else is stored, ingested, deduplicated or indexed, a memory with a
provenance that no row replaces is there, and its state, its count of accesses and its importance
are what the acts that name it make of them. -/
theorem standing_run (member : m ∈ db.entries) (keyed : m.provenanceKey ≠ none)
    (spared : ∀ x ∈ (system py).transitions db acts, Spares py m x.before x.label)
    (reach : (system py).run db acts = some db') :
    ∃ m' ∈ db'.entries,
      Continues m (acts.foldl (Standing.next py m.memoryId) m.standing) m' :=
  keeps_run ⟨m, member, ⟨rfl, rfl, rfl, rfl, rfl⟩⟩ keyed spared reach

def tenths : MemoryPython Nat where
  refuses _ := none
  dumps tags := "[" ++ ", ".intercalate (tags.map String.quote) ++ "]"
  raised importance delta := min 10 (importance + delta)
  lowered importance delta := importance - delta

def blank : MemoryDb Nat := ⟨[], [], .nil, .nil⟩

def pitfall : MemoryEntry Nat where
  memoryType := "gotcha"
  category := "debugging"
  content := "close the file"
  sourceType := "reg_gotchas"
  sourceId := "G-1"
  importance := 5

def lesson : MemoryEntry Nat where
  memoryType := "lesson"
  category := "general"
  content := "read the log"
  sourceType := "raw_lessons"
  sourceId := "L-1"
  importance := 6

def kept : List (Act Nat) :=
  [.recordAccess "m-1" "2", .store lesson "m-2" "3", .boost "m-1" 8 "4",
    .transition "m-1" "STALE" "5", .dedup false]

def pitfalls : MemoryDb Nat := blank.store tenths pitfall "m-1" "1"

theorem spares_kept : ∀ x ∈ (system tenths).transitions pitfalls kept,
    Spares tenths (pitfall.row tenths "m-1" "1") x.before x.label := by
  simp only [kept, forall_transitions_cons]
  refine ⟨trivial, rfl, trivial, trivial, trivial, ?_⟩
  exact List.forall_mem_nil _

theorem standing_run_kept :
    ∃ m ∈ (kept.foldl (MemoryDb.apply tenths) pitfalls).entries,
      Continues (pitfall.row tenths "m-1" "1") ⟨some "STALE", 1, 10⟩ m :=
  standing_run (List.mem_singleton_self (pitfall.row tenths "m-1" "1")) (by decide) spares_kept rfl

/-- A step of the lifecycle that the catalog allows. -/
def Moves (fromState toState : Option String) : Prop :=
  ∃ state, toState = some state ∧
    lifecycleCatalog.validateTransition "memory" fromState state = true

theorem moves_next (a : Act S) (s : Standing S) (id : String) :
    Relation.ReflTransGen Moves s.lifecycleState (s.next py id a).lifecycleState := by
  cases a with
  | transition id' newState now =>
    rw [Standing.next]
    split
    next allowed => exact .single ⟨newState, rfl, allowed.2.2⟩
    next => exact .refl
  | recordAccess id' now =>
    rw [Standing.next]
    split <;> exact .refl
  | boost id' delta now =>
    rw [Standing.next]
    split <;> exact .refl
  | decay id' delta now =>
    rw [Standing.next]
    split <;> exact .refl
  | store entry uuid now => exact .refl
  | upsert entry uuid now later => exact .refl
  | stamp ids now => exact .refl
  | dedup dryRun => exact .refl
  | rebuild => exact .refl

theorem moves_foldl (py : MemoryPython S) (acts : List (Act S)) (s : Standing S) (id : String) :
    Relation.ReflTransGen Moves s.lifecycleState
      (acts.foldl (Standing.next py id) s).lifecycleState := by
  induction acts generalizing s with
  | nil => exact .refl
  | cons a acts ih => exact (moves_next a s id).trans (ih _)

theorem MemoryRow.retrievable_of_admits {query : MemoryQuery S} {m : MemoryRow S}
    {like : String → String → Bool} (admitted : query.admits like m = true) :
    m.retrievable query.states = true := by
  simp only [MemoryQuery.admits, Bool.and_eq_true] at admitted
  exact admitted.1.1.1.1.1.1

section Found

variable {R : Type} [LinearOrder S] {tools : MemoryDb.Retrieval S R} {query : MemoryQuery S}
  {results : List (MemoryRow S × R)}

theorem mem_fetched {m : MemoryRow S} (member : m ∈ MemoryDb.fetched tools db query) :
    m ∈ db.entries ∧ query.admits tools.like m = true :=
  List.mem_filter.mp ((List.mem_insertionSort _).mp (List.mem_of_mem_take member))

variable [LinearOrder R]

theorem retrieve_eq_ok (answered : MemoryDb.retrieve py tools db query = .ok results) :
    results = ((((MemoryDb.fetched tools db query).filter fun m =>
      query.includeDecayed || !tools.faded m).map fun m =>
        (m, tools.relevance query.text m)).insertionSort fun r s => s.2 ≤ r.2).take query.limit := by
  rw [MemoryDb.retrieve] at answered
  split at answered
  · cases answered
  · exact (Except.ok.inj answered).symm

theorem mem_retrieved (answered : MemoryDb.retrieve py tools db query = .ok results)
    {r : MemoryRow S × R} (found : r ∈ results) :
    r.1 ∈ MemoryDb.fetched tools db query ∧ (query.includeDecayed || !tools.faded r.1) = true ∧
      r.2 = tools.relevance query.text r.1 := by
  rw [retrieve_eq_ok answered] at found
  obtain ⟨m, kept, rfl⟩ :=
    List.mem_map.mp ((List.mem_insertionSort _).mp (List.mem_of_mem_take found))
  obtain ⟨member, fresh⟩ := List.mem_filter.mp kept
  exact ⟨member, fresh, rfl⟩

theorem search_eq_ok {available : Bool} {text : String} {topK : Nat}
    (answered : MemoryDb.search py tools db available text query topK = .ok results) :
    results = [] ∨
      MemoryDb.retrieve py tools db { query with text := text, limit := topK } = .ok results := by
  rw [MemoryDb.search] at answered
  split at answered
  · exact Or.inl (Except.ok.inj answered).symm
  · split at answered
    · exact Or.inl (Except.ok.inj answered).symm
    · exact Or.inr answered

end Found

theorem archived_final {state : Option String}
    (path : Relation.ReflTransGen Moves (some "ARCHIVED") state) : state = some "ARCHIVED" := by
  induction path with
  | refl => rfl
  | tail _ step ih =>
    obtain ⟨next, -, allowed⟩ := step
    rw [ih] at allowed
    cases allowed

/-- In every run the state of a memory that no row replaces moves along the catalog only; once it is
archived it stays so, and no search in the default states finds it again. -/
theorem lifecycle_run [LinearOrder S] (member : m ∈ db.entries) (keyed : m.provenanceKey ≠ none)
    (spared : ∀ x ∈ (system py).transitions db acts, Spares py m x.before x.label)
    (reach : (system py).run db acts = some db') :
    ∃ m' ∈ db'.entries, m'.memoryId = m.memoryId ∧
      Relation.ReflTransGen Moves m.lifecycleState m'.lifecycleState ∧
        (m.lifecycleState = some "ARCHIVED" → m'.lifecycleState = some "ARCHIVED" ∧
          ∀ (R : Type) [LinearOrder R] (tools : MemoryDb.Retrieval S R) (available : Bool)
            (text : String) (filters : MemoryQuery S) (topK : Nat) (results),
            filters.lifecycleStates = [] →
              MemoryDb.search py tools db' available text filters topK = .ok results →
                ∀ r ∈ results, r.1.memoryId ≠ m.memoryId) := by
  obtain ⟨m', member', continues⟩ :=
    keeps_run ⟨m, member, ⟨rfl, rfl, rfl, rfl, rfl⟩⟩ keyed spared reach
  have state : m'.lifecycleState = _ := congrArg (·.lifecycleState) continues.standing
  have path := moves_foldl py acts m.standing m.memoryId
  rw [← state] at path
  refine ⟨m', member', continues.memoryId, path, ?_⟩
  intro archived
  have final : m'.lifecycleState = some "ARCHIVED" := by
    apply archived_final
    rw [← archived]
    exact path
  refine ⟨final, ?_⟩
  intro R _ tools available text filters topK results unasked answered r found same
  rcases search_eq_ok answered with rfl | answered
  · cases found
  · obtain ⟨there, admitted⟩ := mem_fetched (mem_retrieved answered found).1
    have one : r.1 = m' := db'.eq_of_memoryId there member' (same.trans continues.memoryId.symm)
    have stated := MemoryRow.retrievable_of_admits admitted
    rw [MemoryQuery.states, if_pos unasked, one, MemoryRow.retrievable, final] at stated
    exact absurd stated (by decide)

def shelved : MemoryDb Nat :=
  blank.store tenths { pitfall with lifecycleState := some "ARCHIVED" } "m-1" "1"

def plainly : MemoryDb.Retrieval Nat Nat where
  like tags tag := tags = tag
  faded _ := false
  relevance _ m := m.importance
  alnum := Char.isAlphanum

theorem lifecycle_run_kept :
    ∃ m ∈ (kept.foldl (MemoryDb.apply tenths) shelved).entries,
      m.memoryId = "m-1" ∧ m.lifecycleState = some "ARCHIVED" ∧
        ∀ results, MemoryDb.search tenths plainly (kept.foldl (MemoryDb.apply tenths) shelved) true
          "close" {} 10 = .ok results → ∀ r ∈ results, r.1.memoryId ≠ "m-1" := by
  have spared : ∀ x ∈ (system tenths).transitions shelved kept,
      Spares tenths ({ pitfall with lifecycleState := some "ARCHIVED" }.row tenths "m-1" "1")
        x.before x.label := by
    simp only [kept, forall_transitions_cons]
    exact ⟨trivial, rfl, trivial, trivial, trivial, List.forall_mem_nil _⟩
  obtain ⟨m, member, same, -, archived⟩ :=
    lifecycle_run (List.mem_singleton_self _) (by decide) spared rfl
  obtain ⟨stays, unfound⟩ := archived rfl
  exact ⟨m, member, same, stays, fun results => unfound Nat plainly true "close" {} 10 results rfl⟩

end Runs

end DreamStudio.Memory
