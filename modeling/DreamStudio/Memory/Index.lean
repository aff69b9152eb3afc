import DreamStudio.Library.Count
import DreamStudio.Memory.Lifecycle

namespace DreamStudio.Memory

open Library

variable {S : Type} {py : MemoryPython S} {db db' : MemoryDb S} {m row : MemoryRow S}
  {acts : List (Act S)} {ids : List String}

section Statements

def inserted (py : MemoryPython S) (db : MemoryDb S) : Act S → Option (MemoryRow S)
  | .store entry uuid now => some (entry.row py (entry.idOr uuid) now)
  | .upsert entry uuid now later =>
    if entry.sourceType = "" ∨ entry.sourceId = "" ∨ (db.existing entry).isSome then none
    else some ((entry.dated now).row py ((entry.dated now).idOr uuid) later)
  | _ => none

theorem apply_kept {P : MemoryDb S → Prop}
    (updated : ∀ {db : MemoryDb S} id change, P db → P (db.update id change))
    (deleted : ∀ {db : MemoryDb S} ids, P db → P (db.delete ids))
    (rebuilt : ∀ {db : MemoryDb S}, P db → P db.rebuildIndex) {a : Act S}
    (replaced : ∀ row, inserted py db a = some row → P (db.insertOrReplace row)) (kept : P db) :
    P (db.apply py a) := by
  cases a with
  | store entry uuid now => exact replaced _ rfl
  | upsert entry uuid now later =>
    rw [MemoryDb.apply, MemoryDb.upsertByProvenance]
    rw [inserted] at replaced
    split
    next => exact kept
    next named =>
      rw [not_or] at named
      split
      next => exact updated _ _ kept
      next unknown => exact replaced _ (if_neg (by simp [named, unknown]))
  | transition memoryId newState now =>
    rw [MemoryDb.apply, orSame_transition]
    split
    next => exact updated _ _ kept
    next => exact kept
  | recordAccess memoryId now => exact updated _ _ kept
  | boost memoryId delta now => exact updated _ _ kept
  | decay memoryId delta now => exact updated _ _ kept
  | stamp ids now =>
    apply List.foldlRecOn ids _ kept
    exact fun _ kept id _ => updated id _ kept
  | dedup dryRun =>
    rw [MemoryDb.apply, MemoryDb.dedupOrphans]
    split
    next => exact kept
    next =>
      apply List.foldlRecOn _ _ kept
      exact fun _ kept chunk _ => deleted chunk kept
  | rebuild => exact rebuilt kept

end Statements

section Sync

def Shows (row : FtsRow) (m : MemoryRow S) : Prop :=
  row.content = m.content ∧ row.category = m.category ∧ row.tags.getD "" = m.tags.getD ""

/-- Every memory that searches may find has its row. -/
def MemoryDb.Covered (db : MemoryDb S) : Prop :=
  ∀ m ∈ db.entries, m.retrievable defaultRetrieveStates = true →
    ∃ row ∈ db.fts, row.memoryId = m.memoryId ∧ Shows row m

/-- No id has two rows, and the row of a memory is its own. -/
structure MemoryDb.Exact (db : MemoryDb S) : Prop where
  nodup : (db.fts.map (·.memoryId)).Nodup
  shows : ∀ row ∈ db.fts, ∀ m ∈ db.entries, row.memoryId = m.memoryId → Shows row m

theorem ftsRow_shows (m : MemoryRow S) : Shows m.ftsRow m := ⟨rfl, rfl, rfl⟩

theorem copied_shows (m : MemoryRow S) : Shows (MemoryDb.copied m) m := ⟨rfl, rfl, rfl⟩

end Sync

section Covers

theorem MemoryDb.Covered.replaced (covered : db.Covered) (row : MemoryRow S) :
    (db.insertOrReplace row).Covered := by
  intro m member retrievable
  obtain old | new := List.mem_append.mp member
  · obtain ⟨entry, there, shown⟩ := covered m (List.mem_of_mem_filter old) retrievable
    exact ⟨entry, List.mem_append_left _ there, shown⟩
  · rw [List.mem_singleton.mp new]
    exact ⟨row.ftsRow, List.mem_append_right _ (List.mem_singleton_self _), rfl, ftsRow_shows row⟩

theorem fts_update (db : MemoryDb S) (id : String) (change : MemoryDb.Change S) :
    (∀ e ∈ db.entries, e.memoryId ≠ id) ∧ (db.update id change).fts = db.fts ∨
      ∃ e ∈ db.entries, e.memoryId = id ∧ (db.update id change).fts =
        db.fts.filter (·.memoryId ≠ id) ++ [(change.apply e).ftsRow] := by
  rw [MemoryDb.update]
  cases found : db.entries.find? (·.memoryId = id) with
  | none =>
    left
    refine ⟨?_, rfl⟩
    intro e member same
    exact List.find?_eq_none.mp found e member (decide_eq_true same)
  | some e =>
    right
    exact ⟨e, List.mem_of_find?_eq_some found, by simpa using List.find?_some found, rfl⟩

theorem mem_update_iff {id : String} {change : MemoryDb.Change S} :
    m ∈ (db.update id change).entries ↔
      ∃ e ∈ db.entries, m = if e.memoryId = id then change.apply e else e := by
  rw [MemoryDb.update]
  constructor
  · intro member
    obtain ⟨e, there, rfl⟩ := List.mem_map.mp member
    exact ⟨e, there, by simp⟩
  · rintro ⟨e, there, rfl⟩
    exact MemoryDb.mem_update there

theorem MemoryDb.Covered.updated (covered : db.Covered) (id : String) (change : MemoryDb.Change S) :
    (db.update id change).Covered := by
  intro m member retrievable
  obtain ⟨e, there, rfl⟩ := mem_update_iff.mp member
  obtain ⟨absent, same⟩ | ⟨e', there', named, rows⟩ := fts_update db id change
  · rw [if_neg (absent e there)] at retrievable ⊢
    rw [same]
    exact covered e there retrievable
  · rw [rows]
    by_cases here : e.memoryId = id
    · have one : e = e' := db.eq_of_memoryId there there' (here.trans named.symm)
      rw [if_pos here, one]
      exact ⟨_, List.mem_append_right _ (List.mem_singleton_self _), rfl, ftsRow_shows _⟩
    · rw [if_neg here] at retrievable ⊢
      obtain ⟨entry, inside, own, shown⟩ := covered e there retrievable
      refine ⟨entry, List.mem_append_left _ (List.mem_filter.mpr ⟨inside, ?_⟩), own, shown⟩
      exact decide_eq_true fun same => here (own.symm.trans same)

theorem MemoryDb.Covered.deleted (covered : db.Covered) (ids : List String) :
    (db.delete ids).Covered := by
  intro m member retrievable
  obtain ⟨there, spared⟩ := List.mem_filter.mp member
  obtain ⟨entry, inside, own, shown⟩ := covered m there retrievable
  refine ⟨entry, List.mem_filter.mpr ⟨inside, ?_⟩, own, shown⟩
  rw [Bool.not_eq_true'] at spared
  rw [own, spared]
  rfl

theorem MemoryDb.Covered.rebuilt (db : MemoryDb S) : db.rebuildIndex.Covered := by
  intro m member retrievable
  refine ⟨MemoryDb.copied m, List.mem_map_of_mem ?_, rfl, copied_shows m⟩
  exact List.mem_filter.mpr ⟨member, retrievable⟩

end Covers

section Exactness

/-- The row that an act inserts has an id that the index does not have. -/
def Fresh (py : MemoryPython S) (db : MemoryDb S) (a : Act S) : Prop :=
  ∀ row, inserted py db a = some row → row.memoryId ∉ db.fts.map (·.memoryId)

theorem MemoryDb.Exact.replaced (exact : db.Exact)
    (fresh : row.memoryId ∉ db.fts.map (·.memoryId)) :
    (db.insertOrReplace row).Exact where
  nodup := by
    rw [MemoryDb.insertOrReplace, List.map_append]
    apply List.Nodup.append exact.nodup (List.nodup_singleton _)
    intro id inside own
    rw [List.mem_singleton.mp own] at inside
    exact fresh inside
  shows := by
    intro entry there m member same
    obtain old | new := List.mem_append.mp there
    · obtain kept | own := List.mem_append.mp member
      · exact exact.shows entry old m (List.mem_of_mem_filter kept) same
      · rw [List.mem_singleton.mp own] at same
        exact absurd (same ▸ List.mem_map_of_mem old) fresh
    · rw [List.mem_singleton.mp new] at same ⊢
      obtain kept | own := List.mem_append.mp member
      · have apart := (List.mem_filter.mp kept).2
        rw [Bool.not_eq_true', MemoryRow.clash_eq_false_iff] at apart
        exact absurd same.symm apart.1
      · rw [List.mem_singleton.mp own]
        exact ftsRow_shows row

theorem MemoryDb.Exact.updated (exact : db.Exact) (id : String) (change : MemoryDb.Change S) :
    (db.update id change).Exact := by
  obtain ⟨absent, same⟩ | ⟨e, there, named, rows⟩ := fts_update db id change
  · constructor
    · rw [same]
      exact exact.nodup
    · intro entry inside m member own
      obtain ⟨old, known, rfl⟩ := mem_update_iff.mp member
      rw [if_neg (absent old known)] at own ⊢
      exact exact.shows entry (same ▸ inside) old known own
  · constructor
    · rw [rows, List.map_append]
      apply List.Nodup.append (exact.nodup.sublist (List.filter_sublist.map _))
        (List.nodup_singleton _)
      intro id' inside own
      obtain ⟨entry, kept, rfl⟩ := List.mem_map.mp inside
      have apart := of_decide_eq_true (List.mem_filter.mp kept).2
      exact apart ((List.mem_singleton.mp own).trans ((change.memoryId e).trans named))
    · intro entry inside m member own
      obtain ⟨old, known, rfl⟩ := mem_update_iff.mp member
      rw [rows] at inside
      obtain kept | new := List.mem_append.mp inside
      · obtain ⟨before, apart⟩ := List.mem_filter.mp kept
        have elsewhere : old.memoryId ≠ id := by
          intro here
          rw [if_pos here, change.memoryId, here] at own
          exact of_decide_eq_true apart own
        rw [if_neg elsewhere] at own ⊢
        exact exact.shows entry before old known own
      · rw [List.mem_singleton.mp new] at own ⊢
        have here : old.memoryId = id := by
          by_contra elsewhere
          rw [if_neg elsewhere] at own
          exact elsewhere (own.symm.trans ((change.memoryId e).trans named))
        rw [if_pos here, db.eq_of_memoryId known there (here.trans named.symm)]
        exact ftsRow_shows _

theorem MemoryDb.Exact.deleted (exact : db.Exact) (ids : List String) : (db.delete ids).Exact where
  nodup := exact.nodup.sublist (List.filter_sublist.map _)
  shows entry inside m member :=
    exact.shows entry (List.mem_of_mem_filter inside) m (List.mem_of_mem_filter member)

theorem MemoryDb.nodup_ids (db : MemoryDb S) : (db.entries.map (·.memoryId)).Nodup := by
  apply List.pairwise_map.mpr
  apply db.ids_unique.imp
  intro m m' apart same
  exact apart ⟨congrArg some same, Option.some_ne_none _⟩

theorem MemoryDb.Exact.rebuilt (db : MemoryDb S) : db.rebuildIndex.Exact where
  nodup := by
    rw [MemoryDb.rebuildIndex, List.map_map]
    exact db.nodup_ids.sublist (List.filter_sublist.map _)
  shows := by
    intro entry inside m member same
    obtain ⟨e, kept, rfl⟩ := List.mem_map.mp inside
    rw [db.eq_of_memoryId (List.mem_of_mem_filter kept) member same]
    exact copied_shows m

theorem exact_run (exact : db.Exact)
    (fresh : ∀ x ∈ (system py).transitions db acts, Fresh py x.before x.label)
    (reach : (system py).run db acts = some db') : db'.Exact := by
  apply (system py).run_invariant_of_guarded (G := fun db a _ => Fresh py db a) _ exact fresh reach
  intro before a after exact fresh step
  cases step
  apply apply_kept _ _ _ _ exact
  · exact fun id change exact => exact.updated id change
  · exact fun ids exact => exact.deleted ids
  · exact fun {db} _ => MemoryDb.Exact.rebuilt db
  · exact fun row given => exact.replaced (fresh row given)

end Exactness

section Index

def filled : List (Act Nat) := .store pitfall "m-1" "1" :: kept

end Index

section Search

variable {R : Type} [LinearOrder S] {tools : MemoryDb.Retrieval S R} {text : String}
  {filters : MemoryQuery S} {topK : Nat} {results : List (MemoryRow S × R)}

variable [LinearOrder R]

end Search

end DreamStudio.Memory
