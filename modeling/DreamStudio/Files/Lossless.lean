import DreamStudio.Files.Rebuilt

namespace DreamStudio.Files

open Library Statement Script
open Connection (opened)

/-- The rows and stops at which nothing is lost. -/
def StoredTable.Spared (t : StoredTable) (stop : Nat) : Prop :=
  t.rows = [] ∨
    if t.covers then ∀ c, c ≠ .workOrderId → c ∈ t.columns
    else (∀ c ∈ copiedColumns, c ∈ t.columns) ∧ ¬Widening stop

theorem StoredTable.holds (t : StoredTable) : t.db.Holds t.toFilesTable :=
  ⟨rfl, rfl, rfl, t.indexed⟩

theorem indexed_copied {cs : List Column} (fits : ∀ c ∈ copiedColumns, c ∈ cs) :
    ∀ c ∈ indexedColumns, c ∈ cs :=
  fun c hc => fits c (List.mem_append_left _ hc)

section Copying

variable {t : StoredTable} {now : String}

theorem mem_common {t : FilesTable} {c : Column} : c ∈ t.common ↔ c ∈ t.columns := by
  rw [FilesTable.common, List.mem_filter, decide_eq_true_iff]
  exact ⟨And.right, fun there => ⟨mem_columns c, there⟩⟩

theorem copied_of_mem {t : FilesTable} {c : Column} (there : c ∈ t.columns) (r : Row) :
    copied now t.common r c = r c := if_pos (mem_common.mpr there)

theorem copied_of_not_mem {t : FilesTable} {c : Column} (missing : c ∉ t.columns) (r : Row) :
    copied now t.common r c = c.default now := if_neg fun there => missing (mem_common.mp there)

theorem default_of_notNull (now : String) {c : Column} (required : c.notNull = true) :
    c ∈ copiedColumns ∨ c.default now ≠ .null := by
  cases c <;> simp [copiedColumns, indexedColumns, Column.default, Column.notNull] at required ⊢

theorem takes_copied (fits : ∀ c ∈ copiedColumns, c ∈ t.columns) {r : Row} (mem : r ∈ t.rows) :
    FilesTable.empty.takes (copied now t.common r) = true := by
  rw [FilesTable.takes, Bool.and_eq_true, List.all_eq_true, List.any_eq_true]
  refine ⟨fun c _ => ?_, ?_⟩
  · cases required : c.notNull with
    | false => rfl
    | true =>
      refine decide_eq_true ?_
      by_cases there : c ∈ t.columns
      · rw [copied_of_mem there]
        exact t.notNull r mem c there required
      · rw [copied_of_not_mem there]
        exact (default_of_notNull now required).resolve_left fun copied => there (fits c copied)
  · have category : .category ∈ t.columns := fits _ (by decide)
    obtain ⟨s, hs, eq⟩ := t.checked category r mem
    exact ⟨s, t.listed s hs, by rw [copied_of_mem category, eq]; exact decide_eq_true rfl⟩

theorem exists_insert {t : FilesTable} {rows : List Row} (taken : ∀ r ∈ rows, t.takes r = true)
    (keyed : (t.rows ++ rows).Pairwise fun r s => r .fileId ≠ s .fileId) :
    ∃ u, t.insert rows = some u := by
  induction rows generalizing t with
  | nil => exact ⟨t, rfl⟩
  | cons r rows ih =>
    obtain ⟨here, later⟩ := List.forall_mem_cons.mp taken
    have apart : ∀ s ∈ t.rows, s .fileId ≠ r .fileId := fun s hs =>
      (List.pairwise_append.mp keyed).2.2 s hs r List.mem_cons_self
    rw [FilesTable.insert, if_pos]
    · exact ih (t := { t with rows := t.rows ++ [r] }) later
        (by rw [List.append_assoc]; exact keyed)
    · rw [here, Bool.true_and, List.all_eq_true]
      exact fun s hs => decide_eq_true (apart s hs)

theorem exists_widened (now : String) (fits : ∀ c ∈ copiedColumns, c ∈ t.columns) :
    ∃ w, t.toFilesTable.widened now = some w := by
  have key : .fileId ∈ t.columns := fits _ (by decide)
  refine exists_insert ?_ ?_
  · intro r mem
    obtain ⟨s, hs, rfl⟩ := List.mem_map.mp mem
    exact takes_copied fits hs
  · change (t.rows.map _).Pairwise _
    rw [List.pairwise_map]
    refine (t.keyed key).imp fun {r s} apart => ?_
    rwa [copied_of_mem key, copied_of_mem key]

theorem copiedColumns_of_widened {w : FilesTable} (fits : ∀ c ∈ indexedColumns, c ∈ t.columns)
    (made : t.toFilesTable.widened now = some w) {r : Row} (mem : r ∈ t.rows) :
    ∀ c ∈ copiedColumns, c ∈ t.columns := by
  obtain ⟨first, rest, split⟩ := List.exists_cons_of_ne_nil (List.ne_nil_of_mem mem)
  rw [FilesTable.widened, split, List.map_cons, FilesTable.insert] at made
  have taken : FilesTable.empty.takes (copied now t.common first) = true := by
    split at made
    · next h => exact (Bool.and_eq_true_iff.mp h).1
    · cases made
  rw [FilesTable.takes, Bool.and_eq_true, List.all_eq_true] at taken
  intro c hc
  rcases List.mem_append.mp hc with indexed | other
  · exact fits c indexed
  by_contra missing
  have notNull := taken.1 c (mem_columns c)
  rw [copied_of_not_mem missing] at notNull
  simp only [List.mem_cons, List.not_mem_nil, or_false] at other
  rcases other with rfl | rfl | rfl <;> exact absurd notNull
    (by simp [Column.notNull, Column.default])

end Copying

section Reading

variable {t : FilesTable} {a : FilesDb} {last : String}

theorem completed_rows (t : FilesTable) :
    ∃ f : Row → Row, t.completed.rows = t.rows.map f ∧ ∀ r c, c ≠ .workOrderId → f r c = r c := by
  unfold FilesTable.completed
  split
  · exact ⟨id, (List.map_id _).symm, fun _ _ _ => rfl⟩
  · exact ⟨_, rfl, fun r c other => Function.update_of_ne other _ _⟩

theorem find_map {rows : List Row} {f : Row → Row} (same : ∀ r ∈ rows, f r .fileId = r .fileId)
    (keyed : rows.Pairwise fun r s => r .fileId ≠ s .fileId) {r : Row}
    (mem : r ∈ rows) {id : String} (named : r .fileId = .text id) :
    (rows.map f).find? (fun s => s .fileId = .text id) = some (f r) := by
  induction rows with
  | nil => cases mem
  | cons s rows ih =>
    obtain ⟨here, later⟩ := List.forall_mem_cons.mp same
    obtain ⟨apart, keyed⟩ := List.pairwise_cons.mp keyed
    rw [List.map_cons, List.find?_cons, here]
    rcases List.mem_cons.mp mem with rfl | mem
    · simp only [named, decide_true]
    · have other : s .fileId ≠ .text id := named ▸ apart r mem
      simp only [other, decide_false]
      exact ih later keyed mem

theorem readFile_of_map (holds : a.Holds t) (covers : t.covers = true) (full : ∀ c, c ∈ t.columns)
    {rows : List Row} {f : Row → Row} (mapped : t.rows = rows.map f)
    (same : ∀ r ∈ rows, f r .fileId = r .fileId)
    (keyed : rows.Pairwise fun r s => r .fileId ≠ s .fileId) {r : Row}
    (mem : r ∈ rows) {id : String} (named : r .fileId = .text id) :
    readFile last a id = some (f r) := by
  obtain ⟨b, ran, kept⟩ := (ensureFilesSchema_covers last holds (fun c _ => full c) covers).1
  rw [completed_of_mem (full _)] at kept
  simp only [readFile, ran, Connection.visible_opened, kept.files, Option.bind_some]
  rw [if_pos fun c _ => full c, mapped]
  exact find_map same keyed mem named

theorem readFile_of_missing (holds : a.Holds t) (covers : t.covers = true) {c : Column}
    (other : c ≠ .workOrderId) (missing : c ∉ t.columns) (id : String) :
    readFile last a id = none := by
  have lacking : ¬∀ c ∈ columns, c ∈ t.completed.columns := fun all =>
    (mem_completed.mp (all c (mem_columns c))).elim other missing
  by_cases fits : ∀ c ∈ indexedColumns, c ∈ t.columns
  · obtain ⟨b, ran, kept⟩ := (ensureFilesSchema_covers last holds fits covers).1
    simp only [readFile, ran, Connection.visible_opened, kept.files, Option.bind_some]
    exact if_neg lacking
  · obtain ⟨b, ran, -⟩ := (ensureFilesSchema_misfit last holds fits).1
    simp only [readFile, ran]

theorem StoredTable.readFile_of_misfit (t : StoredTable) (now later last : String) (stop : Nat)
    (misfits : ¬∀ c ∈ indexedColumns, c ∈ t.columns) (id : String) :
    readFile last ((t.db.stopped now stop).ensured later) id = none := by
  obtain ⟨b, stopped, kept⟩ := (ensureFilesSchema_misfit now t.holds misfits).2 stop
  obtain ⟨d, ran, kept⟩ := (ensureFilesSchema_misfit later kept misfits).1
  obtain ⟨e, ran', -⟩ := (ensureFilesSchema_misfit last kept misfits).1
  rw [FilesDb.stopped, stopped, FilesDb.ensured, Connection.close_opened, ran,
    Connection.close_opened]
  simp only [readFile, ran']

theorem readFile_of_emptied (emptied : a.Emptied) (id : String) : readFile last a id = none := by
  obtain ⟨b, ran, t, some, rows, -⟩ := ensureFilesSchema_emptied last emptied
  simp only [readFile, ran, Connection.visible_opened, some, Option.bind_some, rows,
    List.find?_nil, ite_self]

end Reading

section Runs

variable {t : FilesTable} {a : FilesDb}

theorem ensured_covers (later : String) (holds : a.Holds t)
    (fits : ∀ c ∈ indexedColumns, c ∈ t.columns) (covers : t.covers = true) :
    (a.ensured later).Holds t.completed := by
  obtain ⟨b, ran, kept⟩ := (ensureFilesSchema_covers later holds fits covers).1
  rw [FilesDb.ensured, ran]
  exact kept

theorem ensured_emptied (later : String) (emptied : a.Emptied) : (a.ensured later).Emptied := by
  obtain ⟨b, ran, bare⟩ := ensureFilesSchema_emptied later emptied
  rw [FilesDb.ensured, ran]
  exact Or.inr bare

theorem widened_covers {now : String} {w : FilesTable} (made : t.widened now = some w) :
    w.covers = true ∧ (∀ c, c ∈ w.columns) ∧ w.rows = t.rows.map (copied now t.common) := by
  rw [insert_eq_some made]
  exact ⟨rfl, mem_columns, List.nil_append _⟩

theorem StoredTable.ensured_of_covers (t : StoredTable) (now later : String) (stop : Nat)
    (fits : ∀ c ∈ indexedColumns, c ∈ t.columns) (covers : t.covers = true) :
    ((t.db.stopped now stop).ensured later).Holds t.completed := by
  obtain ⟨b, stopped, kept⟩ := (ensureFilesSchema_covers now t.holds fits covers).2 stop
  rw [FilesDb.stopped, stopped, Connection.close_opened]
  rcases kept with kept | kept
  · exact ensured_covers later kept fits covers
  · rw [← completed_completed]
    exact ensured_covers later kept (fun c hc => mem_completed.mpr (Or.inr (fits c hc)))
      ((completed_covers _).trans covers)

theorem StoredTable.ensured_of_stale (t : StoredTable) (now later : String) (stop : Nat)
    (fits : ∀ c ∈ indexedColumns, c ∈ t.columns) (stale : t.covers = false) :
    (¬Widening stop ∧ ∃ time w, t.toFilesTable.widened time = some w ∧
        ((t.db.stopped now stop).ensured later).Holds w.completed) ∨
      (Widening stop ∨ ∃ time, t.toFilesTable.widened time = none) ∧
        ((t.db.stopped now stop).ensured later).Emptied := by
  rcases ensureFilesSchema_after_widening now t.holds fits stale stop with
    ⟨early, kept⟩ | ⟨lost, renamed⟩ | ⟨past, w, made, kept⟩
  · have before : ¬Widening stop := fun h => absurd h.1 (Nat.not_le_of_lt early)
    obtain ⟨copies, fails⟩ := ensureFilesSchema_finish_widening later kept fits stale
    cases made : t.toFilesTable.widened later with
    | some w =>
      obtain ⟨b, ran, kept⟩ := copies w made
      refine Or.inl ⟨before, later, w, made, ?_⟩
      rw [FilesDb.ensured, ran]
      exact kept
    | none =>
      obtain ⟨b, ran, renamed⟩ := fails made
      refine Or.inr ⟨Or.inr ⟨later, made⟩, ?_⟩
      rw [FilesDb.ensured, ran]
      exact renamed.emptied
  · exact Or.inr ⟨lost.imp id fun failed => ⟨now, failed⟩, ensured_emptied later renamed.emptied⟩
  · obtain ⟨covers, full, -⟩ := widened_covers made
    refine Or.inl ⟨past, now, w, made, ?_⟩
    rcases kept with kept | kept
    · exact ensured_covers later kept (fun c _ => full c) covers
    · rw [← completed_completed]
      exact ensured_covers later kept (fun c _ => mem_completed.mpr (Or.inr (full c)))
        ((completed_covers _).trans covers)

end Runs

/-- Nothing is lost exactly if there is nothing to lose, if the table covers the categories and has
every column but the one that is added, or if it has what a copy needs and the widening is not
stopped. -/
theorem lossless_iff (t : StoredTable) (now later last : String) (stop : Nat) :
    t.Lossless now later last stop ↔ t.Spared stop := by
  constructor
  · intro lossless
    by_contra unspared
    obtain ⟨empty, unspared⟩ := not_or.mp unspared
    obtain ⟨r, mem⟩ := List.exists_mem_of_ne_nil _ empty
    obtain ⟨id, named, s, read, -⟩ := lossless r mem
    suffices lost : readFile last ((t.db.stopped now stop).ensured later) id = none by
      rw [lost] at read
      cases read
    by_cases fits : ∀ c ∈ indexedColumns, c ∈ t.columns
    swap
    · exact t.readFile_of_misfit now later last stop fits id
    cases covers : t.covers with
    | true =>
      simp only [covers, if_true, not_forall] at unspared
      obtain ⟨c, other, missing⟩ := unspared
      refine readFile_of_missing (t.ensured_of_covers now later stop fits covers)
        ((completed_covers _).trans covers) other (fun there => ?_) id
      exact (mem_completed.mp there).elim other missing
    | false =>
      simp only [covers, Bool.false_eq_true, if_false] at unspared
      rcases t.ensured_of_stale now later stop fits
        covers with ⟨past, time, w, made, -⟩ | ⟨-, emptied⟩
      · exact absurd ⟨copiedColumns_of_widened fits made mem, past⟩ unspared
      · exact readFile_of_emptied emptied id
  · rintro spared r mem
    rcases spared with empty | spared
    · rw [empty] at mem
      cases mem
    cases covers : t.covers with
    | true =>
      simp only [covers, if_true] at spared
      have key : .fileId ∈ t.columns := spared _ (by decide)
      obtain ⟨id, named⟩ := t.texts key r mem
      obtain ⟨f, mapped, same⟩ := completed_rows t.toFilesTable
      have full (c : Column) : c ∈ t.completed.columns := by
        rw [mem_completed]
        by_cases wo : c = .workOrderId
        · exact Or.inl wo
        · exact Or.inr (spared c wo)
      have holds := t.ensured_of_covers now later stop
        (fun c hc => spared c (by rintro rfl; revert hc; decide)) covers
      exact ⟨id, named, f r, readFile_of_map holds ((completed_covers _).trans covers) full mapped
        (fun r _ => same r _ (by decide)) (t.keyed key) mem named, same r _ (by decide),
          same r _ (by decide),
        same r _ (by decide)⟩
    | false =>
      simp only [covers, Bool.false_eq_true, if_false] at spared
      obtain ⟨fits, past⟩ := spared
      have key : .fileId ∈ t.columns := fits _ (by decide)
      obtain ⟨id, named⟩ := t.texts key r mem
      rcases t.ensured_of_stale now later stop (indexed_copied fits) covers with
        ⟨-, time, w, made, holds⟩ | ⟨widening | ⟨time, failed⟩, -⟩
      · obtain ⟨covers, full, mapped⟩ := widened_covers made
        rw [completed_of_mem (full _)] at holds
        exact ⟨id, named, _, readFile_of_map holds covers full mapped
          (fun r _ => copied_of_mem key r)
          (t.keyed key) mem named, copied_of_mem (fits _ (by decide)) r,
            copied_of_mem (fits _ (by decide)) r,
          copied_of_mem (fits _ (by decide)) r⟩
      · exact absurd widening past
      · obtain ⟨w, made⟩ := exists_widened time fits
        rw [failed] at made
        cases made

/-- A file kept from before the category `planning`. -/
def handoff : StoredTable where
  columns := columns
  categories := ["handoff", "evidence", "release", "rollback", "export"]
  rows := [fun
    | .fileId => .text "f1"
    | .category => .text "handoff"
    | .name => .text "notes.md"
    | .version => .integer 1
    | .contentType => .text "text/markdown"
    | .content => .text "notes"
    | .createdAt => .text "2026-01-01T00:00:00.000Z"
    | _ => .null]
  indexes := []
  listed := by decide
  indexed := nofun
  notNull := by
    simp only [List.forall_mem_cons]
    exact ⟨by decide, nofun⟩
  checked := fun _ r mem => by
    obtain rfl := List.mem_singleton.mp mem
    exact ⟨"handoff", List.mem_cons_self, rfl⟩
  keyed := fun _ => List.pairwise_singleton _ _
  texts := fun _ r mem => by
    obtain rfl := List.mem_singleton.mp mem
    exact ⟨"f1", rfl⟩

/-- Stopped right after `ALTER TABLE ds_files RENAME TO _ds_files_old`, the file is never read
again. -/
theorem handoff_lost :
    ¬∀ (t : StoredTable) (now later last : String)
    (stop : Nat), t.Lossless now later last stop := by
  intro all
  obtain ⟨id, -, s, read, -⟩ := all handoff "" "" "" 6 _ List.mem_cons_self
  rcases handoff.ensured_of_stale "" "" 6 (by decide) (by decide) with ⟨past, -⟩ | ⟨-, emptied⟩
  · exact past ⟨Nat.le_refl 6, by decide⟩
  · rw [readFile_of_emptied emptied] at read
    cases read

end DreamStudio.Files
