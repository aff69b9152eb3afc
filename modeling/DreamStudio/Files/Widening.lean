import DreamStudio.Files.Schema

namespace DreamStudio.Files

open Library Statement Script
open Connection (opened run run_cons run_append run_append_of_stuck run_of_calm run_of_sure
  visible_opened close_opened Calm Sure)

/-- A table as an earlier version has left it: some of the columns, a CHECK for some of the
categories, and rows that keep both. -/
structure StoredTable extends FilesTable where
  indexes : List Index
  listed : ∀ s ∈ categories, s ∈ validCategories
  indexed : ∀ i ∈ indexes, ∀ c ∈ i.columns, c ∈ columns
  notNull : ∀ r ∈ rows, ∀ c ∈ columns, c.notNull = true → r c ≠ .null
  checked : .category ∈ columns → ∀ r ∈ rows, ∃ s ∈ categories, r .category = .text s
  keyed : .fileId ∈ columns → rows.Pairwise fun r s => r .fileId ≠ s .fileId
  texts : .fileId ∈ columns → ∀ r ∈ rows, ∃ id, r .fileId = .text id

def StoredTable.db (t : StoredTable) : FilesDb := ⟨some t.toFilesTable, none, t.indexes, []⟩

/-- What a run leaves that stops after so many statements. -/
def FilesDb.stopped (now : String) (stop : Nat) (a : FilesDb) : FilesDb :=
  ((ensureFilesSchema now).after stop (.opened a)).close

def FilesDb.ensured (now : String) (a : FilesDb) : FilesDb :=
  ((ensureFilesSchema now).finish (.opened a)).1.close

/-- After a run that stops and a run that does not, every row reads as before. -/
def StoredTable.Lossless (t : StoredTable) (now later last : String) (stop : Nat) : Prop :=
  ∀ r ∈ t.rows, ∃ id, r .fileId = .text id ∧
    ∃ s, readFile last ((t.db.stopped now stop).ensured later) id = some s ∧
      s .content = r .content ∧ s .name = r .name ∧ s .version = r .version

def Widening (stop : Nat) : Prop := 6 ≤ stop ∧ stop ≤ 17

/-- The columns that the indexes of `_DDL` are on. -/
def indexedColumns : List Column := [.projectId, .category, .name, .version]

def copiedColumns : List Column := indexedColumns ++ [.fileId, .contentType, .content]

/-- A database with this table, whose indexes are on columns it has. -/
structure FilesDb.Holds (t : FilesTable) (a : FilesDb) : Prop where
  files : a.files = some t
  old : a.old = none
  oldIndexes : a.oldIndexes = []
  indexed : ∀ i ∈ a.indexes, ∀ c ∈ i.columns, c ∈ t.columns

def FilesDb.Bare (a : FilesDb) : Prop :=
  ∃ t, a.files = some t ∧ t.rows = [] ∧ t.covers = true ∧ ∀ c, c ∈ t.columns

def FilesDb.Emptied (a : FilesDb) : Prop := a.files = none ∨ a.Bare

section Statements

variable {t : FilesTable} {a : FilesDb}

theorem commit_opened (a : FilesDb) : commit (opened a) = some (opened a) := rfl

theorem finish_read (rest : FilesDb → Script FilesDb) (a : FilesDb) :
    (exec read rest).finish (opened a) = (rest a).finish (opened a) := rfl

theorem after_read (rest : FilesDb → Script FilesDb) (n : Nat) (a : FilesDb) :
    (exec read rest).after (n + 1) (opened a) = (rest a).after n (opened a) := rfl

theorem createTable_holds (holds : a.Holds t) : createTable (opened a) = some (opened a) := by
  simp [createTable, holds.files]

theorem createIndex_holds (holds : a.Holds t) (i : Index) :
    (∃ b, createIndex i (opened a) = some (opened b) ∧ b.Holds t ∧ ∀ c ∈ i.columns, c ∈ t.columns) ∨
      createIndex i (opened a) = none ∧ ¬∀ c ∈ i.columns, c ∈ t.columns := by
  unfold createIndex
  rw [visible_opened, holds.oldIndexes]
  by_cases there : i ∈ a.indexes
  · exact Or.inl ⟨a, if_pos (Or.inl there), holds, holds.indexed i there⟩
  rw [if_neg (by simpa using there), holds.files]
  by_cases fits : ∀ c ∈ i.columns, c ∈ t.columns
  · refine Or.inl ⟨{ a with indexes := a.indexes ++ [i] }, if_pos fits, ?_, fits⟩
    refine ⟨holds.files, holds.old, holds.oldIndexes, fun j hj => ?_⟩
    rcases List.mem_append.mp hj with old | new
    · exact holds.indexed j old
    · exact List.mem_singleton.mp new ▸ fits
  · exact Or.inr ⟨if_neg fits, fits⟩

theorem createIndex_calm (t : FilesTable) (i : Index) : Calm (FilesDb.Holds t) (createIndex i) :=
  fun _ holds =>
  (createIndex_holds holds i).elim (fun ⟨b, acted, kept, _⟩ => Or.inr ⟨b, acted, kept⟩)
    fun failed => Or.inl failed.1

theorem commit_sure (P : FilesDb → Prop) : Sure P commit := fun a kept => ⟨a, rfl, kept⟩

theorem commit_calm (P : FilesDb → Prop) : Calm P commit := fun a kept => Or.inr ⟨a, rfl, kept⟩

theorem read_calm (P : FilesDb → Prop) : Calm P read := fun a kept => Or.inr ⟨a, rfl, kept⟩

theorem ddl_calm : ∀ act ∈ ddl, Calm (FilesDb.Holds t) act := by
  simp only [ddl, List.forall_mem_cons]
  exact ⟨commit_calm _, fun a holds => Or.inr ⟨a, createTable_holds holds, holds⟩,
    createIndex_calm t _, createIndex_calm t _, nofun⟩

/-- The script of `_DDL` goes through exactly if the table has the columns of its indexes. -/
theorem run_ddl (holds : a.Holds t) :
    (∃ b, run ddl (opened a) = (opened b, true) ∧ b.Holds t ∧ ∀ c ∈ indexedColumns, c ∈ t.columns) ∨
      ∃ b, run ddl (opened a) = (opened b, false) ∧ b.Holds t ∧ ¬∀ c ∈ indexedColumns, c ∈
        t.columns := by
  have split : (∀ c ∈ indexedColumns, c ∈ t.columns) ↔
      (∀ c ∈ Index.projectCategory.columns, c ∈ t.columns) ∧ ∀ c ∈ Index.nameVersion.columns, c ∈
        t.columns := by
    simp [indexedColumns, Index.columns, and_assoc]
  rw [split]
  simp only [ddl, run, commit_opened, createTable_holds holds]
  rcases createIndex_holds holds .projectCategory with ⟨b, first, kept, fits⟩ | ⟨failed, misfits⟩
  · rw [first]
    rcases createIndex_holds kept .nameVersion with ⟨c, second, kept, fits'⟩ | ⟨failed, misfits⟩
    · exact Or.inl ⟨c, by simp only [second], kept, fits, fits'⟩
    · exact Or.inr ⟨b, by simp only [failed], kept, fun both => misfits both.2⟩
  · rw [failed]
    exact Or.inr ⟨a, rfl, holds, fun both => misfits both.1⟩

/-- `_ensure_work_order_id_column` on a table. -/
def FilesTable.completed (t : FilesTable) : FilesTable :=
  if .workOrderId ∈ t.columns then t
  else { t with
    columns := t.columns ++ [.workOrderId]
    rows := t.rows.map fun r => Function.update r .workOrderId .null }

theorem completed_of_mem (there : .workOrderId ∈ t.columns) : t.completed = t := if_pos there

theorem workOrderId_mem_completed (t : FilesTable) : .workOrderId ∈ t.completed.columns := by
  unfold FilesTable.completed
  split
  · assumption
  · exact List.mem_append_right _ (List.mem_singleton_self _)

theorem completed_completed (t : FilesTable) : t.completed.completed = t.completed :=
  completed_of_mem (workOrderId_mem_completed t)

theorem completed_covers (t : FilesTable) : t.completed.covers = t.covers := by
  unfold FilesTable.completed
  split <;> rfl

theorem mem_completed {t : FilesTable} {c : Column} :
    c ∈ t.completed.columns ↔ c = .workOrderId ∨ c ∈ t.columns := by
  unfold FilesTable.completed
  split
  · next there => exact ⟨Or.inr, fun h => h.elim (· ▸ there) id⟩
  · rw [List.mem_append, List.mem_singleton, or_comm]

theorem addColumn_holds (holds : a.Holds t) (missing : .workOrderId ∉ t.columns) :
    ∃ b, addColumn (opened a) = some (opened b) ∧ b.Holds t.completed := by
  refine ⟨{ a with files := some t.completed }, ?_, rfl, holds.old, holds.oldIndexes,
    fun i hi c hc => ?_⟩
  · simp only [addColumn, visible_opened, holds.files, FilesTable.completed, if_neg missing]
    rfl
  · exact mem_completed.mpr (Or.inr (holds.indexed i hi c hc))

theorem run_indexing (holds : a.Holds t) (there : .workOrderId ∈ t.columns) :
    ∃ b, run [createIndex .workOrder, commit, commit] (opened a) = (opened b, true) ∧
      b.Holds t := by
  rcases createIndex_holds holds .workOrder with ⟨b, acted, kept, -⟩ | ⟨-, misfits⟩
  · refine ⟨b, ?_, kept⟩
    rw [run, acted]
    rfl
  · exact absurd (fun c hc => List.mem_singleton.mp hc ▸ there) misfits

theorem ensureWorkOrderIdColumn_finish (holds : a.Holds t) :
    ∃ b, ensureWorkOrderIdColumn.finish (opened a) = (opened b, true) ∧ b.Holds t.completed := by
  rw [ensureWorkOrderIdColumn, finish_read, holds.files]
  change ∃ b, (exec read _).finish (opened a) = _ ∧ _
  rw [finish_read, holds.files, Option.any_some]
  by_cases there : .workOrderId ∈ t.columns
  · obtain ⟨b, ran, kept⟩ := run_indexing holds there
    rw [if_pos (decide_eq_true there), completed_of_mem there]
    exact ⟨b, finish_all ran _, kept⟩
  · obtain ⟨b, added, kept⟩ := addColumn_holds holds there
    obtain ⟨d, ran, kept⟩ := run_indexing kept (workOrderId_mem_completed t)
    rw [if_neg (by simpa using there)]
    exact ⟨d, (finish_exec added _).trans (finish_all ran _), kept⟩

theorem all_after_calm {P : FilesDb → Prop} {acts : List (Connection.Action FilesDb)}
    (calm : ∀ act ∈ acts, Calm P act) (start : P a) (n : Nat) :
    ∃ b, (all acts .done).after n (opened a) = opened b ∧ P b := by
  obtain ⟨b, ok, ran, kept⟩ :=
    run_of_calm (acts.take n) (fun act h => calm act (List.mem_of_mem_take h)) start
  refine ⟨b, ?_, kept⟩
  rcases Nat.le_total n acts.length with le | ge
  · rw [after_all le, ran]
  · obtain ⟨m, rfl⟩ := Nat.exists_eq_add_of_le ge
    rw [List.take_of_length_le ge] at ran
    cases ok with
    | true => rw [after_all_add ran, after]
    | false => rw [after_all_of_stuck ran, List.take_of_length_le ge, ran]

theorem indexing_calm (t : FilesTable) :
    ∀ act ∈ [createIndex .workOrder, commit, commit], Calm (FilesDb.Holds t) act := by
  simp only [List.forall_mem_cons]
  exact ⟨createIndex_calm t _, commit_calm _, commit_calm _, nofun⟩

theorem ensureWorkOrderIdColumn_after (holds : a.Holds t) (n : Nat) :
    ∃ b, ensureWorkOrderIdColumn.after n (opened a) = opened b ∧
      (b.Holds t ∨ b.Holds t.completed) := by
  match n with
  | 0 => exact ⟨a, after_zero _ _, Or.inl holds⟩
  | 1 =>
    rw [ensureWorkOrderIdColumn, after_read, holds.files]
    exact ⟨a, after_zero _ _, Or.inl holds⟩
  | n + 2 =>
    rw [ensureWorkOrderIdColumn, after_read, holds.files]
    change ∃ b, (exec read _).after (n + 1) (opened a) = _ ∧ _
    rw [after_read, holds.files, Option.any_some]
    by_cases there : .workOrderId ∈ t.columns
    · rw [if_pos (decide_eq_true there)]
      obtain ⟨b, stopped, kept⟩ := all_after_calm (indexing_calm t) holds n
      exact ⟨b, stopped, Or.inl kept⟩
    rw [if_neg (by simpa using there)]
    cases n with
    | zero => exact ⟨a, after_zero _ _, Or.inl holds⟩
    | succ n =>
      obtain ⟨b, added, kept⟩ := addColumn_holds holds there
      obtain ⟨d, stopped, kept⟩ := all_after_calm (indexing_calm _) kept n
      exact ⟨d, (after_exec added _ _).trans stopped, Or.inr kept⟩

theorem ensureFilesSchema_misfit (now : String) (holds : a.Holds t)
    (misfits : ¬∀ c ∈ indexedColumns, c ∈ t.columns) :
    (∃ b, (ensureFilesSchema now).finish (opened a) = (opened b, false) ∧ b.Holds t) ∧
      ∀ n, ∃ b, (ensureFilesSchema now).after n (opened a) = opened b ∧ b.Holds t := by
  rcases run_ddl holds with ⟨b, -, -, fits⟩ | ⟨b, stuck, kept, -⟩
  · exact absurd fits misfits
  · refine ⟨⟨b, finish_all_of_stuck stuck _, kept⟩, fun n => ?_⟩
    obtain ⟨d, ok, ran, kept⟩ :=
      run_of_calm (ddl.take n) (fun act h => ddl_calm (t := t) act (List.mem_of_mem_take h)) holds
    refine ⟨d, ?_, kept⟩
    rw [ensureFilesSchema, after_all_of_stuck stuck, ran]

theorem ensureFilesSchema_covers (now : String) (holds : a.Holds t)
    (fits : ∀ c ∈ indexedColumns, c ∈ t.columns) (covers : t.covers = true) :
    (∃ b, (ensureFilesSchema now).finish (opened a) = (opened b, true) ∧ b.Holds t.completed) ∧
      ∀ n, ∃ b, (ensureFilesSchema now).after n (opened a) = opened b ∧
        (b.Holds t ∨ b.Holds t.completed) := by
  rcases run_ddl holds with ⟨b, ran, kept, -⟩ | ⟨b, -, -, misfits⟩
  · refine ⟨?_, fun n => ?_⟩
    · rw [ensureFilesSchema, finish_all ran, finish_read, kept.files]
      simp only [covers, if_true]
      exact ensureWorkOrderIdColumn_finish kept
    · rcases Nat.lt_or_ge 4 n with later | early
      · obtain ⟨n, rfl⟩ := Nat.exists_eq_add_of_lt later
        rw [Nat.add_assoc, ensureFilesSchema, show 4 = ddl.length from rfl,
          after_all_add ran, after_read,
          kept.files]
        simp only [covers, if_true]
        exact ensureWorkOrderIdColumn_after kept n
      · obtain ⟨d, ok, ran, kept⟩ := run_of_calm (ddl.take n)
          (fun act h => ddl_calm (t := t) act (List.mem_of_mem_take h)) holds
        refine ⟨d, ?_, Or.inl kept⟩
        rw [ensureFilesSchema, after_all early, ran]
  · exact absurd fits misfits

theorem createTable_emptied (emptied : a.Emptied) :
    ∃ b, createTable (opened a) = some (opened b) ∧ b.Bare := by
  unfold createTable
  rw [visible_opened]
  rcases emptied with none | ⟨t, some, bare⟩
  · rw [none]
    exact ⟨_, rfl, .empty, rfl, rfl, by decide, mem_columns⟩
  · rw [some]
    exact ⟨a, rfl, t, some, bare⟩

theorem createIndex_bare (i : Index) : Sure FilesDb.Bare (createIndex i) := by
  rintro a ⟨t, some, rows, covers, full⟩
  unfold createIndex
  rw [visible_opened, some]
  split
  · exact ⟨a, rfl, t, some, rows, covers, full⟩
  · exact ⟨_, if_pos fun c _ => full c, t, some, rows, covers, full⟩

theorem ensureFilesSchema_emptied (now : String) (emptied : a.Emptied) :
    ∃ b, (ensureFilesSchema now).finish (opened a) = (opened b, true) ∧ b.Bare := by
  obtain ⟨b, created, bare⟩ := createTable_emptied emptied
  obtain ⟨d, ran, bare⟩ := run_of_sure (P := FilesDb.Bare)
    [createIndex .projectCategory, createIndex .nameVersion]
    (by simp only [List.forall_mem_cons]; exact ⟨createIndex_bare _, createIndex_bare _, nofun⟩)
      bare
  have ran : run ddl (opened a) = (opened d, true) := by
    rw [ddl, run_cons (commit_opened a), run_cons created]
    exact ran
  obtain ⟨e, indexed, kept⟩ :=
    run_of_sure (P := FilesDb.Bare) [createIndex .workOrder, commit, commit]
    (by simp only [List.forall_mem_cons]
        exact ⟨createIndex_bare _, commit_sure _, commit_sure _, nofun⟩) bare
  refine ⟨e, ?_, kept⟩
  obtain ⟨t, some, -, covers, full⟩ := bare
  rw [ensureFilesSchema, finish_all ran, finish_read, some]
  simp only [covers, if_true]
  rw [ensureWorkOrderIdColumn, finish_read, some]
  change (exec read _).finish (opened d) = _
  rw [finish_read, some, Option.any_some, if_pos (decide_eq_true (full _))]
  exact finish_all indexed _

end Statements

end DreamStudio.Files
