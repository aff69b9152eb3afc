import DreamStudio.Files.Widening

namespace DreamStudio.Files

open Library Statement Script
open Connection (opened run run_cons run_append run_of_calm visible_opened Calm)

def FilesTable.common (t : FilesTable) : List Column :=
  FilesTable.empty.columns.filter (· ∈ t.columns)

def FilesTable.widened (now : String) (t : FilesTable) : Option FilesTable :=
  FilesTable.empty.insert (t.rows.map (copied now t.common))

structure FilesDb.Renamed (t : FilesTable) (a : FilesDb) : Prop where
  old : a.old = some t
  files : a.files = none ∨ a.files = some .empty

def FilesDb.recreated (t : FilesTable) : FilesDb :=
  ⟨some .empty, some t, [.projectCategory, .nameVersion], []⟩

def recreating : List (Connection.Action FilesDb) :=
  [dropIndex .projectCategory, dropIndex .nameVersion, dropIndex .workOrder] ++ ddl ++ [read, read]

theorem widening_eq (now : String) :
    widening now = rename :: (recreating ++ [copy now, dropOld, commit]) := rfl

theorem insert_eq_some {t t' : FilesTable} {rows : List Row} (inserted : t.insert rows = some t') :
    t' = { t with rows := t.rows ++ rows } := by
  induction rows generalizing t with
  | nil =>
    rw [FilesTable.insert, Option.some.injEq] at inserted
    rw [List.append_nil]
    exact inserted.symm
  | cons r rows ih =>
    rw [FilesTable.insert] at inserted
    split at inserted
    · rw [ih inserted, List.append_assoc]
      rfl
    · cases inserted

section Renamed

variable {t : FilesTable} {a : FilesDb}

theorem FilesDb.Renamed.emptied (renamed : a.Renamed t) : a.Emptied :=
  renamed.files.imp id fun some => ⟨.empty, some, rfl, by decide, mem_columns⟩

theorem dropIndex_renamed (i : Index) : Calm (FilesDb.Renamed t) (dropIndex i) := fun _ renamed =>
  Or.inr ⟨_, rfl, renamed.old, renamed.files⟩

theorem createTable_renamed : Calm (FilesDb.Renamed t) createTable := by
  intro a renamed
  unfold createTable
  rw [visible_opened]
  rcases renamed.files with none | some
  · rw [none]
    exact Or.inr ⟨_, rfl, renamed.old, Or.inr rfl⟩
  · rw [some]
    exact Or.inr ⟨a, rfl, renamed⟩

theorem createIndex_renamed (i : Index) : Calm (FilesDb.Renamed t) (createIndex i) := by
  intro a renamed
  unfold createIndex
  rw [visible_opened]
  split
  · exact Or.inr ⟨a, rfl, renamed⟩
  rcases renamed.files with none | some
  · rw [none]
    exact Or.inl rfl
  · rw [some]
    exact Or.inr ⟨_, if_pos fun c _ => mem_columns c, renamed.old, Or.inr some⟩

theorem recreating_calm : ∀ act ∈ recreating, Calm (FilesDb.Renamed t) act := by
  simp only [recreating, ddl, List.cons_append, List.nil_append, List.forall_mem_cons]
  exact ⟨dropIndex_renamed _, dropIndex_renamed _, dropIndex_renamed _, commit_calm _,
    createTable_renamed,
    createIndex_renamed _, createIndex_renamed _, read_calm _, read_calm _, List.forall_mem_nil _⟩

theorem filter_indexes (is : List Index) :
    ((is.filter (· ≠ .projectCategory)).filter (· ≠ .nameVersion)).filter (· ≠ .workOrder) =
      [] := by
  refine List.filter_eq_nil_iff.mpr fun i hi => ?_
  obtain ⟨hi, nv⟩ := List.mem_filter.mp hi
  obtain ⟨-, pc⟩ := List.mem_filter.mp hi
  cases i <;> simp at nv pc ⊢

theorem run_recreating (is : List Index) :
    run recreating (opened ⟨none, some t, [], is⟩) = (opened (.recreated t), true) := by
  change run (ddl ++ [read, read])
    (opened ⟨none, some t, [], ((is.filter (· ≠ .projectCategory)).filter
      (· ≠ .nameVersion)).filter (· ≠ .workOrder)⟩) = _
  rw [filter_indexes]
  rfl

theorem rename_holds (holds : a.Holds t) :
    rename (opened a) = some (opened ⟨none, some t, [], a.indexes⟩) := by
  simp only [rename, visible_opened, holds.files, holds.old]
  rfl

theorem common_ne_nil (fits : ∀ c ∈ indexedColumns, c ∈ t.columns) : t.common ≠ [] :=
  List.ne_nil_of_mem (List.mem_filter.mpr ⟨mem_columns .name, by
    simpa using fits .name (by decide)⟩)

theorem copy_recreated (now : String) (fits : ∀ c ∈ indexedColumns, c ∈ t.columns) :
    copy now (opened (.recreated t)) =
      (t.widened now).map fun w =>
        ⟨.recreated t, some { FilesDb.recreated t with files := some w }⟩ := by
  change (if t.common = [] then none else (t.widened now).map _) = _
  rw [if_neg (common_ne_nil fits)]
  rfl

theorem widening_stopped (now : String) (holds : a.Holds t)
    (fits : ∀ c ∈ indexedColumns, c ∈ t.columns) {n : Nat} (bound : n < 12) :
    (run ((widening now).take (n + 1)) (opened a)).1.close.Renamed t := by
  rw [widening_eq, List.take_succ_cons, run_cons (rename_holds holds)]
  have renamed : (FilesDb.mk none (some t) [] a.indexes).Renamed t := ⟨rfl, Or.inl rfl⟩
  rcases Nat.lt_or_ge 9 n with gt | le
  · obtain ⟨m, rfl⟩ := Nat.exists_eq_add_of_lt gt
    rw [Nat.add_assoc, show 9 = recreating.length from rfl, List.take_length_add_append,
      run_append (run_recreating a.indexes)]
    have kept : (FilesDb.recreated t).Renamed t := ⟨rfl, Or.inr rfl⟩
    rw [List.take_succ_cons, run, copy_recreated now fits]
    cases t.widened now with
    | none => exact kept
    | some w =>
      cases m with
      | zero => exact kept
      | succ m =>
        cases m with
        | zero => exact kept
        | succ m => omega
  · rw [List.take_append_of_le_length le]
    obtain ⟨b, ok, ran, kept⟩ :=
      run_of_calm (recreating.take n)
        (fun act h => recreating_calm (t := t) act (List.mem_of_mem_take h)) renamed
    rw [ran]
    exact kept

theorem run_widening_of_none (now : String) (holds : a.Holds t)
    (fits : ∀ c ∈ indexedColumns, c ∈ t.columns) (failed : t.widened now = none) :
    run (widening now) (opened a) = (opened (.recreated t), false) := by
  rw [widening_eq, run_cons (rename_holds holds), run_append (run_recreating _), run,
    copy_recreated now fits, failed]
  rfl

theorem run_widening_of_some (now : String) (holds : a.Holds t)
    (fits : ∀ c ∈ indexedColumns, c ∈ t.columns) {w : FilesTable} (made : t.widened now = some w) :
    ∃ b, run (widening now) (opened a) = (opened b, true) ∧ b.Holds w := by
  refine ⟨⟨some w, none, [.projectCategory, .nameVersion], []⟩, ?_, rfl, rfl, rfl,
    fun i _ c _ => ?_⟩
  · rw [widening_eq, run_cons (rename_holds holds), run_append (run_recreating _), run,
      copy_recreated now fits, made]
    rfl
  · rw [insert_eq_some made]
    exact mem_columns c

theorem ensureFilesSchema_finish_widening (now : String) (holds : a.Holds t)
    (fits : ∀ c ∈ indexedColumns, c ∈ t.columns) (stale : t.covers = false) :
    (∀ w, t.widened now = some w →
      ∃ b, (ensureFilesSchema now).finish (opened a) = (opened b, true) ∧ b.Holds w.completed) ∧
    (t.widened now = none →
      ∃ b, (ensureFilesSchema now).finish (opened a) = (opened b, false) ∧ b.Renamed t) := by
  rcases run_ddl holds with ⟨b, ran, kept, -⟩ | ⟨b, -, -, misfits⟩
  · rw [ensureFilesSchema, finish_all ran, finish_read, kept.files]
    simp only [stale, Bool.false_eq_true, if_false]
    refine ⟨fun w made => ?_, fun failed => ?_⟩
    · obtain ⟨d, ran, kept⟩ := run_widening_of_some now kept fits made
      rw [finish_all ran]
      exact ensureWorkOrderIdColumn_finish kept
    · rw [finish_all_of_stuck (run_widening_of_none now kept fits failed)]
      exact ⟨_, rfl, rfl, Or.inr rfl⟩
  · exact absurd fits misfits

theorem ensureFilesSchema_after_widening (now : String) (holds : a.Holds t)
    (fits : ∀ c ∈ indexedColumns, c ∈ t.columns) (stale : t.covers = false) (n : Nat) :
    (n < 6 ∧ (a.stopped now n).Holds t) ∨ (Widening n ∨ t.widened now = none) ∧
      (a.stopped now n).Renamed t ∨
      ¬Widening n ∧ ∃ w, t.widened now = some w ∧
        ((a.stopped now n).Holds w ∨ (a.stopped now n).Holds w.completed) := by
  unfold FilesDb.stopped
  rcases run_ddl holds with ⟨b, ran, kept, -⟩ | ⟨b, -, -, misfits⟩
  swap
  · exact absurd fits misfits
  rcases Nat.lt_or_ge 4 n with later | early
  swap
  · obtain ⟨d, ok, ran, kept⟩ := run_of_calm (ddl.take n)
      (fun act h => ddl_calm (t := t) act (List.mem_of_mem_take h)) holds
    rw [ensureFilesSchema, after_all early, ran]
    exact Or.inl ⟨by omega, kept⟩
  obtain ⟨n, rfl⟩ := Nat.exists_eq_add_of_lt later
  rw [Nat.add_assoc, ensureFilesSchema, show 4 = ddl.length from rfl, after_all_add ran,
    after_read, kept.files]
  simp only [stale, Bool.false_eq_true, if_false]
  cases n with
  | zero => exact Or.inl ⟨by decide, by rw [after_zero]; exact kept⟩
  | succ n =>
    rcases Nat.lt_or_ge n 12 with before | past
    · rw [after_all (by change n + 1 ≤ 13; omega)]
      exact Or.inr (Or.inl ⟨Or.inl (by unfold Widening; change 6 ≤ 4 + _ ∧ 4 + _ ≤ 17; omega),
        widening_stopped now kept fits before⟩)
    · have gone : ¬Widening (ddl.length + (n + 1 + 1)) := by
        unfold Widening; change ¬(_ ∧ 4 + _ ≤ 17); omega
      cases made : t.widened now with
      | none =>
        refine Or.inr (Or.inl ⟨Or.inr rfl, ?_⟩)
        have stuck := run_widening_of_none now kept fits made
        rw [after_all_of_stuck stuck, List.take_of_length_le (by change 13 ≤ n + 1; omega), stuck]
        exact ⟨rfl, Or.inr rfl⟩
      | some w =>
        obtain ⟨d, ran, kept⟩ := run_widening_of_some now kept fits made
        obtain ⟨m, rfl⟩ := Nat.exists_eq_add_of_le past
        have split : 12 + m + 1 = (widening now).length + m := by change _ = 13 + m; omega
        obtain ⟨e, stopped, kept⟩ := ensureWorkOrderIdColumn_after kept m
        refine Or.inr (Or.inr ⟨gone, w, rfl, ?_⟩)
        rw [split, after_all_add ran, stopped]
        exact kept

end Renamed

end DreamStudio.Files
