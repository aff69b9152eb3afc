import DreamStudio.Library.Machine
import Mathlib.Data.List.Range
import Mathlib.Data.List.Nodup

namespace DreamStudio.Files

open Library

/-- `_VALID_CATEGORIES`. -/
def validCategories : List String :=
  ["handoff", "evidence", "release", "rollback", "export", "planning"]

/-- What `write_file` is called with. -/
structure WriteCall where
  name : String
  content : String
  contentType : String
  category : String
  projectId : Option String := none
  workOrderId : Option String := none
  correlationId : Option String := none
  createdBy : Option String := none
  expiresAt : Option String := none
  deriving DecidableEq

/-- A row of `ds_files`. -/
structure FileRow where
  fileId : String
  call : WriteCall
  version : Nat
  createdAt : String
  checksum : String
  deriving DecidableEq

/-- `name = ? AND project_id IS ?`. -/
def rowsOf (name : String) (projectId : Option String) (rows : List FileRow) : List FileRow :=
  rows.filter fun r => r.call.name = name ∧ r.call.projectId = projectId

/-- `MAX(version)`. -/
def maxVersion (rows : List FileRow) : Option Nat := (rows.map (·.version)).max?

/-- `_next_version`. -/
def nextVersion (rows : List FileRow) (name : String) (projectId : Option String) : Nat :=
  match maxVersion (rowsOf name projectId rows) with
  | none => 1
  | some current => current + 1

/-- The rows `read_file_by_name` may return: where the query leaves a choice, any of them. -/
def readFileByName (rows : List FileRow) (name : String) (projectId : Option String) :
    Option Nat → List FileRow
  | some version => (rowsOf name projectId rows).filter (·.version = version)
  | none =>
    let rows := rowsOf name projectId rows
    rows.filter fun r => ∀ s ∈ rows, s.version ≤ r.version

/-- A `write_file` that has read its version and not yet inserted. -/
structure Writing where
  call : WriteCall
  fileId : String
  createdAt : String
  version : Nat
  deriving DecidableEq

structure Docstore where
  rows : List FileRow := []
  writings : List Writing := []
  finished : List WriteCall := []
  deriving DecidableEq

inductive StoreStep
  | read (call : WriteCall) (fileId createdAt : String)
  | insert (i : Nat)

/-- Any number of `write_file` calls, the read of the version and the insert a step each. A call for
an unknown category raises before either. -/
def writers (checksum : String → String) : Machine Docstore StoreStep where
  step s
    | .read call fileId createdAt =>
      if call.category ∈ validCategories then
        some { s with
          writings := s.writings ++
            [⟨call, fileId, createdAt, nextVersion s.rows call.name call.projectId⟩] }
      else some s
    | .insert i => do
      let w ← s.writings[i]?
      some {
        rows := s.rows ++ [⟨w.fileId, w.call, w.version, w.createdAt, checksum w.call.content⟩]
        writings := s.writings.eraseIdx i
        finished := s.finished ++ [w.call] }

/-- How many calls wrote this file. -/
def Docstore.calls (s : Docstore) (name : String) (projectId : Option String) : Nat :=
  s.finished.countP fun c => c.name = name ∧ c.projectId = projectId

/-- The versions of a file are one for each call that wrote it, each names one row, and the file
reads as the call that inserted last left it. -/
structure Docstore.Complete (s : Docstore) (name : String) (projectId : Option String) : Prop where
  versions : ((rowsOf name projectId s.rows).map (·.version)).Perm
    (List.range' 1 (s.calls name projectId))
  determined : ∀ v ∈ List.range' 1 (s.calls name projectId),
    ∃ r, readFileByName s.rows name projectId (some v) = [r]
  latest : readFileByName s.rows name projectId none =
    (rowsOf name projectId s.rows).getLast?.toList

/-- An insert finds the version its call has read still the next one. -/
def Undisturbed (s : Docstore) : StoreStep → Prop
  | .insert i => ∀ w ∈ s.writings[i]?, w.version = nextVersion s.rows w.call.name w.call.projectId
  | _ => True

instance (s : Docstore) : (l : StoreStep) → Decidable (Undisturbed s l)
  | .insert _ => inferInstanceAs (Decidable (∀ w ∈ _, _))
  | .read _ _ _ => inferInstanceAs (Decidable True)

section Rows

variable {name : String} {projectId : Option String} {rows : List FileRow} {row : FileRow}

def versionsOf (name : String) (projectId : Option String) (rows : List FileRow) : List Nat :=
  (rowsOf name projectId rows).map (·.version)

theorem versionsOf_concat (rows : List FileRow) (row : FileRow) :
    versionsOf name projectId (rows ++ [row]) = versionsOf name projectId rows ++
      if row.call.name = name ∧ row.call.projectId = projectId then [row.version] else [] := by
  by_cases own : row.call.name = name ∧ row.call.projectId = projectId
  · simp [versionsOf, rowsOf, own]
  · simp [versionsOf, rowsOf, own]

theorem lt_nextVersion {v : Nat} (member : v ∈ versionsOf name projectId rows) :
    v < nextVersion rows name projectId := by
  unfold nextVersion maxVersion
  cases max : ((rowsOf name projectId rows).map (·.version)).max? with
  | none =>
    rw [List.max?_eq_none_iff] at max
    rw [versionsOf, max] at member
    cases member
  | some m => exact Nat.lt_succ_of_le ((List.max?_eq_some_iff.mp max).2 v member)

theorem nextVersion_pos : 0 < nextVersion rows name projectId := by
  unfold nextVersion
  split <;> exact Nat.succ_pos _

theorem nextVersion_mono {rows' : List FileRow}
    (sub : versionsOf name projectId rows ⊆ versionsOf name projectId rows') :
    nextVersion rows name projectId ≤ nextVersion rows' name projectId := by
  conv_lhs => unfold nextVersion maxVersion
  split
  · exact nextVersion_pos
  next m max => exact lt_nextVersion (sub (List.max?_eq_some_iff.mp max).1)

theorem nextVersion_of_range {k : Nat}
    (numbered : versionsOf name projectId rows = List.range' 1 k) :
    nextVersion rows name projectId = k + 1 := by
  refine Nat.le_antisymm ?_ ?_
  · unfold nextVersion maxVersion
    split
    · omega
    next m max =>
      have member : m ∈ List.range' 1 k := numbered ▸ (List.max?_eq_some_iff.mp max).1
      rw [List.mem_range'_1] at member
      omega
  · cases k with
    | zero => exact nextVersion_pos
    | succ k => exact lt_nextVersion (numbered ▸ List.mem_range'_1.mpr (by omega))

end Rows

/-- What every interleaving keeps: versions that do not repeat are in order, and no call has read
one that is still ahead. -/
structure Docstore.Sound (s : Docstore) : Prop where
  ordered : ∀ name projectId, (versionsOf name projectId s.rows).Nodup →
    versionsOf name projectId s.rows = List.range' 1 (versionsOf name projectId s.rows).length
  read : ∀ w ∈ s.writings, 0 < w.version ∧
    w.version ≤ nextVersion s.rows w.call.name w.call.projectId
  counted : ∀ name projectId, s.calls name projectId = (versionsOf name projectId s.rows).length

section Step

variable {checksum : String → String} {s t : Docstore} {l : StoreStep}

theorem concat_range {vs : List Nat} {v k : Nat} (nodup : (vs ++ [v]).Nodup)
    (range : vs = List.range' 1 k) (positive : 0 < v) (bound : v ≤ k + 1) : v = k + 1 := by
  have new : v ∉ vs := fun member => (List.nodup_append.mp nodup).2.2 v member v
    (List.mem_singleton.mpr rfl) rfl
  rw [range, List.mem_range'_1] at new
  omega

theorem Docstore.Sound.insert (sound : s.Sound) {w : Writing} (member : w ∈ s.writings)
    {row : FileRow} (own : row.call = w.call) (version : row.version = w.version)
    {rest : List Writing} (sub : rest ⊆ s.writings) :
    Docstore.Sound ⟨s.rows ++ [row], rest, s.finished ++ [w.call]⟩ where
  ordered name projectId nodup := by
    have before := sound.ordered name projectId
    rw [versionsOf_concat] at nodup ⊢
    split at nodup
    next here =>
      obtain ⟨rfl, rfl⟩ := here
      have range := before (List.nodup_append.mp nodup).1
      have bound := sound.read w member
      rw [← own, nextVersion_of_range range, ← version] at bound
      have next := concat_range nodup range bound.1 bound.2
      rw [if_pos ⟨rfl, rfl⟩, List.length_append, List.length_singleton, List.range'_concat,
        ← range, next,
        Nat.one_mul, Nat.add_comm]
    next there =>
      rw [if_neg there, List.append_nil] at *
      exact before nodup
  read v still := by
    obtain ⟨positive, bound⟩ := sound.read v (sub still)
    refine ⟨positive, bound.trans (nextVersion_mono ?_)⟩
    rw [versionsOf_concat]
    exact List.subset_append_left _ _
  counted name projectId := by
    have before := sound.counted name projectId
    rw [versionsOf_concat, List.length_append, ← before, own]
    simp only [Docstore.calls, List.countP_append, List.countP_singleton, decide_eq_true_eq]
    split <;> rfl

theorem sound_step (sound : s.Sound) (step : (writers checksum).step s l = some t) : t.Sound := by
  cases l with
  | read call fileId createdAt =>
    simp only [writers] at step
    split at step
    · obtain rfl := Option.some.inj step
      refine ⟨sound.ordered, ?_, sound.counted⟩
      refine List.forall_mem_append.mpr
        ⟨sound.read, List.forall_mem_singleton.mpr ⟨nextVersion_pos, le_rfl⟩⟩
    · obtain rfl := Option.some.inj step
      exact sound
  | insert i =>
    simp only [writers, Option.bind_eq_bind, Option.bind_eq_some_iff] at step
    obtain ⟨w, at_, step⟩ := step
    obtain rfl := Option.some.inj step
    exact sound.insert (List.mem_of_getElem? at_) rfl rfl (List.eraseIdx_subset)

def Docstore.Distinct (s : Docstore) : Prop :=
  ∀ name projectId, (versionsOf name projectId s.rows).Nodup

theorem distinct_iff_undisturbed (sound : s.Sound) (distinct : s.Distinct)
    (step : (writers checksum).step s l = some t) : t.Distinct ↔ Undisturbed s l := by
  cases l with
  | read call fileId createdAt =>
    simp only [writers] at step
    split at step <;> obtain rfl := Option.some.inj step <;> exact iff_of_true distinct trivial
  | insert i =>
    simp only [writers, Option.bind_eq_bind, Option.bind_eq_some_iff] at step
    obtain ⟨w, at_, step⟩ := step
    obtain rfl := Option.some.inj step
    have range := sound.ordered w.call.name w.call.projectId (distinct _ _)
    have bound := sound.read w (List.mem_of_getElem? at_)
    constructor
    · intro still v found
      obtain rfl := Option.some.inj (at_.symm.trans found)
      have nodup := still w.call.name w.call.projectId
      rw [versionsOf_concat, if_pos ⟨rfl, rfl⟩] at nodup
      rw [nextVersion_of_range range] at bound ⊢
      exact concat_range nodup range bound.1 bound.2
    · intro undisturbed name projectId
      rw [versionsOf_concat]
      split
      next here =>
        obtain ⟨rfl, rfl⟩ := here
        refine List.nodup_append.mpr ⟨distinct _ _, List.nodup_singleton _, fun a old b new => ?_⟩
        obtain rfl := List.mem_singleton.mp new
        exact ((lt_nextVersion old).trans_eq (undisturbed w at_).symm).ne
      · rw [List.append_nil]
        exact distinct name projectId

theorem rows_prefix (step : (writers checksum).step s l = some t) : s.rows <+: t.rows := by
  cases l with
  | read call fileId createdAt =>
    simp only [writers] at step
    split at step <;> obtain rfl := Option.some.inj step <;> exact List.prefix_rfl
  | insert i =>
    simp only [writers, Option.bind_eq_bind, Option.bind_eq_some_iff] at step
    obtain ⟨w, -, step⟩ := step
    obtain rfl := Option.some.inj step
    exact List.prefix_append _ _

theorem Docstore.Distinct.of_prefix (distinct : t.Distinct) (pre : s.rows <+: t.rows) :
    s.Distinct :=
  fun name projectId => (distinct name projectId).sublist ((pre.sublist.filter _).map _)

theorem filter_version {rows : List FileRow} (nodup : (rows.map (·.version)).Nodup) {v : Nat}
    (there : v ∈ rows.map (·.version)) : ∃ r, rows.filter (·.version = v) = [r] := by
  induction rows with
  | nil => cases there
  | cons r rows ih =>
    rw [List.map_cons, List.nodup_cons] at nodup
    by_cases here : r.version = v
    · have alone : rows.filter (·.version = v) = [] :=
        List.filter_eq_nil_iff.mpr fun s member same =>
        nodup.1 (here ▸ of_decide_eq_true same ▸ List.mem_map_of_mem member)
      exact ⟨r, by simp [here, alone]⟩
    · rw [List.map_cons, List.mem_cons] at there
      obtain ⟨s, found⟩ := ih nodup.2 (there.resolve_left fun same => here same.symm)
      exact ⟨s, by simp [here, found]⟩

theorem filter_highest {rows : List FileRow} {k : Nat}
    (numbered : rows.map (·.version) = List.range' 1 k) :
    (rows.filter fun r => ∀ s ∈ rows, s.version ≤ r.version) = rows.getLast?.toList := by
  rcases List.eq_nil_or_concat rows with rfl | ⟨before, last, rfl⟩
  · rfl
  · rw [List.concat_eq_append] at numbered ⊢
    rw [List.map_append, List.map_singleton] at numbered
    have length : k = before.length + 1 := by simpa using (congrArg List.length numbered).symm
    rw [length, List.range'_concat, Nat.one_mul] at numbered
    obtain ⟨first, highest⟩ := List.append_inj' numbered rfl
    have below : ∀ r ∈ before, r.version < last.version := by
      intro r member
      have listed : r.version ∈ List.range' 1 before.length := first ▸ List.mem_map_of_mem member
      rw [List.mem_range'_1] at listed
      rw [List.singleton_inj.mp highest]
      omega
    have none : (before.filter fun r => ∀ s ∈ before ++ [last], s.version ≤ r.version) = [] := by
      refine List.filter_eq_nil_iff.mpr fun r member highest => ?_
      have less := of_decide_eq_true highest last
        (List.mem_append_right _ (List.mem_singleton.mpr rfl))
      exact absurd (below r member) (Nat.not_lt.mpr less)
    have some_ : ∀ s ∈ before ++ [last], s.version ≤ last.version :=
      List.forall_mem_append.mpr
        ⟨fun r member => (below r member).le, List.forall_mem_singleton.mpr le_rfl⟩
    rw [List.filter_append, none, List.getLast?_concat]
    simp only [List.nil_append, List.filter_singleton, decide_eq_true some_, cond_true,
      Option.toList_some]

theorem complete_iff (sound : s.Sound) (name : String) (projectId : Option String) :
    s.Complete name projectId ↔ (versionsOf name projectId s.rows).Nodup := by
  constructor
  · intro complete
    exact complete.versions.nodup_iff.mpr List.nodup_range'
  · intro nodup
    have range := sound.ordered name projectId nodup
    rw [← sound.counted] at range
    refine ⟨List.Perm.of_eq range, fun v member => ?_, filter_highest range⟩
    rw [← range] at member
    exact filter_version nodup member

end Step

/-- After any interleaving every file is complete exactly when each insert was undisturbed. -/
theorem complete_iff_undisturbed (checksum : String → String) {ls : List StoreStep} {t : Docstore}
    (reach : (writers checksum).run {} ls = some t) :
    (∀ name projectId, t.Complete name projectId) ↔
      ∀ x ∈ (writers checksum).transitions {} ls, Undisturbed x.before x.label := by
  have start : ({} : Docstore).Sound := ⟨fun _ _ _ => rfl, nofun, fun _ _ => rfl⟩
  have sound :
      t.Sound := (writers checksum).run_invariant
      (fun _ _ _ h step => sound_step h step) start reach
  have complete : (∀ name projectId, t.Complete name projectId) ↔ t.Distinct :=
    forall₂_congr (complete_iff sound)
  have exact_ := (writers checksum).forall_after_iff_forall_guard (J := Docstore.Sound)
    (P := Docstore.Distinct) (C := Undisturbed) (fun _ _ _ h step => sound_step h step)
    (fun _ _ _ h distinct step => distinct_iff_undisturbed h distinct step) start
      (fun _ _ => List.nodup_nil) ls
  rw [complete, ← exact_]
  constructor
  · intro distinct x member
    have pre := ((writers checksum).rel_of_mem_transitions (R := fun s t => s.rows <+: t.rows)
      (fun s => List.prefix_refl s.rows) (fun _ _ _ => List.IsPrefix.trans)
      (fun _ _ _ step => rows_prefix step) reach).2 x member
    exact distinct.of_prefix pre
  · intro throughout
    refine ((writers checksum).run_invariant_of_guarded (J := fun s => s.Sound ∧ s.Distinct)
      (G := fun s l _ => Undisturbed s l) ?_ ⟨start, fun _ _ => List.nodup_nil⟩
        (exact_.mp throughout) reach).2
    intro s l u held careful step
    exact ⟨sound_step held.1 step, (distinct_iff_undisturbed held.1 held.2 step).mpr careful⟩

section Runs

def note (content : String) : WriteCall where
  name := "notes.md"
  content := content
  contentType := "text/markdown"
  category := "planning"

def inOrder : List StoreStep :=
  [.read (note "a") "f1" "10:00", .insert 0, .read (note "b") "f2" "10:01", .insert 0]

def overlapping : List StoreStep :=
  [.read (note "a") "f1" "10:00", .read (note "b") "f2" "10:00", .insert 0, .insert 0]

theorem inOrder_complete :
    ((writers id).run {} inOrder).isSome ∧
      ∀ t ∈ (writers id).run {} inOrder, ∀ name projectId, t.Complete name projectId :=
  ⟨rfl, fun _ reach => (complete_iff_undisturbed id reach).mpr (by decide)⟩

theorem overlapping_not_complete :
    ¬∀ t ∈ (writers id).run {} overlapping, ∀ name projectId, t.Complete name projectId := by
  intro complete
  have twice := (complete _ rfl "notes.md" none).versions.nodup_iff
  revert twice
  decide

end Runs

end DreamStudio.Files
