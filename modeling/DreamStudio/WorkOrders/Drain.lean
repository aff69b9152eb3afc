import DreamStudio.Library.Group
import DreamStudio.WorkOrders.Criteria
import DreamStudio.WorkOrders.Gaps
import Mathlib.Algebra.GroupWithZero.Nat

namespace DreamStudio.WorkOrders

open Library Projections

structure DrainItem where
  category : String
  keep : String
  title : String
  cancel : List String

structure AttachedDrainItem extends DrainItem where
  keepWorkOrder : String
  workOrders : List String

structure DrainReport where
  applied : Bool
  categoriesFannedOut : Nat
  cancelled : Nat
  plan : List DrainItem
  attachedCategoriesFannedOut : Nat
  attachedCancelled : Nat
  attachedPlan : List AttachedDrainItem

section Plan

variable {α : Type} (category : α → Option String) (rows : List α)

/-- `sorted(groups.items())`, less the categories that one row has: the first row, and the
others. -/
def fannedOut : List (String × α × List α) :=
  ((Dict.group category rows).insertionSort fun g g' => g.1 ≤ g'.1).filterMap fun (c, members) =>
    match members with
    | first :: second :: rest => some (c, first, second :: rest)
    | _ => none

end Plan

section Drain

variable (py : Stdlib) (a : Authority) (projectId : String)

def spawnRows : List GapWorkOrder :=
  (a.works.filter fun w =>
    w.projectId = projectId ∧ w.status ∈ openStatuses ∧
      instr w.description spawnMarker).insertionSort
      (·.createdAt ≤ ·.createdAt)

def spawnCategory (w : GapWorkOrder) : Option String :=
  (bracketed spawnMarker w.description).map categoryHalf

def attachedRows : List GapTaskRow :=
  (a.tasks.filter fun t =>
    (a.works.any fun w =>
      w.workOrderId = t.workOrderId ∧ w.projectId = projectId ∧ w.status ∈ openStatuses) ∧
        t.status.isOpen ∧ instr t.description attachMarker).insertionSort
      (·.createdAt ≤ ·.createdAt)

def attachedCategory (t : GapTaskRow) : Option String :=
  (bracketed attachMarker t.description).map categoryHalf

def drainPlan : List DrainItem :=
  (fannedOut spawnCategory (spawnRows a projectId)).map fun (category, first, rest) =>
    { category := category, keep := first.workOrderId, title := first.title
      cancel := rest.map (·.workOrderId) }

/-- `_attached_drain_plan`. -/
def attachedDrainPlan : List AttachedDrainItem :=
  (fannedOut attachedCategory (attachedRows a projectId)).map fun (category, first, rest) =>
    { category := category, keep := first.taskId, title := first.title
      cancel := rest.map (·.taskId), keepWorkOrder := first.workOrderId
      workOrders := (((first :: rest).map (·.workOrderId)).dedup).insertionSort (· ≤ ·) }

/-- `_DRAINED_NOTE`. -/
def drainedNote (now : String) (item : DrainItem) : String :=
  "\n\n[DRAINED " ++ now ++ "] Duplicate spawn of gap category " ++ py.repr (.str item.category) ++
    "; consolidated into " ++ item.keep ++
      ". Not work that was dropped — the same finding registered " ++
    "once per reviewed work order by a dedup key that was one field too specific."

/-- One `UPDATE … WHERE id = ?` after another. -/
def updateEach {α : Type} (id : α → String) (cancel : DrainItem → α → α) (plan : List DrainItem)
    (rows : List α) : List α :=
  (plan.flatMap fun item => item.cancel.map (·, item)).foldl
    (fun rows (target, item) => rows.map fun r => if id r = target then cancel item r else r) rows

def cancelWork (now : String) (item : DrainItem) (w : GapWorkOrder) : GapWorkOrder :=
  { w with
    status := .cancelled, description := some (w.description.getD "" ++ drainedNote py now item) }

def cancelTask (now : String) (item : DrainItem) (t : GapTaskRow) : GapTaskRow :=
  { t with
    status := .cancelled, description := some (t.description.getD "" ++ drainedNote py now item) }

/-- `drain_fanned_out_categories`. -/
def drainFannedOutCategories (now : String) (applied : Bool) : DrainReport × Authority :=
  let plan := drainPlan a projectId
  let taskPlan := attachedDrainPlan a projectId
  ({ applied := applied
     categoriesFannedOut := plan.length
     cancelled := (plan.map (·.cancel.length)).sum
     plan := plan
     attachedCategoriesFannedOut := taskPlan.length
     attachedCancelled := (taskPlan.map (·.cancel.length)).sum
     attachedPlan := taskPlan },
    if applied then
      { works := updateEach (·.workOrderId) (cancelWork py now) plan a.works
        tasks := updateEach (·.taskId) (cancelTask py now) (taskPlan.map (·.toDrainItem)) a.tasks }
    else a)

end Drain

section Sound

variable (py : Stdlib)

def SameWork (t t' : GapTaskRow) : Prop :=
  normalised py t.title = normalised py t'.title ∨
    pyStrip (t.acceptanceCriteria.getD "") ≠ "" ∧
      pyStrip (t.acceptanceCriteria.getD "") = pyStrip (t'.acceptanceCriteria.getD "")

/-- One of the two work orders can stand for the other: they have one category, which is
project-wide, or they are not scoped to different reviewed work orders. -/
def SameFinding (w w' : GapWorkOrder) : Prop :=
  ∃ key key', bracketed spawnMarker w.description = some key ∧
    bracketed spawnMarker w'.description = some key' ∧ categoryHalf key = categoryHalf key' ∧
      (categoryHalf key ∈ advisoryProjectWideCategories ∨ scopeHalf key = some "advisory" ∨
        scopeHalf key' = some "advisory" ∨ scopeHalf key = scopeHalf key')

/-- The primary keys. -/
structure Authority.Keyed (a : Authority) : Prop where
  works : (a.works.map (·.workOrderId)).Nodup
  tasks : (a.tasks.map (·.taskId)).Nodup

/-- What a drain cancels, open work still stands for. -/
structure DrainSound (a : Authority) (projectId now : String) : Prop where
  tasks : ∀ t ∈ a.tasks, t.status.isOpen →
    ∀ t' ∈ (drainFannedOutCategories py a projectId now true).2.tasks,
      t'.taskId = t.taskId → t'.status = .cancelled →
        ∃ o ∈ (drainFannedOutCategories py a projectId now true).2.tasks, o.status.isOpen ∧
          SameWork py t o
  works : ∀ w ∈ a.works, w.status ∈ openStatuses →
    ∀ w' ∈ (drainFannedOutCategories py a projectId now true).2.works,
      w'.workOrderId = w.workOrderId → w'.status = .cancelled →
        ∃ o ∈ (drainFannedOutCategories py a projectId now true).2.works,
          o.projectId = projectId ∧ o.status ∈ openStatuses ∧ SameFinding w o

/-- Where the categories tell findings apart: each task after the first of its category repeats one
that is not, and each work order after the first of its category is of a class that is project-wide
or was scoped as the first was. -/
structure Separated (a : Authority) (projectId : String) : Prop where
  tasks : ∀ t ∈ Dict.later attachedCategory (attachedRows a projectId),
    ∃ o ∈ a.tasks, o.status.isOpen ∧ o ∉ Dict.later attachedCategory (attachedRows a projectId) ∧
      SameWork py t o
  works : ∀ w ∈ Dict.later spawnCategory (spawnRows a projectId), ∀ category ∈ spawnCategory w,
    ∀ first ∈ (Dict.ofKey spawnCategory (spawnRows a projectId) category).head?, SameFinding w first

end Sound

section Plan

variable {α : Type} {category : α → Option String} {rows : List α}

theorem mem_fannedOut {c : String} {first : α} {rest : List α} :
    (c, first, rest) ∈ fannedOut category rows ↔
      Dict.ofKey category rows c = first :: rest ∧ rest ≠ [] := by
  simp only [fannedOut, List.mem_filterMap, List.mem_insertionSort, Dict.mem_group, Prod.exists]
  constructor
  · rintro ⟨c', members, ⟨rfl, -⟩, found⟩
    split at found
    next _ _ _ members =>
      cases found
      exact ⟨members, List.cons_ne_nil _ _⟩
    next => cases found
  · rintro ⟨members, more⟩
    refine ⟨c, _, ⟨rfl, by simp [members]⟩, ?_⟩
    cases rest with
    | nil => exact absurd rfl more
    | cons second rest => rw [members]

theorem cancelled_eq_later {r : α} :
    (∃ item ∈ fannedOut category rows, r ∈ item.2.2) ↔ r ∈ Dict.later category rows := by
  rw [Dict.mem_later]
  constructor
  · rintro ⟨⟨c, first, rest⟩, item, member⟩
    exact ⟨c, by rw [(mem_fannedOut.mp item).1]; exact member⟩
  · rintro ⟨c, member⟩
    cases members : Dict.ofKey category rows c with
    | nil =>
      rw [members] at member
      cases member
    | cons first rest =>
      rw [members] at member
      exact ⟨(c, first, rest), mem_fannedOut.mpr ⟨members, List.ne_nil_of_mem member⟩, member⟩

end Plan

section Update

variable {α : Type} {id : α → String} {cancel : DrainItem → α → α} {C : α → Prop}

def updateRow (id : α → String) (cancel : DrainItem → α → α) (updates : List (String × DrainItem))
    (r : α) : α :=
  updates.foldl (fun r u => if id r = u.1 then cancel u.2 r else r) r

theorem updateEach_eq_map (plan : List DrainItem) (rows : List α) :
    updateEach id cancel plan rows =
      rows.map (updateRow id cancel (plan.flatMap fun item => item.cancel.map (·, item))) := by
  unfold updateEach
  generalize (plan.flatMap fun item => item.cancel.map (·, item)) = updates
  induction updates generalizing rows with
  | nil => exact (List.map_id' rows).symm
  | cons u updates ih =>
    rw [List.foldl_cons, ih, List.map_map]
    rfl

theorem updateRow_id (keeps : ∀ item r, id (cancel item r) = id r)
    (updates : List (String × DrainItem)) (r : α) : id (updateRow id cancel updates r) = id r := by
  induction updates generalizing r with
  | nil => rfl
  | cons u updates ih =>
    rw [updateRow, List.foldl_cons]
    refine (ih _).trans ?_
    split
    · exact keeps _ _
    · rfl

theorem updateRow_untouched {updates : List (String × DrainItem)} {r : α}
    (apart : id r ∉ updates.map (·.1)) : updateRow id cancel updates r = r := by
  induction updates with
  | nil => rfl
  | cons u updates ih =>
    obtain ⟨here, later⟩ := not_or.mp (List.mem_cons.not.mp apart)
    rw [updateRow, List.foldl_cons, if_neg here]
    exact ih later

theorem updateRow_kept (cancels : ∀ item r, C (cancel item r))
    (updates : List (String × DrainItem)) {r : α} (held : C r) :
    C (updateRow id cancel updates r) := by
  induction updates generalizing r with
  | nil => exact held
  | cons u updates ih =>
    rw [updateRow, List.foldl_cons]
    refine ih ?_
    split
    · exact cancels _ _
    · exact held

theorem updateRow_touched (cancels : ∀ item r, C (cancel item r))
    {updates : List (String × DrainItem)} {r : α} (target : id r ∈ updates.map (·.1)) :
    C (updateRow id cancel updates r) := by
  induction updates generalizing r with
  | nil => cases target
  | cons u updates ih =>
    rw [updateRow, List.foldl_cons]
    by_cases here : id r = u.1
    · rw [if_pos here]
      exact updateRow_kept cancels updates (cancels _ _)
    · rw [if_neg here]
      exact ih ((List.mem_cons.mp target).resolve_left here)

end Update

section Cancel

variable {α : Type} {id : α → String} {cancel : DrainItem → α → α} {C : α → Prop}
  {all duplicates : List α} {plan : List DrainItem}
  (keeps : ∀ item r, id (cancel item r) = id r) (cancels : ∀ item r, C (cancel item r))
  (nodup : (all.map id).Nodup) (among : ∀ r ∈ duplicates, r ∈ all)
  (targets : ∀ target, target ∈ (plan.flatMap fun item => item.cancel.map (·, item)).map (·.1) ↔
    ∃ r ∈ duplicates, id r = target)

include nodup among targets in
theorem duplicate_of_target {r : α} (member : r ∈ all)
    (target : id r ∈ (plan.flatMap fun item => item.cancel.map (·, item)).map (·.1)) :
    r ∈ duplicates := by
  obtain ⟨r', duplicate, same⟩ := (targets _).mp target
  exact List.inj_on_of_nodup_map nodup (among r' duplicate) member same ▸ duplicate

include nodup among targets in
theorem spared {r : α} (member : r ∈ all) (spare : r ∉ duplicates) :
    r ∈ updateEach id cancel plan all := by
  rw [updateEach_eq_map]
  refine List.mem_map.mpr ⟨r, member, updateRow_untouched fun target => spare ?_⟩
  exact duplicate_of_target nodup among targets member target

include cancels targets in
theorem spared_of_left {r : α} (left : r ∈ updateEach id cancel plan all) (open_ : ¬C r) :
    r ∈ all ∧ r ∉ duplicates := by
  rw [updateEach_eq_map] at left
  obtain ⟨r', member, rfl⟩ := List.mem_map.mp left
  have untouched : id r' ∉ (plan.flatMap fun item => item.cancel.map (·, item)).map (·.1) :=
    fun target => open_ (updateRow_touched cancels target)
  rw [updateRow_untouched untouched]
  exact ⟨member, fun duplicate => untouched ((targets _).mpr ⟨r', duplicate, rfl⟩)⟩

include keeps cancels among targets in
theorem cancelled_of_duplicate {r : α} (duplicate : r ∈ duplicates) :
    ∃ r' ∈ updateEach id cancel plan all, id r' = id r ∧ C r' := by
  rw [updateEach_eq_map]
  exact ⟨_, List.mem_map_of_mem (among r duplicate), updateRow_id keeps _ r,
    updateRow_touched cancels ((targets _).mpr ⟨r, duplicate, rfl⟩)⟩

include keeps nodup among targets in
theorem duplicate_of_cancelled {r r' : α} (member : r ∈ all) (open_ : ¬C r)
    (left : r' ∈ updateEach id cancel plan all) (same : id r' = id r) (cancelled : C r') :
    r ∈ duplicates := by
  rw [updateEach_eq_map] at left
  obtain ⟨r'', member'', rfl⟩ := List.mem_map.mp left
  rw [updateRow_id keeps] at same
  obtain rfl := List.inj_on_of_nodup_map nodup member'' member same
  by_contra spare
  rw [updateRow_untouched fun target =>
    spare (duplicate_of_target nodup among targets member target)] at cancelled
  exact open_ cancelled

end Cancel

section Targets

variable {α : Type} {category : α → Option String} {rows : List α} {id : α → String}

theorem targets_iff {item : String × α × List α → DrainItem}
    (cancels : ∀ g, (item g).cancel = g.2.2.map id) (target : String) :
    target ∈ (((fannedOut category rows).map item).flatMap fun item =>
      item.cancel.map (·, item)).map (·.1) ↔
      ∃ r ∈ Dict.later category rows, id r = target := by
  simp only [← cancelled_eq_later, List.mem_map, List.mem_flatMap]
  constructor
  · rintro ⟨u, ⟨item', ⟨g, member, rfl⟩, u', held, rfl⟩, rfl⟩
    rw [cancels] at held
    obtain ⟨r, later, rfl⟩ := List.mem_map.mp held
    exact ⟨r, ⟨g, member, later⟩, rfl⟩
  · rintro ⟨r, ⟨g, member, later⟩, rfl⟩
    exact ⟨_, ⟨_, ⟨g, member, rfl⟩, id r, by rw [cancels]; exact List.mem_map_of_mem later, rfl⟩,
      rfl⟩

end Targets

section Markers

theorem tails_of_splitFirst {marker text before after : List Char}
    (found : splitFirst marker text = some (before, after)) :
    text.tails.any (marker.isPrefixOf ·) := by
  induction text generalizing before after with
  | nil =>
    unfold splitFirst at found
    split at found
    next empty => simp [empty]
    next => cases found
  | cons c text ih =>
    unfold splitFirst at found
    rw [List.tails_cons, List.any_cons]
    split at found
    next here => simp [here]
    next =>
      obtain ⟨⟨before', after'⟩, later, -⟩ := Option.map_eq_some_iff.mp found
      simp [ih later]

theorem instr_of_bracketed {marker key : String} {description : Option String}
    (nonempty : marker ≠ "") (found : bracketed marker description = some key) :
    instr description marker = true := by
  unfold bracketed at found
  split at found
  · cases found
  next before after split =>
    cases description with
    | none =>
      have empty : marker.toList ≠ [] := fun h => nonempty (String.ext (by simpa using h))
      simp [splitFirst, empty] at split
    | some text => exact tails_of_splitFirst split

end Markers

section Exact

variable {py : Stdlib} {a : Authority} {projectId now : String}

theorem mem_attachedRows {t : GapTaskRow} (member : t ∈ attachedRows a projectId) :
    t ∈ a.tasks ∧ t.status.isOpen := by
  simp only [attachedRows, List.mem_insertionSort, List.mem_filter, decide_eq_true_eq] at member
  exact ⟨member.1, member.2.2.1⟩

theorem mem_spawnRows {w : GapWorkOrder} : w ∈ spawnRows a projectId ↔
    w ∈ a.works ∧ w.projectId = projectId ∧ w.status ∈ openStatuses ∧
      instr w.description spawnMarker := by
  simp [spawnRows, List.mem_insertionSort]

theorem later_mem {α κ : Type} [DecidableEq κ] {key : α → Option κ} {rows : List α} {r : α}
    (member : r ∈ Dict.later key rows) : r ∈ rows ∧ (key r).isSome := by
  obtain ⟨k, tail⟩ := (Dict.mem_later key rows).mp member
  obtain ⟨held, own⟩ := (Dict.mem_ofKey key rows).mp (List.mem_of_mem_tail tail)
  exact ⟨held, by rw [own]; rfl⟩

theorem open_not_cancelled {s : TaskStatus} (h : s.isOpen) : s ≠ .cancelled := by
  rintro rfl
  cases h

theorem openStatuses_not_cancelled {s : WorkOrderStatus} (h : s ∈ openStatuses) :
    s ≠ .cancelled := by
  rintro rfl
  exact absurd h (by decide)

theorem cancelTask_id (item : DrainItem) (t : GapTaskRow) :
    (cancelTask py now item t).taskId = t.taskId := rfl

theorem cancelTask_status (item : DrainItem) (t : GapTaskRow) :
    (cancelTask py now item t).status = .cancelled := rfl

theorem cancelWork_id (item : DrainItem) (w : GapWorkOrder) :
    (cancelWork py now item w).workOrderId = w.workOrderId := rfl

theorem cancelWork_status (item : DrainItem) (w : GapWorkOrder) :
    (cancelWork py now item w).status = .cancelled := rfl

theorem task_targets (target : String) :
    target ∈ (((attachedDrainPlan a projectId).map (·.toDrainItem)).flatMap fun item =>
      item.cancel.map (·, item)).map (·.1) ↔
        ∃ t ∈ Dict.later attachedCategory (attachedRows a projectId), t.taskId = target := by
  rw [attachedDrainPlan, List.map_map]
  exact targets_iff (fun _ => rfl) target

theorem work_targets (target : String) :
    target ∈ ((drainPlan a projectId).flatMap fun item => item.cancel.map (·, item)).map (·.1) ↔
      ∃ w ∈ Dict.later spawnCategory (spawnRows a projectId), w.workOrderId = target :=
  targets_iff (fun _ => rfl) target

/-- The drain cancels no distinct work exactly where the categories tell findings apart. -/
theorem drain_sound_iff (keyed : a.Keyed) : DrainSound py a projectId now ↔
    Separated py a projectId := by
  have tasksAmong : ∀ t ∈ Dict.later attachedCategory (attachedRows a projectId), t ∈ a.tasks :=
    fun t later => (mem_attachedRows (later_mem later).1).1
  have worksAmong : ∀ w ∈ Dict.later spawnCategory (spawnRows a projectId), w ∈ a.works :=
    fun w later => (mem_spawnRows.mp (later_mem later).1).1
  have distinct : (spawnRows a projectId).Nodup := by
    have kept : (a.works.filter fun w => w.projectId = projectId ∧ w.status ∈ openStatuses ∧
        instr w.description spawnMarker).Nodup := (keyed.works.of_map _).filter _
    exact (List.perm_insertionSort _ _).nodup_iff.mpr kept
  constructor
  · intro sound
    constructor
    · intro t later
      obtain ⟨t', left, same, cancelled⟩ := cancelled_of_duplicate (C := (·.status = .cancelled))
        (@cancelTask_id py now) cancelTask_status tasksAmong task_targets later
      have isOpen := (mem_attachedRows (later_mem later).1).2
      obtain ⟨o, held, open_, twin⟩ :=
        sound.tasks t (tasksAmong t later) isOpen t' left same cancelled
      obtain ⟨member, spare⟩ := spared_of_left (C := (·.status = .cancelled)) cancelTask_status
        task_targets held (open_not_cancelled open_)
      exact ⟨o, member, open_, spare, twin⟩
    · intro w later category own first head
      obtain ⟨w', left, same, cancelled⟩ := cancelled_of_duplicate (C := (·.status = .cancelled))
        (@cancelWork_id py now) cancelWork_status worksAmong work_targets later
      have isOpen := (mem_spawnRows.mp (later_mem later).1).2.2.1
      obtain ⟨o, held, project, open_, finding⟩ :=
        sound.works w (worksAmong w later) isOpen w' left same cancelled
      obtain ⟨member, spare⟩ := spared_of_left (C := (·.status = .cancelled)) cancelWork_status
        work_targets held (openStatuses_not_cancelled open_)
      obtain ⟨key, key', found, found', category', -⟩ := id finding
      have named : spawnCategory o = some category := by
        rw [spawnCategory, found', Option.map_some, ← category', ← Option.map_some, ← found]
        exact own
      have row : o ∈ spawnRows a projectId :=
        mem_spawnRows.mpr ⟨member, project, open_, instr_of_bracketed (by decide) found'⟩
      have leads := (Dict.not_later_iff spawnCategory _ distinct row named).mp spare
      rw [leads] at head
      cases head
      exact finding
  · intro separated
    constructor
    · intro t member isOpen t' left same cancelled
      have later := duplicate_of_cancelled (C := (·.status = .cancelled)) cancelTask_id keyed.tasks
        tasksAmong task_targets member (open_not_cancelled isOpen) left same cancelled
      obtain ⟨o, held, open_, spare, twin⟩ := separated.tasks t later
      exact ⟨o, spared keyed.tasks tasksAmong task_targets held spare, open_, twin⟩
    · intro w member isOpen w' left same cancelled
      have later := duplicate_of_cancelled (C := (·.status = .cancelled)) cancelWork_id keyed.works
        worksAmong work_targets member (openStatuses_not_cancelled isOpen) left same cancelled
      obtain ⟨category, tail⟩ := (Dict.mem_later _ _).mp later
      obtain ⟨row, own⟩ := (Dict.mem_ofKey _ _).mp (List.mem_of_mem_tail tail)
      cases members : Dict.ofKey spawnCategory (spawnRows a projectId) category with
      | nil =>
        rw [members] at tail
        cases tail
      | cons first rest =>
        have head : (Dict.ofKey spawnCategory (spawnRows a projectId) category).head? =
            some first := by
          rw [members]
          rfl
        obtain ⟨held, named⟩ := (Dict.mem_ofKey _ _).mp (List.mem_of_mem_head? head)
        have spare := (Dict.not_later_iff _ _ distinct held named).mpr head
        obtain ⟨first', project, open_, -⟩ := mem_spawnRows.mp held
        exact ⟨first, spared keyed.works worksAmong work_targets first' spare, project, open_,
          separated.works w later category own first head⟩

end Exact

section Example

instance (py : Stdlib) (t t' : GapTaskRow) : Decidable (SameWork py t t') :=
  inferInstanceAs (Decidable (_ ∨ _ ∧ _))

def plainLibrary : Stdlib where
  __ := bareStdlib
  lower := pyLower

def lenient : GapWorld where
  now := "2026-09-10T00:00:00+00:00"
  newWorkOrderId i := "spawn-" ++ toString i
  newTaskId origin := "task-" ++ toString origin.1 ++ "-" ++ toString origin.2
  admitTask _ _ := ⟨true, [], []⟩
  taskEmitted _ := true
  workOrderEmitted _ := true

def openWork (id : String) : GapWorkOrder where
  workOrderId := id
  projectId := "p"
  milestoneId := none
  title := "Parser"
  description := none
  workOrderType := none
  status := .inProgress
  sequenceOrder := none
  createdAt := "2026-09-01T00:00:00+00:00"

def resilienceTask : GapTask where
  title := "Test the reachable failure modes"
  acceptanceCriteria := some "TEST-CHECK: tests/test_failures.py"

def repeatedFinding : Authority :=
  let first :=
    (attachGapTasks plainLibrary lenient 0 ⟨[openWork "wo1", openWork "wo2"], []⟩ "wo1" "p"
    [resilienceTask] "advisory::add-missing-test-coverage").2
  (attachGapTasks plainLibrary lenient 1 first "wo2" "p" [resilienceTask]
    "advisory::add-missing-test-coverage").2

theorem repeated_finding_drained :
    DrainSound plainLibrary repeatedFinding "p" "2026-09-11T00:00:00+00:00" := by
  have keyed : repeatedFinding.Keyed := ⟨by decide +kernel, by decide +kernel⟩
  have unspawned : spawnRows repeatedFinding "p" = [] := by decide +kernel
  refine (drain_sound_iff keyed).mpr ⟨by decide +kernel, fun w later => ?_⟩
  rw [unspawned] at later
  cases later

def laneFindings : Authority :=
  (attachGapTasks plainLibrary lenient 0 ⟨[openWork "wo"], []⟩ "wo" "p"
    [{ title := "Close the file handle"
       acceptanceCriteria := some "TEST-CHECK: tests/test_io.py" },
     { title := "Bound the retry loop"
       acceptanceCriteria := some "TEST-CHECK: tests/test_retry.py" }]
    "review-lane").2

/-- The second finding is cancelled, and nothing open stands for it. -/
theorem lane_finding_drained :
    ¬DrainSound plainLibrary laneFindings "p" "2026-09-11T00:00:00+00:00" := by
  intro sound
  have none := sound.tasks
  revert none
  decide +kernel

end Example

end DreamStudio.WorkOrders
