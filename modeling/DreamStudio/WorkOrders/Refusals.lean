import Mathlib.Data.List.Induction
import DreamStudio.WorkOrders.Gaps

namespace DreamStudio.WorkOrders

open Library Projections

section Outcome

variable (py : Stdlib) (world : GapWorld) (n : Nat) (workOrderId : String) (skips : Bool)
  (held : List GapTaskRow) (tasks : List GapTask)

/-- What became of the tasks of one gap: the rows they were filed as, the refusals, and what was
skipped by its title. -/
structure GapOutcome (rows : List GapTaskRow) (unfiled : List Unfiled) : Prop where
  filed : ∀ t ∈ rows, ∃ (j : Nat) (task : GapTask), tasks[j]? = some task ∧
    t.taskId = world.newTaskId (n, j) ∧ ∀ item ∈ unfiled, item.origin ≠ (n, j)
  refused : ∀ item ∈ unfiled, ∃ (j : Nat) (task : GapTask), tasks[j]? = some task ∧
    item.origin = (n, j) ∧
    (skips = true → ∀ t ∈ held ++ rows, t.workOrderId = workOrderId →
      normalised py t.title = normalised py task.title →
        ∃ j', j < j' ∧ t.taskId = world.newTaskId (n, j'))
  each : ∀ (j : Nat) (task : GapTask), tasks[j]? = some task →
    (∃ t ∈ rows, t.taskId = world.newTaskId (n, j) ∧ t.workOrderId = workOrderId ∧
      t.title = task.title) ∨
      (∃ item ∈ unfiled, item.origin = (n, j)) ∨
        skips = true ∧ ∃ t ∈ held ++ rows, t.workOrderId = workOrderId ∧
          normalised py t.title = normalised py task.title ∧
            (t ∈ held ∨ ∃ j', j' < j ∧ t.taskId = world.newTaskId (n, j'))
  spawned : ∀ item ∈ unfiled, item.spawnedWorkOrderId =
    if skips then none else some (world.newWorkOrderId n)

theorem GapOutcome.nil : GapOutcome py world n workOrderId skips held [] [] [] where
  filed := by simp
  refused := by simp
  each := by simp
  spawned := by simp

end Outcome

theorem withOrigin_concat (n : Nat) (tasks : List GapTask) (task : GapTask) :
    withOrigin n (tasks ++ [task]) = withOrigin n tasks ++ [(task, n, tasks.length)] := by
  simp [withOrigin, List.zipIdx_append]

theorem getElem?_concat {α : Type} {xs : List α} {x y : α} {j : Nat}
    (h : (xs ++ [x])[j]? = some y) :
    xs[j]? = some y ∨ j = xs.length ∧ y = x := by
  rcases Nat.lt_or_ge j xs.length with within | beyond
  · exact Or.inl (by rwa [List.getElem?_append_left within] at h)
  · rw [List.getElem?_append_right beyond] at h
    rw [List.getElem?_singleton] at h
    split at h
    next first => exact Or.inr ⟨by omega, (Option.some.inj h).symm⟩
    next => cases h

theorem lt_of_getElem?_eq_some {α : Type} {xs : List α} {x : α} {j : Nat} (h : xs[j]? = some x) :
    j < xs.length := (List.getElem?_eq_some_iff.mp h).1

section Extend

variable {py : Stdlib} {world : GapWorld} {n : Nat} {workOrderId : String} {skips : Bool}
  {held rows : List GapTaskRow} {tasks : List GapTask} {unfiled : List Unfiled} {task : GapTask}

theorem GapOutcome.skip (h : GapOutcome py world n workOrderId skips held tasks rows unfiled)
    (skipping : skips = true)
    (there : ∃ t ∈ held ++ rows, t.workOrderId = workOrderId ∧
      normalised py t.title = normalised py task.title) :
    GapOutcome py world n workOrderId skips held (tasks ++ [task]) rows unfiled where
  filed t member := by
    obtain ⟨j, task', found, rest⟩ := h.filed t member
    exact ⟨j, task', List.getElem?_append_left (lt_of_getElem?_eq_some found) ▸ found, rest⟩
  refused item member := by
    obtain ⟨j, task', found, rest⟩ := h.refused item member
    exact ⟨j, task', List.getElem?_append_left (lt_of_getElem?_eq_some found) ▸ found, rest⟩
  each j task' found := by
    rcases getElem?_concat found with earlier | ⟨rfl, rfl⟩
    · exact h.each j task' earlier
    · obtain ⟨t, member, work, same⟩ := there
      refine Or.inr (Or.inr ⟨skipping, t, member, work, same, ?_⟩)
      rcases List.mem_append.mp member with old | new
      · exact Or.inl old
      · obtain ⟨j, task'', earlier, drawn, -⟩ := h.filed t new
        exact Or.inr ⟨j, lt_of_getElem?_eq_some earlier, drawn⟩
  spawned := h.spawned

theorem GapOutcome.refuse (h : GapOutcome py world n workOrderId skips held tasks rows unfiled)
    {item : Unfiled} (origin : item.origin = (n, tasks.length))
    (own : item.spawnedWorkOrderId = if skips then none else some (world.newWorkOrderId n))
    (absent : skips = true → ∀ t ∈ held ++ rows, t.workOrderId = workOrderId →
      normalised py t.title ≠ normalised py task.title) :
    GapOutcome py world n workOrderId skips held (tasks ++ [task]) rows (unfiled ++ [item]) where
  filed t member := by
    obtain ⟨j, task', found, drawn, clear⟩ := h.filed t member
    have before := lt_of_getElem?_eq_some found
    refine ⟨j, task', List.getElem?_append_left before ▸ found, drawn,
      List.forall_mem_append.mpr ⟨clear, ?_⟩⟩
    intro item' new same
    obtain rfl := List.mem_singleton.mp new
    rw [origin, Prod.mk.injEq] at same
    omega
  refused := by
    refine List.forall_mem_append.mpr ⟨fun item' member => ?_, fun item' new => ?_⟩
    · obtain ⟨j, task', found, rest⟩ := h.refused item' member
      exact ⟨j, task', List.getElem?_append_left (lt_of_getElem?_eq_some found) ▸ found, rest⟩
    · obtain rfl := List.mem_singleton.mp new
      exact ⟨tasks.length, task, by simp, origin, fun skipping t member work same =>
        absurd same (absent skipping t member work)⟩
  each j task' found := by
    rcases getElem?_concat found with earlier | ⟨rfl, rfl⟩
    · refine (h.each j task' earlier).imp_right (Or.imp_left ?_)
      rintro ⟨item', member, same⟩
      exact ⟨item', List.mem_append_left _ member, same⟩
    · exact Or.inr (Or.inl ⟨item, by simp, origin⟩)
  spawned := by
    refine List.forall_mem_append.mpr ⟨h.spawned, fun item' new => ?_⟩
    obtain rfl := List.mem_singleton.mp new
    exact own

theorem GapOutcome.file (h : GapOutcome py world n workOrderId skips held tasks rows unfiled)
    {row : GapTaskRow} (drawn : row.taskId = world.newTaskId (n, tasks.length))
    (work : row.workOrderId = workOrderId) (title : row.title = task.title) :
    GapOutcome py world n workOrderId skips held (tasks ++ [task]) (rows ++ [row]) unfiled where
  filed := by
    refine List.forall_mem_append.mpr ⟨fun t member => ?_, fun t new => ?_⟩
    · obtain ⟨j, task', found, rest⟩ := h.filed t member
      exact ⟨j, task', List.getElem?_append_left (lt_of_getElem?_eq_some found) ▸ found, rest⟩
    · obtain rfl := List.mem_singleton.mp new
      refine ⟨tasks.length, task, by simp, drawn, fun item member same => ?_⟩
      obtain ⟨j, task', found, origin, -⟩ := h.refused item member
      have before := lt_of_getElem?_eq_some found
      rw [origin, Prod.mk.injEq] at same
      omega
  refused item member := by
    obtain ⟨j, task', found, origin, later⟩ := h.refused item member
    have before := lt_of_getElem?_eq_some found
    refine ⟨j, task', List.getElem?_append_left before ▸ found, origin, fun skipping => ?_⟩
    rw [← List.append_assoc]
    refine List.forall_mem_append.mpr ⟨later skipping, fun t new _ _ => ?_⟩
    obtain rfl := List.mem_singleton.mp new
    exact ⟨tasks.length, before, drawn⟩
  each j task' found := by
    rcases getElem?_concat found with earlier | ⟨rfl, rfl⟩
    · rcases h.each j task' earlier with ⟨t, member, rest⟩ | refused | ⟨skipping, t, member, rest⟩
      · exact Or.inl ⟨t, List.mem_append_left _ member, rest⟩
      · exact Or.inr (Or.inl refused)
      · refine Or.inr (Or.inr ⟨skipping, t, ?_, rest⟩)
        rw [← List.append_assoc]
        exact List.mem_append_left _ member
    · exact Or.inl ⟨row, by simp, drawn, work, title⟩
  spawned := h.spawned

end Extend

section Attach

variable (py : Stdlib) (world : GapWorld) (n : Nat) (a : Authority) (target : AttachTarget)

/-- The state of the loop after some tasks: what it filed and refused, and the titles it knows. -/
structure AttachTrail (tasks : List GapTask) (s : AttachState) (rows : List GapTaskRow) : Prop where
  authority : s.authority = { a with tasks := a.tasks ++ rows }
  titles : ∀ title, title ∈ s.titles ↔
    ∃ t ∈ a.tasks ++ rows, t.workOrderId = target.workOrderId ∧ normalised py t.title = title
  outcome : GapOutcome py world n target.workOrderId true a.tasks tasks rows s.attached.unfiled

theorem attachTask_trail {tasks : List GapTask} {s : AttachState} {rows : List GapTaskRow}
    (trail : AttachTrail py world n a target tasks s rows) (task : GapTask) :
    ∃ rows', AttachTrail py world n a target (tasks ++ [task])
      (attachTask py world target s (task, n, tasks.length)) rows' := by
  unfold attachTask
  dsimp only
  split
  next known => exact ⟨rows, trail.authority, trail.titles,
    trail.outcome.skip rfl ((trail.titles _).mp known)⟩
  next unknown =>
    split
    next =>
      refine ⟨rows, trail.authority, trail.titles, ?_⟩
      refine trail.outcome.refuse rfl rfl fun _ t member work same => ?_
      exact unknown ((trail.titles _).mpr ⟨t, member, work, same⟩)
    next =>
      refine ⟨rows ++ [attachedRow world target (n, tasks.length) task], ?_, fun title => ?_, ?_⟩
      · rw [trail.authority, ← List.append_assoc]
      · rw [← List.append_assoc, List.mem_append, trail.titles, List.mem_singleton]
        constructor
        · rintro (⟨t, member, rest⟩ | rfl)
          · exact ⟨t, List.mem_append_left _ member, rest⟩
          · exact ⟨_, List.mem_append_right _ List.mem_cons_self, rfl, rfl⟩
        · rintro ⟨t, member, work, same⟩
          rcases List.mem_append.mp member with old | new
          · exact Or.inl ⟨t, old, work, same⟩
          · obtain rfl := List.mem_singleton.mp new
            exact Or.inr same.symm
      · exact trail.outcome.file rfl rfl rfl

def attachStart (a : Authority) (workOrderId : String) : AttachState where
  authority := a
  titles := existingTitles py a workOrderId
  criteria := existingCriteria a workOrderId
  attached := {}

def attachAfter (tasks : List GapTask) : AttachState :=
  (withOrigin n tasks).foldl (attachTask py world target) (attachStart py a target.workOrderId)

theorem attachAfter_concat (tasks : List GapTask) (task : GapTask) :
    attachAfter py world n a target (tasks ++ [task]) =
      attachTask py world target (attachAfter py world n a target tasks)
        (task, n, tasks.length) := by
  rw [attachAfter, withOrigin_concat, List.foldl_append]
  rfl

theorem attachAfter_trail (tasks : List GapTask) :
    ∃ rows, AttachTrail py world n a target tasks (attachAfter py world n a target tasks) rows := by
  induction tasks using List.reverseRecOn with
  | nil =>
    refine ⟨[], by simp [attachAfter, withOrigin, attachStart],
      fun title => ?_, GapOutcome.nil _ _ _ _ _ _⟩
    simp [attachAfter, withOrigin, attachStart, existingTitles, and_assoc]
  | append_singleton tasks task ih =>
    obtain ⟨rows, trail⟩ := ih
    rw [attachAfter_concat]
    exact attachTask_trail py world n a target trail task

def attachTarget (a : Authority) (workOrderId projectId : String) (gapKey : String := "") :
    AttachTarget where
  workOrderId := workOrderId
  projectId := projectId
  gapKey := gapKey
  description := workOrderDescription a workOrderId

theorem attachGapTasks_eq (workOrderId projectId gapKey : String) (tasks : List GapTask) :
    attachGapTasks py world n a workOrderId projectId tasks gapKey =
      ((attachAfter py world n a (attachTarget a workOrderId projectId gapKey) tasks).attached,
        (attachAfter py world n a (attachTarget a workOrderId projectId gapKey) tasks).authority) :=
  rfl

theorem attachGapTasks_spec (workOrderId projectId gapKey : String) (tasks : List GapTask) :
    ∃ rows, (attachGapTasks py world n a workOrderId projectId tasks gapKey).2 =
        { a with tasks := a.tasks ++ rows } ∧
      GapOutcome py world n workOrderId true a.tasks tasks rows
        (attachGapTasks py world n a workOrderId projectId tasks gapKey).1.unfiled := by
  obtain ⟨rows, trail⟩ :=
    attachAfter_trail py world n a (attachTarget a workOrderId projectId gapKey) tasks
  rw [attachGapTasks_eq]
  exact ⟨rows, trail.authority, trail.outcome⟩

theorem spawnTasks_spec (call : InsertCall) (gap : Gap) (description : String)
    (held : List GapTaskRow) :
    GapOutcome py world n (world.newWorkOrderId n) false held gap.tasks
      (spawnTasks world call n gap description).1 (spawnTasks world call n gap description).2 := by
  unfold spawnTasks
  induction gap.tasks using List.reverseRecOn with
  | nil => exact GapOutcome.nil _ _ _ _ _ _
  | append_singleton tasks task ih =>
    rw [withOrigin_concat, List.foldl_append]
    simp only [List.foldl_cons, List.foldl_nil, spawnTask]
    split
    · exact ih.file rfl rfl rfl
    · exact ih.refuse rfl rfl nofun

end Attach

section Refuses

variable (py : Stdlib) (world : GapWorld) (n : Nat)

def AttachRefuses (a : Authority) (target : AttachTarget) (tasks : List GapTask) : Prop :=
  ∃ (j : Nat) (task : GapTask), tasks[j]? = some task ∧
    let s := attachAfter py world n a target (tasks.take j)
    normalised py task.title ∉ s.titles ∧
      !(world.admitTask (n, j) (attachRequest s target task)).admitted

def SpawnRefuses (description : String) (tasks : List GapTask) : Prop :=
  ∃ (j : Nat) (task : GapTask), tasks[j]? = some task ∧
    !(world.admitTask (n, j) (spawnRequest description task)).admitted

theorem exists_getElem?_concat {α : Type} {P : Nat → List α → α → Prop} {xs : List α} {x : α} :
    (∃ (j : Nat) (y : α), (xs ++ [x])[j]? = some y ∧ P j ((xs ++ [x]).take j) y) ↔
      (∃ (j : Nat) (y : α), xs[j]? = some y ∧ P j (xs.take j) y) ∨ P xs.length xs x := by
  constructor
  · rintro ⟨j, y, found, holds⟩
    rcases getElem?_concat found with earlier | ⟨rfl, rfl⟩
    · rw [List.take_append_of_le_length (lt_of_getElem?_eq_some earlier).le] at holds
      exact Or.inl ⟨j, y, earlier, holds⟩
    · exact Or.inr (by simpa using holds)
  · rintro (⟨j, y, found, holds⟩ | holds)
    · have before := lt_of_getElem?_eq_some found
      refine ⟨j, y, List.getElem?_append_left before ▸ found, ?_⟩
      rwa [List.take_append_of_le_length before.le]
    · exact ⟨xs.length, x, by simp, by simpa using holds⟩

theorem attachTask_unfiled (target : AttachTarget) (s : AttachState) (task : GapTask)
    (origin : Nat × Nat) :
    (attachTask py world target s (task, origin)).attached.unfiled ≠ [] ↔
      s.attached.unfiled ≠ [] ∨ normalised py task.title ∉ s.titles ∧
        !(world.admitTask origin (attachRequest s target task)).admitted := by
  unfold attachTask
  dsimp only
  split
  next known => simp [known]
  next unknown =>
    split
    next refused => simp [unknown, refused]
    next admitted => simp [admitted]

theorem attachRefuses_iff (a : Authority) (target : AttachTarget) (tasks : List GapTask) :
    AttachRefuses py world n a target tasks ↔
      (attachAfter py world n a target tasks).attached.unfiled ≠ [] := by
  induction tasks using List.reverseRecOn with
  | nil => simp [AttachRefuses, attachAfter, withOrigin, attachStart]
  | append_singleton tasks task ih =>
    rw [attachAfter_concat, attachTask_unfiled, ← ih]
    exact exists_getElem?_concat (P := fun j before task =>
      let s := attachAfter py world n a target before
      normalised py task.title ∉ s.titles ∧
        !(world.admitTask (n, j) (attachRequest s target task)).admitted)

theorem spawnRefuses_iff (call : InsertCall) (gap : Gap) (description : String) :
    SpawnRefuses world n description gap.tasks ↔
      (spawnTasks world call n gap description).2 ≠ [] := by
  unfold spawnTasks
  induction gap.tasks using List.reverseRecOn with
  | nil => simp [SpawnRefuses, withOrigin]
  | append_singleton tasks task ih =>
    rw [withOrigin_concat, List.foldl_append]
    simp only [List.foldl_cons, List.foldl_nil, spawnTask]
    refine (exists_getElem?_concat (P := fun j _ task =>
      !(world.admitTask (n, j) (spawnRequest description task)).admitted)).trans ?_
    rw [SpawnRefuses] at ih
    rw [ih]
    split
    next admitted => simp [admitted]
    next refused => simp [refused]

end Refuses

end DreamStudio.WorkOrders
