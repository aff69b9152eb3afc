import DreamStudio.WorkOrders.CarryOver

namespace DreamStudio.WorkOrders

open Library Projections

/-- One carry-over or one completion after another. The ids of a call are fresh. -/
inductive BoardOperation
  | carryOver (call : CarryCall) (inner : Inner)
  | complete (workOrderId taskId : String)

def boards : Machine TaskBoard BoardOperation where
  step b
    | .carryOver call inner => if inner.Fresh b call then some (carryOver b call inner).2 else none
    | .complete workOrderId taskId => some (b.complete workOrderId taskId)

/-- No work is stranded, doubled or emptied out. -/
structure TaskBoard.Whole (b : TaskBoard) : Prop where
  recorded : ∀ m ∈ b.moves, m.fromTask ∈ b.carriedTaskIds m.workOrderId ∨
    ∃ t ∈ b.tasks, (t.taskId, t.workOrderId) = (m.fromTask, m.workOrderId) ∧ t.status ∉ uncarried
  once : (b.moves.map (·.fromTask)).Nodup
  remains : ∀ t ∈ b.tasks, ∃ t' ∈ b.tasks, t'.workOrderId = t.workOrderId ∧
    ∀ m ∈ b.moves, m.fromTask ≠ t'.taskId

/-- A call that ends before a task was moved. -/
def CarryCall.Idle (b : TaskBoard) (call : CarryCall) (inner : Inner) : Prop :=
  (∃ error, checkCarryOver b call = .error error) ∨ inner.newWorkOrder.id? = none ∨
    inner.newTasks.head?.bind (·.id?) = none

/-- A call that moves nothing, or that names each task once, on a work order nothing was moved from
before, with every task re-created and the record stored on it. -/
def BoardOperation.Careful (b : TaskBoard) : BoardOperation → Prop
  | .carryOver call inner =>
    call.Idle b inner ∨
      (call.taskIds.Nodup ∧ (∀ m ∈ b.moves, m.workOrderId ≠ call.workOrderId) ∧
        (∀ c ∈ inner.newTasks, c.id?.isSome) ∧ inner.storedFrom = .ok true)
  | .complete _ _ => True

structure TaskBoard.Regular (b : TaskBoard) : Prop where
  unique : (b.places.map (·.1)).Nodup
  named : ∀ p ∈ b.places, p.1 ≠ ""
  ended : ∀ m ∈ b.moves, b.Ended (m.fromTask, m.workOrderId)
  moved : ∀ workOrderId, ∀ id ∈ b.carriedTaskIds workOrderId, id ∈ b.moves.map (·.fromTask)

section Loop

variable {openTasks : List BoardTask} {newWoId : String}

def taken (r : BoardTask × String) : String × CreateOutcome := (r.1.taskId, .made r.2)

def toMoved (r : BoardTask × String) : Moved := ⟨r.1.taskId, r.2, r.1.title⟩

theorem moveTasks_spec (newWoId : String) {pairs : List (String × CreateOutcome)}
    (found : ∀ p ∈ pairs, p.1 ∈ openTasks.map (·.taskId)) (b : TaskBoard) (moved : List Moved) :
    ∃ rows stop,
      moveTasks openTasks newWoId pairs b moved =
        (stop, b.moveAll newWoId rows, moved ++ rows.map toMoved) ∧
      (∀ r ∈ rows, r.1 ∈ openTasks) ∧ rows.map taken <+: pairs ∧
      (stop = none ↔ rows.map taken = pairs) ∧
      ((∀ p ∈ pairs, p.2.id?.isSome) ↔ rows.map taken = pairs) ∧
      (rows = [] → pairs.head?.bind (·.2.id?) = none) := by
  induction pairs generalizing b moved with
  | nil => exact ⟨[], none, by simp [moveTasks, TaskBoard.moveAll], by simp, by simp, by simp, by
    simp, by simp⟩
  | cons p pairs ih =>
    obtain ⟨taskId, creation⟩ := p
    obtain ⟨here, later⟩ := List.forall_mem_cons.mp found
    obtain ⟨row, held⟩ : ∃ row, openTasks.find? (·.taskId = taskId) = some row := by
      obtain ⟨t, member, same⟩ := List.mem_map.mp here
      exact Option.isSome_iff_exists.mp (List.find?_isSome.mpr ⟨t, member, by simpa using same⟩)
    have same : row.taskId = taskId := by simpa using List.find?_some held
    cases creation with
    | raised error =>
      exact ⟨[], _, by rw [moveTasks, held]; simp [TaskBoard.moveAll]; rfl, by simp, by
        simp, by simp,
        by simp [CreateOutcome.id?], by simp [CreateOutcome.id?]⟩
    | refused made =>
      exact ⟨[], _, by rw [moveTasks, held]; simp [TaskBoard.moveAll]; rfl, by simp, by
        simp, by simp,
        by simp [CreateOutcome.id?], by simp [CreateOutcome.id?]⟩
    | made newId =>
      obtain ⟨rows, stop, result, among, before, stops, all, -⟩ :=
        ih later (b.move row newWoId newId) (moved ++ [⟨taskId, newId, row.title⟩])
      have first : taken (row, newId) = (taskId, .made newId) := by rw [taken, same]
      refine ⟨(row, newId) :: rows, stop, ?_, ?_, ?_, ?_, ?_, by simp⟩
      · rw [moveTasks, held]
        simp only [result, TaskBoard.moveAll, List.foldl_cons, List.map_cons, toMoved, same,
          List.append_assoc, List.cons_append, List.nil_append]
      · exact List.forall_mem_cons.mpr ⟨List.mem_of_find?_eq_some held, among⟩
      · rw [List.map_cons, first]
        exact (List.prefix_cons_inj _).mpr before
      · rw [List.map_cons, first, List.cons_inj_right]
        exact stops
      · rw [List.map_cons, first, List.cons_inj_right, ← all, List.forall_mem_cons]
        simp [CreateOutcome.id?]

end Loop

section Call

variable {b : TaskBoard} {call : CarryCall} {inner : Inner}

theorem checkCarryOver_ok {scope : Scope} (h : checkCarryOver b call = .ok scope) :
    call.taskIds ≠ [] ∧ scope.openTasks = b.openTasks call.workOrderId ∧
      (∀ id ∈ call.taskIds, id ∈ scope.openTasks.map (·.taskId)) ∧
        call.taskIds.length < (b.tasks.filter (·.workOrderId = call.workOrderId)).length := by
  unfold checkCarryOver at h
  split at h
  · cases h
  · split at h
    · cases h
    next named =>
      split at h
      · cases h
      · dsimp only at h
        split at h
        · cases h
        next known =>
          split at h
          · cases h
          next remains =>
            cases h
            refine ⟨named, rfl, fun id member => ?_, Nat.lt_of_not_le remains⟩
            by_contra absent
            exact known (List.ne_nil_of_mem (List.mem_filter.mpr ⟨member, by simpa using absent⟩))

theorem recordSplit_spec (newWoId : String) (record : CarryRecord) :
    ∃ records, (recordSplit b call inner newWoId record).2 = { b with records := records } ∧
      (∀ w, Dict.get records w = Dict.get b.records w ∨ Dict.get records w = some record) ∧
        ∀ w, w ≠ newWoId → Dict.get records w =
          if inner.storedFrom = .ok true ∧ w = call.workOrderId then some record
          else Dict.get b.records w := by
  have after (written : Bool) : ∃ records,
      (if written then b.record call.workOrderId record else b) = { b with records := records } ∧
        ∀ w, Dict.get records w =
          if written = true ∧ w = call.workOrderId then some record else Dict.get b.records w := by
    cases written with
    | false => exact ⟨b.records, rfl, by simp⟩
    | true => exact ⟨_, rfl, fun w => by simp [Dict.get_set]⟩
  unfold recordSplit
  cases from_ : inner.storedFrom with
  | error exc => exact ⟨b.records, rfl, fun _ => Or.inl rfl, by simp⟩
  | ok storedFrom =>
    obtain ⟨records, same, gets⟩ := after storedFrom
    have either (w : String) : Dict.get records w = Dict.get b.records w ∨
        Dict.get records w = some record := by
      rw [gets]
      split
      · exact Or.inr rfl
      · exact Or.inl rfl
    simp only [same, Except.ok.injEq]
    cases inner.storedTo with
    | error exc => exact ⟨records, rfl, either, fun w _ => gets w⟩
    | ok storedTo =>
      cases storedTo with
      | false => exact ⟨records, rfl, either, fun w _ => gets w⟩
      | true =>
        refine ⟨_, rfl, fun w => ?_, fun w other => ?_⟩
        · rw [Dict.get_set]
          split
          · exact Or.inr rfl
          · exact either w
        · rw [Dict.get_set, if_neg other, gets]

structure Moving (b : TaskBoard) (call : CarryCall) (inner : Inner) (after : TaskBoard)
    (rows : List (BoardTask × String)) (newWoId : String) : Prop where
  allowed : ∃ scope, checkCarryOver b call = .ok scope
  created : inner.newWorkOrder.id? = some newWoId
  nonempty : rows ≠ []
  among : ∀ r ∈ rows, r.1 ∈ b.openTasks call.workOrderId
  before : rows.map taken <+: call.taskIds.zip inner.newTasks
  fewer : call.taskIds.length < (b.tasks.filter (·.workOrderId = call.workOrderId)).length
  all : (∀ p ∈ call.taskIds.zip inner.newTasks, p.2.id?.isSome) ↔
    rows.map taken = call.taskIds.zip inner.newTasks
  tasks : after.tasks = (b.moveAll newWoId rows).tasks
  moves : after.moves = (b.moveAll newWoId rows).moves
  either : ∀ w, Dict.get after.records w = Dict.get b.records w ∨
    ∃ record, Dict.get after.records w = some record ∧ record.moved = rows.map toMoved
  split : rows.map taken = call.taskIds.zip inner.newTasks → inner.storedFrom = .ok true →
    call.workOrderId ≠ newWoId →
      ∃ record, Dict.get after.records call.workOrderId = some record ∧
        record.moved = rows.map toMoved
  unsplit : ∀ w, w ≠ newWoId → (w = call.workOrderId →
    rows.map taken = call.taskIds.zip inner.newTasks → inner.storedFrom ≠ .ok true) →
      Dict.get after.records w = Dict.get b.records w

theorem carryOver_cases (fresh : inner.Fresh b call) :
    (call.Idle b inner ∧ (carryOver b call inner).2.tasks = b.tasks ∧
      (carryOver b call inner).2.moves = b.moves ∧ (carryOver b call inner).2.records = b.records) ∨
    ∃ rows newWoId, Moving b call inner (carryOver b call inner).2 rows newWoId := by
  unfold carryOver
  cases checked : checkCarryOver b call with
  | error error => exact Or.inl ⟨Or.inl ⟨error, checked⟩, rfl, rfl, rfl⟩
  | ok scope =>
    obtain ⟨named, isOpen, known, fewer⟩ := checkCarryOver_ok checked
    cases created : inner.newWorkOrder with
    | refused reply => exact Or.inl ⟨Or.inr (Or.inl (by rw [created]; rfl)), rfl, rfl, rfl⟩
    | raised error => exact Or.inl ⟨Or.inr (Or.inl (by rw [created]; rfl)), rfl, rfl, rfl⟩
    | made newWoId =>
      have found : ∀ p ∈ call.taskIds.zip inner.newTasks, p.1 ∈ scope.openTasks.map (·.taskId) :=
        fun p member => known p.1 (List.of_mem_zip member).1
      obtain ⟨rows, stop, result, among, before, stops, all, first⟩ :=
        moveTasks_spec newWoId found
          { b with works := b.works ++
              [{ scope.work with workOrderId := newWoId, title := call.title }] } []
      dsimp only
      rw [result, moveAll_works]
      by_cases none : rows = []
      · have idle : call.Idle b inner := by
          refine Or.inr (Or.inr ?_)
          have first := first none
          have lengths := fresh.1
          cases ids : call.taskIds with
          | nil => exact absurd ids named
          | cons id rest =>
            cases tasks : inner.newTasks with
            | nil => rfl
            | cons c cs => simpa [ids, tasks] using first
        subst none
        cases stop with
        | some reply => exact Or.inl ⟨idle, rfl, rfl, rfl⟩
        | none =>
          have empty : call.taskIds.zip inner.newTasks = [] := (stops.mp rfl).symm
          have lengths := fresh.1
          rw [List.zip_eq_nil_iff] at empty
          rcases empty with empty | empty
          · exact absurd empty named
          · rw [empty] at lengths
            exact absurd (List.length_eq_zero_iff.mp lengths.symm) named
      · refine Or.inr ⟨rows, newWoId, ?_⟩
        have among : ∀ r ∈ rows, r.1 ∈ b.openTasks call.workOrderId := isOpen ▸ among
        cases stop with
        | some reply =>
          have partly : rows.map taken ≠ call.taskIds.zip inner.newTasks := fun whole => by
            cases stops.mpr whole
          exact {
            allowed := ⟨scope, checked⟩, created := by rw [created]; rfl
            nonempty := none, among := among, before := before, fewer := fewer, all := all
            tasks := rfl, moves := rfl
            either := fun w => Or.inl (by rw [records_moveAll])
            split := fun whole => absurd whole partly
            unsplit := fun w _ _ => by rw [records_moveAll] }
        | none =>
          have whole := stops.mp rfl
          obtain ⟨records, recorded, either, gets⟩ := @recordSplit_spec
            { b.moveAll newWoId rows with
              works := b.works ++
                [{ scope.work with workOrderId := newWoId, title := call.title }] }
            call inner newWoId
            { reason := pyStrip call.reason, carriedTo := newWoId, carriedFrom := call.workOrderId
              moved := [] ++ rows.map toMoved, recordedAt := inner.now }
          dsimp only
          rw [recorded]
          exact {
            allowed := ⟨scope, checked⟩, created := by rw [created]; rfl
            nonempty := none, among := among, before := before, fewer := fewer, all := all
            tasks := rfl, moves := rfl
            either := fun w => by
              rw [← @records_moveAll b newWoId rows]
              exact (either w).imp_right fun same => ⟨_, same, rfl⟩
            split := fun _ stored apart => ⟨_, (gets _ apart).trans (if_pos ⟨stored, rfl⟩), rfl⟩
            unsplit := fun w apart unstored => by
              rw [← @records_moveAll b newWoId rows]
              exact (gets w apart).trans (if_neg fun stored => unstored stored.2 whole stored.1) }

end Call

section Kept

variable {b after : TaskBoard} {call : CarryCall} {inner : Inner} {rows : List (BoardTask × String)}
  {newWoId : String}

theorem places_ids (b : TaskBoard) : b.places.map (·.1) = b.tasks.map (·.taskId) := by
  simp [TaskBoard.places, Function.comp_def]

theorem TaskBoard.Regular.not_open (regular : b.Regular) {m : Move} (moved : m ∈ b.moves)
    {t : BoardTask} (member : t ∈ b.tasks) (same : t.taskId = m.fromTask) :
    t.status ∈ uncarried := by
  obtain ⟨t', member', here, status⟩ := regular.ended m moved
  have unique := regular.unique
  rw [places_ids] at unique
  have ids : t.taskId = t'.taskId := same.trans (congrArg Prod.fst here).symm
  cases List.inj_on_of_nodup_map unique member member' ids
  rcases List.mem_pair.mp status with deleted | complete
  · rw [deleted]; decide
  · rw [complete]; decide

theorem TaskBoard.Regular.eq_of_places (regular : b.Regular) {p q : String × String}
    (hp : p ∈ b.places) (hq : q ∈ b.places) (same : p.1 = q.1) : p.2 = q.2 :=
  congrArg Prod.snd (List.inj_on_of_nodup_map regular.unique hp hq same)

theorem remains_iff_places :
    (∀ t ∈ b.tasks, ∃ t' ∈ b.tasks, t'.workOrderId = t.workOrderId ∧
      ∀ m ∈ b.moves, m.fromTask ≠ t'.taskId) ↔
    ∀ p ∈ b.places, ∃ q ∈ b.places, q.2 = p.2 ∧ ∀ m ∈ b.moves, m.fromTask ≠ q.1 := by
  simp [TaskBoard.places]

theorem mem_openTasks {workOrderId : String} {t : BoardTask} :
    t ∈ b.openTasks workOrderId ↔
      t ∈ b.tasks ∧ t.workOrderId = workOrderId ∧ t.status ∉ uncarried := by
  simp [TaskBoard.openTasks]

theorem TaskBoard.Regular.unmoved_of_open (regular : b.Regular) {workOrderId : String}
    {t : BoardTask} (isOpen : t ∈ b.openTasks workOrderId) :
    t.taskId ∉ b.moves.map (·.fromTask) := by
  intro moved
  obtain ⟨m, member, same⟩ := List.mem_map.mp moved
  obtain ⟨held, -, unsettled⟩ := mem_openTasks.mp isOpen
  exact unsettled (regular.not_open member held same.symm)

theorem carriedTaskIds_of_split {w : String} {record : CarryRecord}
    (stored : Dict.get after.records w = some record) (moved : record.moved = rows.map toMoved) :
    after.carriedTaskIds w = (rows.map (·.1.taskId)).filter (· ≠ "") := by
  unfold TaskBoard.carriedTaskIds
  simp only [stored, moved, List.map_map]
  rfl

theorem carriedTaskIds_congr {w : String} (same : Dict.get after.records w = Dict.get b.records w) :
    after.carriedTaskIds w = b.carriedTaskIds w := by
  unfold TaskBoard.carriedTaskIds
  rw [same]

theorem ids_of_whole (fresh : inner.Fresh b call)
    (whole : rows.map taken = call.taskIds.zip inner.newTasks) :
    rows.map (·.1.taskId) = call.taskIds := by
  have firsts := congrArg (List.map Prod.fst) whole
  rw [List.map_map, List.map_fst_zip (le_of_eq fresh.1.symm)] at firsts
  exact firsts

namespace Moving

variable (h : Moving b call inner after rows newWoId)
include h

theorem work {r : BoardTask × String} (member : r ∈ rows) : r.1.workOrderId = call.workOrderId :=
  (mem_openTasks.mp (h.among r member)).2.1

theorem placed {r : BoardTask × String} (member : r ∈ rows) :
    (r.1.taskId, r.1.workOrderId) ∈ b.places :=
  List.mem_map_of_mem (mem_openTasks.mp (h.among r member)).1

theorem after_places : after.places = b.places ++ rows.map fun r => (r.2, newWoId) := by
  rw [← places_moveAll, TaskBoard.places, h.tasks, TaskBoard.places]

theorem after_moves :
    after.moves = b.moves ++ rows.map fun r => ⟨call.workOrderId, r.1.taskId, r.2⟩ := by
  rw [h.moves, moves_moveAll]
  congr 1
  exact List.map_congr_left fun r member => by rw [h.work member]

theorem after_froms :
    after.moves.map (·.fromTask) = b.moves.map (·.fromTask) ++ rows.map (·.1.taskId) := by
  rw [h.after_moves, List.map_append, List.map_map]
  rfl

theorem newIds_sublist : List.Sublist (rows.map (·.2)) (inner.newTasks.filterMap (·.id?)) := by
  have made : (rows.map taken).filterMap (·.2.id?) = rows.map (·.2) := by
    rw [List.filterMap_map]
    exact List.filterMap_eq_map' ▸ rfl
  have second (as : List String) (cs : List CreateOutcome) :
      List.Sublist ((as.zip cs).filterMap (·.2.id?)) (cs.filterMap (·.id?)) := by
    induction as generalizing cs with
    | nil => simp
    | cons a as ih =>
      cases cs with
      | nil => simp
      | cons c cs =>
        rw [List.zip_cons_cons, List.filterMap_cons, List.filterMap_cons]
        cases c.id? with
        | none => exact ih cs
        | some id => exact (ih cs).cons_cons id
  rw [← made]
  exact (h.before.sublist.filterMap _).trans (second _ _)

theorem after_carried {w id : String} (member : id ∈ after.carriedTaskIds w) :
    id ∈ b.carriedTaskIds w ∨ id ∈ rows.map (·.1.taskId) := by
  rcases h.either w with same | ⟨record, stored, moved⟩
  · exact Or.inl (carriedTaskIds_congr same ▸ member)
  · rw [carriedTaskIds_of_split stored moved] at member
    exact Or.inr (List.mem_of_mem_filter member)

theorem newIds (fresh : inner.Fresh b call) :
    (rows.map (·.2)).Nodup ∧ ∀ r ∈ rows, r.2 ≠ "" ∧ ∀ t ∈ b.tasks, t.taskId ≠ r.2 := by
  obtain ⟨-, nodup, unused, -⟩ := fresh
  exact ⟨h.newIds_sublist.nodup nodup, fun r member =>
    unused r.2 (h.newIds_sublist.subset (List.mem_map_of_mem member))⟩

theorem newWork (fresh : inner.Fresh b call) : ∀ t ∈ b.tasks, t.workOrderId ≠ newWoId :=
  (fresh.2.2.2 newWoId (by simp [h.created])).2.1

theorem apart (fresh : inner.Fresh b call) : call.workOrderId ≠ newWoId := by
  obtain ⟨r, member⟩ := List.exists_mem_of_ne_nil rows h.nonempty
  have held := (mem_openTasks.mp (h.among r member))
  exact held.2.1 ▸ h.newWork fresh r.1 held.1

theorem regular (fresh : inner.Fresh b call) (regular : b.Regular) : after.Regular where
  unique := by
    obtain ⟨nodup, unused⟩ := h.newIds fresh
    rw [h.after_places, List.map_append, List.map_map, List.nodup_append]
    refine ⟨regular.unique, nodup, fun id held id' new same => ?_⟩
    obtain ⟨r, member, rfl⟩ := List.mem_map.mp new
    rw [places_ids] at held
    obtain ⟨t, task, rfl⟩ := List.mem_map.mp held
    exact (unused r member).2 t task same
  named := by
    rw [h.after_places]
    refine List.forall_mem_append.mpr ⟨regular.named, fun p new => ?_⟩
    obtain ⟨r, member, rfl⟩ := List.mem_map.mp new
    exact ((h.newIds fresh).2 r member).1
  ended := by
    have ended {place : String × String} (h' : (b.moveAll newWoId rows).Ended place) :
        after.Ended place := by
      unfold TaskBoard.Ended
      rw [h.tasks]
      exact h'
    rw [h.after_moves]
    refine List.forall_mem_append.mpr ⟨fun m old => ended ((regular.ended m old).moveAll rows), ?_⟩
    intro m new
    obtain ⟨r, member, rfl⟩ := List.mem_map.mp new
    have moved := @ended_of_moveAll b newWoId rows (fun r member => h.placed member) r member
    rw [h.work member] at moved
    exact ended moved
  moved := by
    intro w id member
    rw [h.after_froms]
    rcases h.after_carried member with old | new
    · exact List.mem_append_left _ (regular.moved w id old)
    · exact List.mem_append_right _ new

theorem not_idle : ¬call.Idle b inner := by
  obtain ⟨scope, allowed⟩ := h.allowed
  rintro (⟨error, refused⟩ | unmade | none)
  · rw [allowed] at refused
    cases refused
  · rw [h.created] at unmade
    cases unmade
  · obtain ⟨rest, whole⟩ := h.before
    cases rows with
    | nil => exact h.nonempty rfl
    | cons r rows =>
      cases ids : call.taskIds with
      | nil => simp [ids] at whole
      | cons id rest =>
        cases tasks : inner.newTasks with
        | nil => simp [tasks] at whole
        | cons c cs =>
          rw [ids, tasks, List.zip_cons_cons, List.map_cons, List.cons_append,
            List.cons.injEq] at whole
          obtain rfl : CreateOutcome.made r.2 = c := congrArg Prod.snd whole.1
          simp [tasks, CreateOutcome.id?] at none

theorem left_behind (regular : b.Regular) :
    ∃ t ∈ b.tasks, t.workOrderId = call.workOrderId ∧ t.taskId ∉ call.taskIds := by
  have unique := regular.unique
  rw [places_ids] at unique
  let here := b.tasks.filter fun t => t.workOrderId = call.workOrderId
  have ids : (here.map (·.taskId)).Nodup :=
    (List.filter_sublist.map fun t : BoardTask => t.taskId).nodup unique
  by_contra none
  push Not at none
  have all : here.map (·.taskId) ⊆ call.taskIds := by
    intro id held
    obtain ⟨t, member, rfl⟩ := List.mem_map.mp held
    obtain ⟨task, work⟩ := List.mem_filter.mp member
    exact none t task (by simpa using work)
  have most := (List.subperm_of_subset ids all).length_le
  rw [List.length_map] at most
  exact absurd h.fewer (Nat.not_lt_of_le most)

theorem not_open_after (fresh : inner.Fresh b call) (regular : b.Regular) {m : Move}
    (moved : m ∈ after.moves) :
    ¬∃ t ∈ after.tasks, (t.taskId, t.workOrderId) = (m.fromTask, m.workOrderId) ∧
      t.status ∉ uncarried := by
  rintro ⟨t, member, here, unsettled⟩
  exact unsettled ((h.regular fresh regular).not_open moved member (congrArg Prod.fst here))

theorem careful_of_whole (fresh : inner.Fresh b call) (regular : b.Regular) (whole : after.Whole) :
    call.taskIds.Nodup ∧ (∀ m ∈ b.moves, m.workOrderId ≠ call.workOrderId) ∧
      (∀ c ∈ inner.newTasks, c.id?.isSome) ∧ inner.storedFrom = .ok true := by
  have apart := h.apart fresh
  have recorded {m : Move} (moved : m ∈ after.moves) :
      m.fromTask ∈ after.carriedTaskIds m.workOrderId :=
    (whole.recorded m moved).resolve_right (h.not_open_after fresh regular moved)
  have written : rows.map taken = call.taskIds.zip inner.newTasks ∧
      inner.storedFrom = .ok true := by
    by_contra unwritten
    obtain ⟨r, member⟩ := List.exists_mem_of_ne_nil rows h.nonempty
    have moved : ⟨call.workOrderId, r.1.taskId, r.2⟩ ∈ after.moves := by
      rw [h.after_moves]
      exact List.mem_append_right _ (List.mem_map_of_mem member)
    have held := recorded moved
    rw [carriedTaskIds_congr (h.unsplit call.workOrderId apart fun _ all stored =>
      unwritten ⟨all, stored⟩)] at held
    exact regular.unmoved_of_open (h.among r member) (regular.moved _ _ held)
  obtain ⟨all, stored⟩ := written
  have ids := ids_of_whole fresh all
  refine ⟨?_, ?_, ?_, stored⟩
  · have once := whole.once
    rw [h.after_froms, ids] at once
    exact (List.nodup_append.mp once).2.1
  · intro m member same
    have held := recorded (h.after_moves ▸ List.mem_append_left _ member)
    obtain ⟨record, found, moved⟩ := h.split all stored apart
    rw [same, carriedTaskIds_of_split found moved] at held
    obtain ⟨r, row, task⟩ := List.mem_map.mp (List.mem_of_mem_filter held)
    exact regular.unmoved_of_open (h.among r row) (task ▸ List.mem_map_of_mem member)
  · intro c member
    have made := h.all.mpr all
    have second : c ∈ (call.taskIds.zip inner.newTasks).map Prod.snd := by
      rw [List.map_snd_zip (le_of_eq fresh.1)]
      exact member
    obtain ⟨p, pair, rfl⟩ := List.mem_map.mp second
    exact made p pair

theorem whole_of_careful (fresh : inner.Fresh b call) (regular : b.Regular) (whole : b.Whole)
    (nodup : call.taskIds.Nodup) (first : ∀ m ∈ b.moves, m.workOrderId ≠ call.workOrderId)
    (made : ∀ c ∈ inner.newTasks, c.id?.isSome) (stored : inner.storedFrom = .ok true) :
    after.Whole := by
  have all := h.all.mp fun p pair => made p.2 (List.of_mem_zip pair).2
  have ids := ids_of_whole fresh all
  have apart := h.apart fresh
  have old {m : Move} (member : m ∈ b.moves) : ∃ t ∈ b.tasks,
      (t.taskId, t.workOrderId) = (m.fromTask, m.workOrderId) := by
    obtain ⟨t, task, here, -⟩ := regular.ended m member
    exact ⟨t, task, here⟩
  constructor
  · rw [h.after_moves]
    refine List.forall_mem_append.mpr ⟨fun m member => Or.inl ?_, fun m new => Or.inl ?_⟩
    · obtain ⟨t, task, here⟩ := old member
      have elsewhere : m.workOrderId ≠ newWoId :=
        fun same => h.newWork fresh t task ((congrArg Prod.snd here).trans same)
      rw [carriedTaskIds_congr (h.unsplit _ elsewhere fun same => absurd same (first m member))]
      refine (whole.recorded m member).resolve_right ?_
      rintro ⟨t, task, here, unsettled⟩
      exact unsettled (regular.not_open member task (congrArg Prod.fst here))
    · obtain ⟨r, member, rfl⟩ := List.mem_map.mp new
      obtain ⟨record, found, moved⟩ := h.split all stored apart
      rw [carriedTaskIds_of_split found moved]
      refine List.mem_filter.mpr ⟨List.mem_map_of_mem member, ?_⟩
      simpa using regular.named _ (h.placed member)
  · rw [h.after_froms, List.nodup_append]
    refine ⟨whole.once, ids ▸ nodup, fun id held id' new same => ?_⟩
    obtain ⟨r, member, rfl⟩ := List.mem_map.mp new
    exact regular.unmoved_of_open (h.among r member) (same ▸ held)
  · rw [remains_iff_places, h.after_places, h.after_moves]
    have unmoved {q : String × String} (earlier : ∀ m ∈ b.moves, m.fromTask ≠ q.1)
        (now : ∀ r ∈ rows, r.1.taskId ≠ q.1) :
        ∀ m ∈ b.moves ++ rows.map fun r => ⟨call.workOrderId, r.1.taskId, r.2⟩,
          m.fromTask ≠ q.1 := by
      refine List.forall_mem_append.mpr ⟨earlier, fun m new => ?_⟩
      obtain ⟨r, member, rfl⟩ := List.mem_map.mp new
      exact now r member
    refine List.forall_mem_append.mpr ⟨fun p held => ?_, fun p new => ?_⟩
    · by_cases here : p.2 = call.workOrderId
      · obtain ⟨t, task, work, left⟩ := h.left_behind regular
        refine ⟨(t.taskId, t.workOrderId), List.mem_append_left _ (List.mem_map_of_mem task),
          work.trans here.symm, unmoved (fun m member same => ?_) fun r member same => ?_⟩
        · obtain ⟨t', task', place⟩ := old member
          have elsewhere := regular.eq_of_places (List.mem_map_of_mem task)
            (List.mem_map_of_mem task')
            (same.symm.trans (congrArg Prod.fst place).symm)
          exact first m member ((congrArg Prod.snd place).symm.trans (elsewhere.symm.trans work))
        · have held := List.mem_map_of_mem (f := fun r : BoardTask × String => r.1.taskId) member
          rw [ids, same] at held
          exact left held
      · obtain ⟨q, place, work, earlier⟩ := remains_iff_places.mp whole.remains p held
        refine ⟨q, List.mem_append_left _ place, work, unmoved earlier fun r member same => here ?_⟩
        have elsewhere := regular.eq_of_places (h.placed member) place same
        exact work.symm.trans (elsewhere.symm.trans (h.work member))
    · obtain ⟨r, member, rfl⟩ := List.mem_map.mp new
      have unused := ((h.newIds fresh).2 r member).2
      refine ⟨_, List.mem_append_right _ new, rfl,
        unmoved (fun m old' same => ?_) fun r' row same => ?_⟩
      · obtain ⟨t, task, place⟩ := old old'
        exact unused t task ((congrArg Prod.fst place).trans same)
      · exact unused r'.1 (mem_openTasks.mp (h.among r' row)).1 same

end Moving

section Congr

variable (tasks : after.tasks = b.tasks) (moves : after.moves = b.moves)
  (records : after.records = b.records)
include tasks moves records

theorem regular_congr : after.Regular ↔ b.Regular := by
  obtain ⟨works', tasks', records', moves'⟩ := after
  cases tasks
  cases moves
  cases records
  exact ⟨fun ⟨h, h', h'', h'''⟩ => ⟨h, h', h'', h'''⟩, fun ⟨h, h', h'', h'''⟩ => ⟨h, h', h'', h'''⟩⟩

theorem whole_congr : after.Whole ↔ b.Whole := by
  obtain ⟨works', tasks', records', moves'⟩ := after
  cases tasks
  cases moves
  cases records
  exact ⟨fun ⟨h, h', h''⟩ => ⟨h, h', h''⟩, fun ⟨h, h', h''⟩ => ⟨h, h', h''⟩⟩

end Congr

theorem regular_complete (regular : b.Regular) (workOrderId taskId : String) :
    (b.complete workOrderId taskId).Regular where
  unique := by rw [places_complete]; exact regular.unique
  named := by rw [places_complete]; exact regular.named
  ended m member := (regular.ended m member).complete workOrderId taskId
  moved := regular.moved

theorem whole_complete (regular : b.Regular) (whole : b.Whole) (workOrderId taskId : String) :
    (b.complete workOrderId taskId).Whole where
  recorded m member := by
    refine Or.inl ((whole.recorded m member).resolve_right ?_)
    rintro ⟨t, task, here, unsettled⟩
    exact unsettled (regular.not_open member task (congrArg Prod.fst here))
  once := whole.once
  remains := by
    rw [remains_iff_places, places_complete]
    exact remains_iff_places.mp whole.remains

theorem boards_step {l : BoardOperation} (regular : b.Regular)
    (step : boards.step b l = some after) :
    after.Regular ∧ (b.Whole → (after.Whole ↔ l.Careful b)) := by
  cases l with
  | complete workOrderId taskId =>
    obtain rfl : b.complete workOrderId taskId = after := Option.some.inj step
    exact ⟨regular_complete regular _ _, fun whole =>
      ⟨fun _ => trivial, fun _ => whole_complete regular whole _ _⟩⟩
  | carryOver call inner =>
    dsimp only [boards] at step
    split at step
    next fresh =>
      obtain rfl : (carryOver b call inner).2 = after := Option.some.inj step
      rcases carryOver_cases fresh with ⟨idle, tasks, moves, records⟩ | ⟨rows, newWoId, moving⟩
      · exact ⟨(regular_congr tasks moves records).mpr regular, fun whole =>
          ⟨fun _ => Or.inl idle, fun _ => (whole_congr tasks moves records).mpr whole⟩⟩
      · refine ⟨moving.regular fresh regular, fun whole => ⟨fun held => ?_, ?_⟩⟩
        · exact Or.inr (moving.careful_of_whole fresh regular held)
        · rintro (idle | ⟨nodup, first, made, stored⟩)
          · exact absurd idle moving.not_idle
          · exact moving.whole_of_careful fresh regular whole nodup first made stored
    next => cases step

end Kept

/-- A board on which nothing was carried over yet. -/
structure TaskBoard.Untouched (b : TaskBoard) : Prop where
  unique : (b.tasks.map (·.taskId)).Nodup
  named : ∀ t ∈ b.tasks, t.taskId ≠ ""
  records : b.records = []
  moves : b.moves = []

theorem TaskBoard.Untouched.regular {b : TaskBoard} (untouched : b.Untouched) : b.Regular where
  unique := by rw [places_ids]; exact untouched.unique
  named p place := by
    obtain ⟨t, task, rfl⟩ := List.mem_map.mp place
    exact untouched.named t task
  ended := by simp [untouched.moves]
  moved := by simp [TaskBoard.carriedTaskIds, untouched.records]

theorem TaskBoard.Untouched.whole {b : TaskBoard} (untouched : b.Untouched) : b.Whole where
  recorded := by simp [untouched.moves]
  once := by simp [untouched.moves]
  remains t task := ⟨t, task, rfl, by simp [untouched.moves]⟩

section Example

def parserTask (id : String) : BoardTask where
  taskId := id
  workOrderId := "wo"
  projectId := "p"
  title := "Ship the parser"
  description := none
  acceptanceCriteria := some "TEST-CHECK: tests/test_parser.py"
  status := .pending

def parserBoard : TaskBoard where
  works := [⟨"wo", "p", some "m", some "api_endpoint", "Parser"⟩]
  tasks := [parserTask "t1", parserTask "t2", parserTask "t3"]
  records := []
  moves := []

def splitOff (taskIds newTasks : List String) (newWorkOrder : String) : BoardOperation :=
  .carryOver
    { workOrderId := "wo", taskIds := taskIds, reason := "belongs to the lexer work",
      title := "Lexer" }
    { now := "2026-09-02", newWorkOrder := .made newWorkOrder, newTasks := newTasks.map .made
      storedFrom := .ok true, storedTo := .ok true }

theorem parserBoard_untouched : parserBoard.Untouched where
  unique := by decide
  named := by decide
  records := rfl
  moves := rfl

def TaskBoard.summary (b : TaskBoard) : List (String × String) × List String × List String :=
  (b.moves.map fun m => (m.workOrderId, m.fromTask), b.carriedTaskIds "wo",
    (b.openTasks "wo").map (·.taskId))

/-- The second split of one work order takes the place of the first one's record. -/
theorem second_split_strands :
    ¬∀ x ∈ boards.transitions parserBoard
      [splitOff ["t1"] ["t4"] "wo2", splitOff ["t2"] ["t5"] "wo3"],
      x.after.Whole := by
  intro all
  have ends : (boards.transitions parserBoard
      [splitOff ["t1"] ["t4"] "wo2", splitOff ["t2"] ["t5"] "wo3"]).getLast?.map (·.after.summary) =
        some ([("wo", "t1"), ("wo", "t2")], ["t2"], ["t3"]) := by decide +kernel
  obtain ⟨x, last, summary⟩ := Option.map_eq_some_iff.mp ends
  simp only [TaskBoard.summary, Prod.mk.injEq] at summary
  obtain ⟨moves, carried, isOpen⟩ := summary
  have first : ("wo", "t1") ∈ x.after.moves.map fun m => (m.workOrderId, m.fromTask) := by
    rw [moves]
    exact List.mem_cons_self
  obtain ⟨m, member, same⟩ := List.mem_map.mp first
  obtain ⟨work, task⟩ := Prod.mk.injEq .. ▸ same
  rcases (all x (List.mem_of_getLast? last)).recorded m
    member with recorded | ⟨t, held, here, unsettled⟩
  · rw [work, task, carried] at recorded
    exact absurd recorded (by decide)
  · have place := Prod.mk.injEq .. ▸ here
    have unmoved : t.taskId ∈ (x.after.openTasks "wo").map (·.taskId) :=
      List.mem_map_of_mem (mem_openTasks.mpr ⟨held, place.2.trans work, unsettled⟩)
    rw [isOpen, place.1, task] at unmoved
    exact absurd unmoved (by decide)

end Example

/-- Along any run of carry-overs and completions, no work is stranded, doubled or emptied out
exactly if every call is careful. -/
theorem whole_iff_careful {b : TaskBoard} (untouched : b.Untouched) (ls : List BoardOperation) :
    (∀ x ∈ boards.transitions b ls, x.after.Whole) ↔
      ∀ x ∈ boards.transitions b ls, x.label.Careful x.before :=
  boards.forall_after_iff_forall_guard (C := fun b l => l.Careful b)
    (fun _ _ _ regular step => (boards_step regular step).1)
    (fun _ _ _ regular whole step => (boards_step regular step).2 whole)
    untouched.regular untouched.whole ls

theorem first_split_whole :
    (boards.transitions parserBoard [splitOff ["t1"] ["t4"] "wo2"]).length = 1 ∧
      ∀ x ∈ boards.transitions parserBoard [splitOff ["t1"] ["t4"] "wo2"], x.after.Whole := by
  refine ⟨by decide, (whole_iff_careful parserBoard_untouched _).mpr fun x member => ?_⟩
  cases step : boards.step parserBoard (splitOff ["t1"] ["t4"] "wo2") with
  | none =>
    rw [boards.transitions_cons_of_stuck step] at member
    cases member
  | some after =>
    rw [boards.transitions_cons_of_step step] at member
    cases List.mem_singleton.mp member
    exact Or.inr ⟨by decide, nofun, by decide, rfl⟩

end DreamStudio.WorkOrders
