import DreamStudio.Projections.Carried

namespace DreamStudio.Projections

open Library TaskTable

variable {keys : TaskKeys} {e : Event} {now n : Nat} {t t' : TaskTable} {w : String} {row : TaskRow}

def TaskColumns.admits (c : TaskColumns) : Bool :=
  c.workOrderId.isSome && c.projectId.isSome && c.title.isSome && c.createdAt.isSome

def TaskColumns.fill (own c : TaskColumns) : TaskColumns where
  workOrderId := coalesce own.workOrderId c.workOrderId
  projectId := coalesce own.projectId c.projectId
  title := if own.title = some skeletonTitle then c.title else coalesce own.title c.title
  description := coalesce own.description c.description
  createdAt := coalesce own.createdAt c.createdAt

def taskProject (keys : TaskKeys) (e : Event) : Text :=
  keys.resolveProjectId e.projectId e.workOrderId

def isCreation (e : Event) : Bool := TaskEventType.ofText e.eventType = some .created

/-- The columns of the row an event inserts where there is none. -/
def brought (keys : TaskKeys) (now : Nat) (e : Event) : TaskColumns where
  workOrderId := e.workOrderId
  projectId := taskProject keys e
  title := if isCreation e then givenText "title" skeletonTitle e else some skeletonTitle
  description := if isCreation e then payloadText e "description" else none
  createdAt := if isCreation e then some e.eventTimestamp else some (toString now)

def taskReads (payload : Json) : Option TaskEventType → Bool
  | some .created =>
    binds (do return (← payloadGet payload "title").or (.str skeletonTitle)) &&
      ["description", "acceptance_criteria"].all fun key => binds (payloadGet payload key)
  | some .acRepointed =>
    (do
      let criteria ← payloadGet payload "acceptance_criteria"
      if criteria.truthy then bindParam criteria else .ok none).isOk
  | _ => true

def reads (e : Event) : Bool := taskReads (eventPayload e) (TaskEventType.ofText e.eventType)

/-- Whether an event puts in a row where there is none. -/
def seeds (keys : TaskKeys) (e : Event) : Bool :=
  reads e && (brought keys 0 e).admits && keys.references e.workOrderId (taskProject keys e)

def columnsStep (keys : TaskKeys) (now : Nat) (e : Event) : Option TaskColumns → Option TaskColumns
  | none => if seeds keys e then some (brought keys now e) else none
  | some own =>
    if reads e && isCreation e && (own.fill (brought keys now e)).admits then
      some (own.fill (brought keys now e))
    else some own

def TaskTable.columnsOf (w : String) (t : TaskTable) : Option TaskColumns :=
  (Table.lookup TaskRow.key w t).map (·.columns)

section Rows

theorem insert_held {r : TaskRow} (own : row.key = some w)
    (held : Table.lookup TaskRow.key w t = some r) : t.insert keys row = .ok t := by
  obtain ⟨member, same⟩ := Table.lookup_key held
  have conflict : t.any (fun r => Table.SameKey TaskRow.key r row) = true :=
    List.any_eq_true.mpr ⟨r, member, decide_eq_true ⟨same.trans own.symm, by simp [same]⟩⟩
  simp [TaskTable.insert, Table.insertOrIgnore, conflict]

theorem insert_absent (own : row.key = some w) (absent : Table.lookup TaskRow.key w t = none) :
    t.insert keys row =
      if row.admits then
        if keys.references row.workOrderId row.projectId then .ok (t ++ [row])
        else .error ⟨"FOREIGN KEY constraint failed", "sqlite3.IntegrityError"⟩
      else .ok t := by
  have free : t.any (fun r => Table.SameKey TaskRow.key r row) = false := by
    refine List.any_eq_false.mpr fun r member same => ?_
    have same := of_decide_eq_true same
    exact List.find?_eq_none.mp absent r member (decide_eq_true (same.1.trans own))
  unfold TaskTable.insert Table.insertOrIgnore
  rw [free]
  cases row.admits <;> cases keys.references row.workOrderId row.projectId <;> rfl

theorem fill_held {r : TaskRow} (unique : Table.Unique TaskRow.key t)
    (held : Table.lookup TaskRow.key w t = some r) :
    t.fill (some w) row =
      if (r.columns.fill row.columns).admits then .ok (t.set (some w) (backfill row))
      else .error ⟨"NOT NULL constraint failed: business_tasks.title",
        "sqlite3.IntegrityError"⟩ := by
  obtain ⟨member, same⟩ := Table.lookup_key held
  have only : (t.any fun q => (q.taskId = some w ∧ (some w : Text) ≠ none) ∧
      (backfill row q).admits = false) = !(r.columns.fill row.columns).admits := by
    rw [Bool.eq_iff_iff, List.any_eq_true]
    constructor
    · rintro ⟨q, hq, fails⟩
      obtain ⟨⟨mine, -⟩, fails⟩ := of_decide_eq_true fails
      have named : q.key ≠ none := by simp [TaskRow.key, mine]
      rw [← Table.eq_of_key_eq unique hq member (mine.trans same.symm) named]
      exact congrArg not fails
    · intro fails
      exact ⟨r, member, decide_eq_true ⟨⟨same, by simp⟩, (Bool.not_eq_true' _).mp fails⟩⟩
  unfold TaskTable.fill
  rw [only]
  cases (r.columns.fill row.columns).admits <;> rfl

theorem fill_absent (absent : Table.lookup TaskRow.key w t = none) :
    t.fill (some w) row = .ok t := by
  have other : ∀ q ∈ t, q.taskId ≠ some w := fun q hq same =>
    List.find?_eq_none.mp absent q hq (decide_eq_true same)
  have free : (t.any fun q => (q.taskId = some w ∧ (some w : Text) ≠ none) ∧
      (backfill row q).admits = false) = false :=
    List.any_eq_false.mpr fun q hq fails => other q hq (of_decide_eq_true fails).1.1
  unfold TaskTable.fill TaskTable.set
  rw [free, Table.update_eq_self fun q hq => decide_eq_false fun same => other q hq same.1]
  rfl

theorem set_columns {f : TaskRow → TaskRow} {g : TaskColumns → TaskColumns}
    (sets : ∀ r, (f r).key = r.key ∧ (f r).columns = g r.columns) :
    (t.set (some w) f).columnsOf w = (t.columnsOf w).map g := by
  unfold TaskTable.columnsOf TaskTable.set
  rw [Table.lookup_update fun r => (sets r).1, Option.map_map, Option.map_map]
  refine Option.map_congr fun r found => ?_
  have mine : r.taskId = some w := (Table.lookup_key found).2
  simp [mine, sets]

theorem fill_self (c : TaskColumns) : c.fill c = c := by
  cases c
  simp [TaskColumns.fill, coalesce]

def settle (t : TaskTable) : Except Failure TaskTable → TaskTable
  | .ok t' => t'
  | .error _ => t

/-- What a row that is inserted and filled in makes of the columns of its task. -/
def merged (keys : TaskKeys) (row : TaskRow) : Option TaskColumns → Option TaskColumns
  | none =>
    if row.admits && keys.references row.workOrderId row.projectId then some row.columns else none
  | some own =>
    if (own.fill row.columns).admits then some (own.fill row.columns) else some own

theorem merge_columns (unique : Table.Unique TaskRow.key t) (own : row.key = some w) :
    (settle t (t.insert keys row >>= fun t => t.fill (some w) row)).columnsOf w =
      merged keys row (t.columnsOf w) := by
  have fills : ∀ r, (backfill row r).key = r.key ∧
      (backfill row r).columns = r.columns.fill row.columns := fun r => ⟨rfl, rfl⟩
  cases held : Table.lookup TaskRow.key w t with
  | some r =>
    have columns : t.columnsOf w = some r.columns := congrArg (Option.map _) held
    rw [insert_held own held, ok_bind, fill_held unique held]
    cases admits : (r.columns.fill row.columns).admits with
    | true =>
      refine (set_columns (g := fun own => own.fill row.columns) fills).trans ?_
      rw [columns]
      exact (if_pos admits).symm
    | false =>
      rw [columns]
      exact columns.trans (if_neg (by simp [admits])).symm
  | none =>
    have columns : t.columnsOf w = none := congrArg (Option.map _) held
    rw [insert_absent own held, columns]
    unfold merged
    simp only
    cases admits : row.admits with
    | false =>
      simp only [Bool.false_eq_true, if_false, Bool.false_and]
      rw [ok_bind, fill_absent held]
      exact columns
    | true =>
      cases references : keys.references row.workOrderId row.projectId with
      | false => exact columns
      | true =>
        have found : Table.lookup TaskRow.key w (t ++ [row]) = some row := by
          unfold Table.lookup at held ⊢
          rw [List.find?_append, held]
          simp [own]
        have unique' : Table.Unique TaskRow.key (t ++ [row]) := by
          refine (Table.append_unique_iff unique row).mpr fun r member same => ?_
          exact List.find?_eq_none.mp held r member (decide_eq_true (same.1.trans own))
        have stays : (row.columns.fill row.columns).admits = true := by
          rw [fill_self]
          exact admits
        simp only [if_true, Bool.and_self]
        rw [ok_bind, fill_held unique' found, if_pos stays]
        refine (set_columns (g := fun own => own.fill row.columns) fills).trans ?_
        unfold TaskTable.columnsOf
        rw [found]
        exact congrArg some (fill_self _)

theorem insert_columns (own : row.key = some w) :
    (settle t (t.insert keys row)).columnsOf w =
      (t.columnsOf w).or
        (if row.admits && keys.references row.workOrderId row.projectId then some row.columns
          else none) := by
  cases held : Table.lookup TaskRow.key w t with
  | some r =>
    have columns : t.columnsOf w = some r.columns := congrArg (Option.map _) held
    rw [insert_held own held, columns]
    exact columns
  | none =>
    have columns : t.columnsOf w = none := congrArg (Option.map _) held
    rw [insert_absent own held, columns]
    cases row.admits with
    | false => exact columns
    | true =>
      cases keys.references row.workOrderId row.projectId with
      | false => exact columns
      | true =>
        unfold Table.lookup at held
        simp [settle, TaskTable.columnsOf, Table.lookup, List.find?_append, held, own]

end Rows

section Handler

theorem brought_admits (now now' : Nat) :
    (brought keys now e).admits = (brought keys now' e).admits := by
  unfold TaskColumns.admits brought
  cases isCreation e <;> rfl

theorem columnsStep_unread (unread : reads e = false) (own : Option TaskColumns) :
    columnsStep keys now e own = own := by
  cases own with
  | none => simp [columnsStep, seeds, unread]
  | some own => simp [columnsStep, unread]

theorem taskTyped_isOk {type : Option TaskEventType} {taskId : Text} {payload : Json}
    {eventId : String} (other : type ≠ some .created) :
    (t.handleTyped type taskId payload eventId now).isOk = taskReads payload type := by
  unfold TaskTable.handleTyped taskReads
  cases type with
  | none => rfl
  | some type =>
    cases type with
    | created => exact absurd rfl other
    | acRepointed =>
      unfold TaskTable.handleAcRepointed
      cases payload with
      | obj fields =>
        simp only [payloadGet, ok_bind]
        cases (Json.lookup fields "acceptance_criteria").truthy with
        | false => rfl
        | true => exact bind_pure_isOk _
      | _ => rfl
    | _ => rfl

theorem handleCreated_columns (created : TaskEventType.ofText e.eventType = some .created)
    (keys : TaskKeys) (now : Nat) (t : TaskTable) (taskId : Text) :
    (reads e = true ∧ ∃ row : TaskRow, row.key = taskId ∧ row.columns = brought keys now e ∧
      t.handleCreated keys taskId e.workOrderId (taskProject keys e) (eventPayload e) e.eventId
        e.eventTimestamp now = (t.insert keys row >>= fun t => t.fill taskId row).map (1, ·)) ∨
    (reads e = false ∧ ∃ failure, t.handleCreated keys taskId e.workOrderId (taskProject keys e)
      (eventPayload e) e.eventId e.eventTimestamp now = .error failure) := by
  have isCreated : isCreation e = true := decide_eq_true created
  unfold reads brought givenText payloadText TaskTable.handleCreated
  rw [created, isCreated]
  cases eventPayload e with
  | obj fields =>
    simp only [payloadGet, ok_bind, taskReads, pure, Except.pure, binds_ok,
      List.all_cons, List.all_nil]
    cases bindParam ((Json.lookup fields "title").or (.str skeletonTitle)) with
    | error failure => exact Or.inr ⟨rfl, failure, rfl⟩
    | ok title =>
      cases bindParam (Json.lookup fields "description") with
      | error failure => exact Or.inr ⟨rfl, failure, rfl⟩
      | ok description =>
        cases bindParam (Json.lookup fields "acceptance_criteria") with
        | error failure => exact Or.inr ⟨rfl, failure, rfl⟩
        | ok criteria =>
          let row : TaskRow := {
            taskId := taskId, workOrderId := e.workOrderId, projectId := taskProject keys e
            title := title, description := description, acceptanceCriteria := criteria
            createdAt := some e.eventTimestamp, updatedAt := now, sourceEventId := some e.eventId
            lastEventId := some e.eventId }
          refine Or.inl ⟨rfl, row, rfl, rfl, ?_⟩
          change (t.insert keys row >>= fun t => t.fill taskId row >>= fun t => .ok (1, t)) = _
          cases t.insert keys row with
          | error failure => rfl
          | ok inserted => cases filled : inserted.fill taskId row <;>
            simp [ok_bind, filled] <;> rfl
  | _ => exact Or.inr ⟨rfl, _, rfl⟩

theorem settle_map {α : Type} (x : Except Failure TaskTable) (a : α) :
    settle t ((x.map fun t => (a, t)).map Prod.snd) = settle t x := by
  cases x <;> rfl

theorem created_columns (unique : Table.Unique TaskRow.key t)
    (created : TaskEventType.ofText e.eventType = some .created) :
    (settle t ((t.handleCreated keys (some w) e.workOrderId (taskProject keys e) (eventPayload e)
      e.eventId e.eventTimestamp now).map Prod.snd)).columnsOf w =
        columnsStep keys now e (t.columnsOf w) := by
  have isCreated : isCreation e = true := decide_eq_true created
  rcases handleCreated_columns created keys now t (some w) with
    ⟨read, row, own, columns, handled⟩ | ⟨unread, failure, handled⟩
  · rw [handled, settle_map, merge_columns unique own]
    have admits : row.admits = (brought keys 0 e).admits :=
      (congrArg TaskColumns.admits columns).trans (brought_admits now 0)
    have workOrder : row.workOrderId = e.workOrderId := congrArg TaskColumns.workOrderId columns
    have project : row.projectId = taskProject keys e := congrArg TaskColumns.projectId columns
    cases t.columnsOf w with
    | none =>
      simp only [merged, columnsStep, seeds, read, admits, workOrder, project, columns,
        Bool.true_and]
    | some own => simp only [merged, columnsStep, read, isCreated, columns, Bool.true_and]
  · rw [handled, columnsStep_unread unread]
    rfl

theorem typed_columns (other : TaskEventType.ofText e.eventType ≠ some .created) :
    (settle t ((do
      let t ← t.ensureSkeleton keys (some w) e.workOrderId (taskProject keys e) now
      t.handleTyped (TaskEventType.ofText e.eventType) (some w) (eventPayload e) e.eventId now).map
        Prod.snd)).columnsOf w = columnsStep keys now e (t.columnsOf w) := by
  have isOther : isCreation e = false := decide_eq_false other
  let row : TaskRow := {
    taskId := some w, workOrderId := e.workOrderId, projectId := taskProject keys e
    title := skeletonTitle, createdAt := some (toString now), updatedAt := now }
  have columns : row.columns = brought keys now e := by
    unfold brought
    rw [isOther]
    rfl
  have inserted : (settle t (t.insert keys row)).columnsOf w = _ := insert_columns rfl
  have admits : row.admits = (brought keys 0 e).admits :=
    (congrArg TaskColumns.admits columns).trans (brought_admits now 0)
  have step : reads e = true → (t.columnsOf w).or
      (if row.admits && keys.references row.workOrderId row.projectId then
        some row.columns else none) =
        columnsStep keys now e (t.columnsOf w) := fun read => by
    cases t.columnsOf w with
    | none =>
      simp only [columnsStep, seeds, read, admits, columns, Bool.true_and, Option.none_or]
      rfl
    | some own => simp [columnsStep, isOther]
  change (settle t ((t.insert keys row >>= fun t => t.handleTyped (TaskEventType.ofText e.eventType)
    (some w) (eventPayload e) e.eventId now).map Prod.snd)).columnsOf w = _
  cases skeleton : t.insert keys row with
  | error failure =>
    rw [skeleton] at inserted
    by_cases read : reads e = true
    · exact inserted.trans (step read)
    · rw [columnsStep_unread (Bool.eq_false_iff.mpr read)]
      rfl
  | ok t' =>
    rw [skeleton] at inserted
    have isOk :
        (t'.handleTyped (TaskEventType.ofText e.eventType) (some w) (eventPayload e) e.eventId
          now).isOk = reads e := taskTyped_isOk other
    rw [ok_bind]
    cases handled : t'.handleTyped (TaskEventType.ofText e.eventType) (some w) (eventPayload e)
        e.eventId now with
    | error failure =>
      rw [handled] at isOk
      rw [columnsStep_unread isOk.symm]
      rfl
    | ok result =>
      obtain ⟨count, t''⟩ := result
      rw [handled] at isOk
      obtain ⟨f, rfl, patches⟩ := task_handleTyped other handled
      refine (set_columns (g := id) fun r => ⟨(patches r).1, (patches r).2.2.1⟩).trans ?_
      rw [Option.map_id]
      exact inserted.trans (step isOk.symm)

theorem apply_columns (named : w ≠ "") (about : e.taskId = some w)
    (new : t.isAlreadyProcessed e.eventId = false) (unique : Table.Unique TaskRow.key t) :
    ((taskProjection keys).apply now t e).columnsOf w = columnsStep keys now e (t.columnsOf w) := by
  have settled : (taskProjection keys).apply now t e =
      settle t ((handleTask keys e now t).map Prod.snd) := by
    cases handled : handleTask keys e now t with
    | ok result => exact Projection.apply_ok handled
    | error failure => exact Projection.apply_error handled
  rw [settled]
  unfold handleTask
  rw [new, about]
  simp only [Bool.false_eq_true, if_false, Option.getD_some, named]
  split
  next created => exact created_columns unique created
  next other => exact typed_columns other

theorem apply_sound (keys : TaskKeys) (now : Nat) (named : w ≠ "") (about : e.taskId = some w)
    (new : t.isAlreadyProcessed e.eventId = false) (unique : Table.Unique TaskRow.key t) :
    Table.Unique TaskRow.key ((taskProjection keys).apply now t e) ∧
      ∀ id, id ≠ e.eventId → t.isAlreadyProcessed id = false →
        ((taskProjection keys).apply now t e).isAlreadyProcessed id = false := by
  cases handled : handleTask keys e now t with
  | error failure =>
    rw [Projection.apply_error handled]
    exact ⟨unique, fun _ _ unseen => unseen⟩
  | ok result =>
    rw [Projection.apply_ok handled]
    obtain ⟨row, f, p, landed⟩ := handleTask_lands named about new handled
    constructor
    · rw [landed.lands]
      exact Table.update_unique (Table.insertOrIgnore_unique unique row) fun r _ => landed.keeps r
    · intro id other unseen
      refine Bool.eq_false_iff.mpr fun processed => ?_
      rcases landed.learns id (task_remembers.mpr processed) with seen | same
      · exact Bool.eq_false_iff.mp unseen (task_remembers.mp seen)
      · exact other same

end Handler

section Runs

def replayed (keys : TaskKeys) (clock : Event → Nat) (events : List Event) (t : TaskTable) :
    TaskTable :=
  events.foldl (fun t e => (taskProjection keys).apply (clock e) t e) t

variable {clock : Event → Nat} {events : List Event}

theorem replayed_columns (named : w ≠ "") (about : ∀ e ∈ events, e.taskId = some w)
    (ids : (events.map (·.eventId)).Nodup)
    (new : ∀ e ∈ events, t.isAlreadyProcessed e.eventId = false)
    (unique : Table.Unique TaskRow.key t) :
    (replayed keys clock events t).columnsOf w =
      events.foldl (fun own e => columnsStep keys (clock e) e own) (t.columnsOf w) := by
  unfold replayed
  induction events generalizing t with
  | nil => rfl
  | cons e events ih =>
    obtain ⟨aboutHere, aboutRest⟩ := List.forall_mem_cons.mp about
    obtain ⟨newHere, newRest⟩ := List.forall_mem_cons.mp new
    obtain ⟨idHere, idRest⟩ := List.nodup_cons.mp ids
    obtain ⟨unique', unseen⟩ :=
      apply_sound keys (clock e) named aboutHere newHere unique
    rw [List.foldl_cons, List.foldl_cons, ih aboutRest idRest _ unique',
      apply_columns named aboutHere newHere unique]
    intro f hf
    exact unseen f.eventId (fun same => idHere (List.mem_map.mpr ⟨f, hf, same⟩)) (newRest f hf)

theorem foldl_columnsStep_some (others : ∀ e ∈ events, isCreation e = false) (own : TaskColumns) :
    events.foldl (fun own e => columnsStep keys (clock e) e own) (some own) = some own := by
  induction events with
  | nil => rfl
  | cons e events ih =>
    obtain ⟨here, rest⟩ := List.forall_mem_cons.mp others
    have stays : columnsStep keys (clock e) e (some own) = some own := by simp [columnsStep, here]
    rw [List.foldl_cons, stays, ih rest]

theorem foldl_columnsStep_none (others : ∀ e ∈ events, isCreation e = false) :
    events.foldl (fun own e => columnsStep keys (clock e) e own) none =
      (events.find? (seeds keys)).map fun f => brought keys (clock f) f := by
  induction events with
  | nil => rfl
  | cons e events ih =>
    obtain ⟨here, rest⟩ := List.forall_mem_cons.mp others
    rw [List.foldl_cons, List.find?_cons]
    cases seed : seeds keys e with
    | true =>
      have brings : columnsStep keys (clock e) e none = some (brought keys (clock e) e) :=
        if_pos seed
      rw [brings, foldl_columnsStep_some rest]
      rfl
    | false =>
      have stays : columnsStep keys (clock e) e none = none := if_neg (by simp [seed])
      rw [stays]
      exact ih rest

end Runs

/-- The events of one task with one creation, which may come anywhere among the others. -/
structure TaskCreated (w : String) where
  others : List Event
  created : Event
  named : w ≠ ""
  about : ∀ e ∈ created :: others, e.taskId = some w
  isCreation : isCreation created = true
  only : ∀ e ∈ others, Projections.isCreation e = false
  ids : ((created :: others).map (·.eventId)).Nodup

namespace TaskCreated

variable (keys) (clock : Event → Nat) (l : TaskCreated w)

def ordered (i : Nat) : List Event := l.others.take i ++ l.created :: l.others.drop i

def final (i : Nat) : Option (Text × Text × Text × Text) :=
  ((replayed keys clock (l.ordered i) []).columnsOf w).map fun c =>
    (c.title, c.description, c.createdAt, c.workOrderId)

def Unmoved : Prop := ∀ (clock : Event → Nat)
    (i j : Nat), l.final keys clock i = l.final keys clock j

/-- The creation has nothing to bring and nothing for a skeleton. -/
def Idle : Prop :=
  reads l.created = true → seeds keys l.created = false ∧
    (givenText "title" skeletonTitle l.created = none ∨
      givenText "title" skeletonTitle l.created = some skeletonTitle ∧
        payloadText l.created "description" = none)

variable {keys clock l}

def skeletonOf (keys : TaskKeys) (clock : Event → Nat) (events : List Event) : Option TaskColumns :=
  (events.find? (seeds keys)).map fun f => brought keys (clock f) f

theorem ordered_columns (i : Nat) :
    (replayed keys clock (l.ordered i) []).columnsOf w =
      (l.others.drop i).foldl (fun own e => columnsStep keys (clock e) e own)
        (columnsStep keys (clock l.created) l.created
          (skeletonOf keys clock (l.others.take i))) := by
  have perm : (l.ordered i).Perm (l.created :: l.others) := by
    unfold ordered
    refine List.perm_middle.trans (List.Perm.cons _ ?_)
    rw [List.take_append_drop]
  have about : ∀ e ∈ l.ordered i, e.taskId = some w := fun e he => l.about e (perm.mem_iff.mp he)
  have ids : ((l.ordered i).map (·.eventId)).Nodup := (perm.map _).nodup_iff.mpr l.ids
  rw [replayed_columns l.named about ids (fun _ _ => rfl) List.Pairwise.nil]
  unfold ordered skeletonOf
  rw [List.foldl_append, List.foldl_cons,
    ← foldl_columnsStep_none fun e he => l.only e (List.mem_of_mem_take he)]
  rfl

theorem first_columns : (replayed keys clock (l.ordered 0) []).columnsOf w =
    if seeds keys l.created then some (brought keys (clock l.created) l.created)
    else skeletonOf keys clock l.others := by
  rw [ordered_columns]
  change l.others.foldl (fun own e => columnsStep keys (clock e) e own)
    (if seeds keys l.created then some (brought keys (clock l.created) l.created) else none) = _
  split
  next => exact foldl_columnsStep_some l.only _
  next => exact foldl_columnsStep_none l.only

theorem last_columns : (replayed keys clock (l.ordered l.others.length) []).columnsOf w =
    columnsStep keys (clock l.created) l.created (skeletonOf keys clock l.others) := by
  rw [ordered_columns, List.take_length, List.drop_length]
  rfl

theorem idle_columns (idle : ∀ i, columnsStep keys (clock l.created) l.created
    (skeletonOf keys clock (l.others.take i)) = skeletonOf keys clock (l.others.take i)) (i : Nat) :
    (replayed keys clock (l.ordered i) []).columnsOf w = skeletonOf keys clock l.others := by
  unfold skeletonOf at idle ⊢
  rw [ordered_columns, skeletonOf, idle, ← foldl_columnsStep_none l.only,
    ← foldl_columnsStep_none fun e he => l.only e (List.mem_of_mem_take he), ← List.foldl_append,
    List.take_append_drop]

theorem columnsStep_skeleton {own : TaskColumns} (read : reads l.created = true)
    (admits : own.admits = true) (title : own.title = some skeletonTitle)
    (description : own.description = none) :
    columnsStep keys now l.created (some own) =
      if (givenText "title" skeletonTitle l.created).isSome then
        some { own with
          title := givenText "title" skeletonTitle l.created
          description := payloadText l.created "description" }
      else some own := by
  have filled : own.fill (brought keys now l.created) =
      { own with
        title := givenText "title" skeletonTitle l.created
        description := payloadText l.created "description" } := by
    simp only [TaskColumns.admits, Bool.and_eq_true, Option.isSome_iff_exists] at admits
    obtain ⟨⟨⟨⟨workOrder, hw⟩, project, hp⟩, -⟩, createdAt, hc⟩ := admits
    simp [TaskColumns.fill, brought, l.isCreation, coalesce, title, description, hw, hp, hc]
  have fits : (own.fill (brought keys now l.created)).admits =
      (givenText "title" skeletonTitle l.created).isSome := by
    rw [filled]
    simp only [TaskColumns.admits, Bool.and_eq_true] at admits ⊢
    rw [admits.1.1.1, admits.1.1.2, admits.2]
    simp
  rw [filled] at fits
  simp only [columnsStep, read, l.isCreation, fits, Bool.true_and, filled]

theorem seeded {f : Event} (seed : seeds keys f = true) (other : Projections.isCreation f = false)
    (now : Nat) : (brought keys now f).admits = true ∧
      (brought keys now f).title = some skeletonTitle ∧
        (brought keys now f).description = none := by
  refine ⟨?_, by simp [brought, other], by simp [brought, other]⟩
  rw [brought_admits now 0]
  unfold seeds at seed
  simp only [Bool.and_eq_true] at seed
  exact seed.1.2

theorem Unmoved.idle {f : Event} (unmoved : l.Unmoved keys)
    (first : l.others.find? (seeds keys) = some f) : l.Idle keys := by
  intro read
  have seed : seeds keys f = true := List.find?_some first
  have other : Projections.isCreation f = false := l.only f (List.mem_of_find?_eq_some first)
  have same : ∀ clock, l.final keys clock 0 = l.final keys clock l.others.length :=
    fun clock => unmoved clock 0 l.others.length
  have step : ∀ now now', columnsStep keys now l.created (some (brought keys now' f)) = _ :=
    fun now now' =>
      have ⟨admits, title, description⟩ := seeded seed other now'
      columnsStep_skeleton read admits title description
  simp only [final, first_columns, last_columns, skeletonOf, first, Option.map_some, step] at same
  cases seedsToo : seeds keys l.created with
  | true =>
    have admits := seedsToo
    unfold seeds TaskColumns.admits brought at admits
    simp only [l.isCreation, if_true, Bool.and_eq_true] at admits
    have title : (givenText "title" skeletonTitle l.created).isSome = true := admits.1.2.1.2
    have stamp : ∀ n : Nat, l.created.eventTimestamp = toString n := fun n => by
      have := same fun _ => n
      simp [seedsToo, title, brought, l.isCreation, other] at this
      exact this.1
    exact absurd ((stamp 0).symm.trans (stamp 1)) (by decide)
  | false =>
    refine ⟨rfl, ?_⟩
    have := same fun _ => 0
    cases title : givenText "title" skeletonTitle l.created with
    | none => exact Or.inl rfl
    | some text =>
      simp [seedsToo, title, brought, other] at this
      exact Or.inr ⟨congrArg some this.1.symm, this.2.symm⟩

theorem Idle.leaves (idle : l.Idle keys) {events : List Event} (sub : events ⊆ l.others) :
    columnsStep keys (clock l.created) l.created (skeletonOf keys clock events) =
      skeletonOf keys clock events := by
  by_cases read : reads l.created = true
  · obtain ⟨unseeded, leaves⟩ := idle read
    unfold skeletonOf
    cases first : events.find? (seeds keys) with
    | none => simp [columnsStep, unseeded]
    | some f =>
      have seed : seeds keys f = true := List.find?_some first
      have other := l.only f (sub (List.mem_of_find?_eq_some first))
      obtain ⟨admits, title, description⟩ := seeded seed other (clock f)
      rw [Option.map_some, columnsStep_skeleton read admits title description]
      rcases leaves with absent | ⟨same, absent⟩
      · simp [absent]
      · rw [same, absent, ← title, ← description]
        simp
  · exact columnsStep_unread (Bool.eq_false_iff.mpr read) _

theorem alone_columns (unseeded : ∀ e ∈ l.others, seeds keys e = false) (i : Nat) :
    (replayed keys clock (l.ordered i) []).columnsOf w =
      columnsStep keys (clock l.created) l.created none := by
  have nothing : ∀ {events}, events ⊆ l.others → events.find? (seeds keys) = none := fun sub =>
    List.find?_eq_none.mpr fun e he => by simp [unseeded e (sub he)]
  have before : skeletonOf keys clock (l.others.take i) = none :=
    congrArg (Option.map _) (nothing (List.take_subset ..))
  have later : ∀ e ∈ l.others.drop i, Projections.isCreation e = false :=
    fun e he => l.only e (List.mem_of_mem_drop he)
  rw [ordered_columns, before]
  cases columnsStep keys (clock l.created) l.created none with
  | none => rw [foldl_columnsStep_none later, nothing (List.drop_subset ..), Option.map_none]
  | some own => exact foldl_columnsStep_some later own

theorem unmoved_iff : l.Unmoved keys ↔ (∀ e ∈ l.others, seeds keys e = false) ∨ l.Idle keys := by
  constructor
  · intro unmoved
    cases first : l.others.find? (seeds keys) with
    | none => exact Or.inl fun e he => by simpa using List.find?_eq_none.mp first e he
    | some f => exact Or.inr (unmoved.idle first)
  · intro h clock i j
    unfold final
    congr 1
    rcases h with unseeded | idle
    · rw [alone_columns unseeded, alone_columns unseeded]
    · have leaves : ∀ i, columnsStep keys (clock l.created) l.created
          (skeletonOf keys clock (l.others.take i)) = skeletonOf keys clock (l.others.take i) :=
        fun i => idle.leaves (List.take_subset i l.others)
      rw [idle_columns leaves, idle_columns leaves]

end TaskCreated

theorem holds_iff_lookup :
    Table.Holds TaskRow.key t (some w) ↔ (Table.lookup TaskRow.key w t).isSome = true := by
  constructor
  · rintro ⟨r, member, same, -⟩
    exact Option.isSome_iff_exists.mpr (Table.exists_lookup member same)
  · intro found
    obtain ⟨r, held⟩ := Option.isSome_iff_exists.mp found
    exact ⟨r, (Table.lookup_key held).1, (Table.lookup_key held).2, nofun⟩

theorem taskSeed_isSome : (taskSeed keys e now).isSome = (brought keys now e).admits := by
  have project : taskProject keys e = keys.resolveProjectId e.projectId e.workOrderId := rfl
  unfold taskSeed brought TaskColumns.admits
  rw [project]
  cases created : isCreation e with
  | true =>
    have type : TaskEventType.ofText e.eventType = some .created := of_decide_eq_true created
    simp only [type]
    cases e.workOrderId <;> cases keys.resolveProjectId e.projectId _ <;>
      cases givenText "title" skeletonTitle e <;> rfl
  | false =>
    have type : TaskEventType.ofText e.eventType ≠ some .created := of_decide_eq_false created
    split
    next ids =>
      split
      next created => exact absurd created type
      next => simp_all
    next ids => simp_all

theorem handleTask_holds (h : handleTask keys e now t = .ok (1, t')) :
    Table.Holds TaskRow.key t' e.taskId ↔
      Table.Holds TaskRow.key t e.taskId ∨ (brought keys now e).admits = true := by
  have new : t.isAlreadyProcessed e.eventId = false := by
    unfold handleTask at h
    split at h
    · cases h
    · next unprocessed => exact Bool.eq_false_iff.mpr unprocessed
  have named : e.taskId.getD "" ≠ "" := by
    unfold handleTask at h
    rw [new] at h
    simp only [Bool.false_eq_true, if_false] at h
    split at h
    · cases h
    · assumption
  cases about : e.taskId with
  | none =>
    rw [about] at named
    exact absurd rfl named
  | some w =>
    have named : w ≠ "" := by simpa [about] using named
    obtain ⟨row, f, p, landed⟩ := handleTask_lands named about new h
    have view := congrArg Option.isSome landed.view
    simp only [Option.isSome_map, Option.isSome_or] at view
    rw [holds_iff_lookup, holds_iff_lookup, view, Bool.or_eq_true, taskSeed_isSome]

/-- A call that reports its event applied leaves a row of the task exactly if there was one or the
event brings all that a row needs; and the place of the creation among the events of a task is
nothing to the row exactly if no other event brings a row, or the creation is idle. -/
theorem applied_iff (keys : TaskKeys) :
    (∀ (e : Event) (now : Nat) (t t' : TaskTable), handleTask keys e now t = .ok (1, t') →
      (Table.Holds TaskRow.key t' e.taskId ↔
        Table.Holds TaskRow.key t e.taskId ∨ (brought keys now e).admits = true)) ∧
    ∀ (w : String) (l : TaskCreated w),
      l.Unmoved keys ↔ (∀ e ∈ l.others, seeds keys e = false) ∨ l.Idle keys :=
  ⟨fun _ _ _ _ => handleTask_holds, fun _ _ => TaskCreated.unmoved_iff⟩

def startedTask : TaskCreated "t" where
  others := [{ eventId := "e2", eventType := TaskEventType.started.text
               eventTimestamp := "2026-01-02T00:00:00Z", payload := .obj [], taskId := some "t"
               workOrderId := some "w", projectId := some "p" }]
  created := { eventId := "e1", eventType := TaskEventType.created.text
               eventTimestamp := "2026-01-01T00:00:00Z", payload := .obj [("title", .str "scope")]
               taskId := some "t", workOrderId := some "w", projectId := some "p" }
  named := by decide
  about := by decide +kernel
  isCreation := rfl
  only := by decide +kernel
  ids := by decide +kernel

/-- An event without a work order is reported applied and leaves no row; and a task created late
keeps the time its skeleton was inserted at. -/
theorem startedTask_drops :
    (¬∀ (keys : TaskKeys) (e : Event) (now : Nat) (t t' : TaskTable),
      handleTask keys e now t = .ok (1, t') → Table.Holds TaskRow.key t' e.taskId) ∧
    ¬∀ (keys : TaskKeys) (w : String) (l : TaskCreated w), l.Unmoved keys := by
  constructor
  · intro holds
    let e : Event := {
      eventId := "e", eventType := TaskEventType.started.text
      eventTimestamp := "2026-01-01T00:00:00Z", payload := .obj [], taskId := some "t" }
    obtain ⟨r, none, -⟩ := holds ⟨fun p _ => p, fun _ _ => true⟩ e 0 [] [] rfl
    cases none
  · intro same
    have moved := same ⟨fun p _ => p, fun _ _ => true⟩ "t" startedTask (fun _ => 0) 0 1
    revert moved
    decide +kernel

end DreamStudio.Projections
