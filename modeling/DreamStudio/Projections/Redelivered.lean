import DreamStudio.Library.Redelivery
import DreamStudio.Projections.Life
import DreamStudio.Projections.Milestone
import DreamStudio.Projections.Project
import DreamStudio.Projections.Task

namespace DreamStudio.Projections

open Library WorkOrders

section Landing

variable {ρ V : Type} (key : ρ → Option String) (admits : ρ → Bool) (standing : ρ → V)
  (marks : ρ → String → Prop)

def Remembers (t : List ρ) (id : String) : Prop := ∃ r ∈ t, marks r id

/-- An event about `w` has gone in: its row where there was none, and then its UPDATE. -/
structure Lands (w eventId : String) (seed : Option V) (patch : V → V) (t t' : List ρ) (row : ρ)
    (f : ρ → ρ) (p : ρ → Bool) : Prop where
  lands : t' = Table.update p f (Table.insertOrIgnore key admits t row)
  own : key row = some w
  where_ : ∀ r, p r = true ↔ key r = some w
  keeps : ∀ r, key (f r) = key r
  seed : (if admits row then some (standing row) else none) = seed
  patch : ∀ r, standing (f r) = patch (standing r)
  rowMarks : ∀ id, marks row id → id = eventId
  marks : ∀ r id, marks (f r) id → marks r id ∨ id = eventId

variable {key admits standing marks} {w eventId : String} {seed : Option V} {patch : V → V}
  {t t' : List ρ} {row : ρ} {f : ρ → ρ} {p : ρ → Bool}

theorem Lands.view (h : Lands key admits standing marks w eventId seed patch t t' row f p) :
    (Table.lookup key w t').map standing =
      (((Table.lookup key w t).map standing).or seed).map patch := by
  rw [h.lands, Table.lookup_merge h.own h.keeps h.where_, Option.map_map, ← h.seed]
  cases Table.lookup key w t with
  | some r => simp [h.patch]
  | none => split <;> simp [h.patch]

theorem Lands.other (h : Lands key admits standing marks w eventId seed patch t t' row f p)
    {k : String} (other : k ≠ w) : Table.lookup key k t' = Table.lookup key k t := by
  have absent : key row ≠ some k := fun same => other (Option.some.inj (same.symm.trans h.own))
  rw [h.lands, Table.lookup_update h.keeps, Table.lookup_insertOrIgnore_of_ne absent]
  cases found : Table.lookup key k t with
  | none => rfl
  | some r =>
    have not : p r = false := Bool.eq_false_iff.mpr fun mine => by
      have := (h.where_ r).mp mine
      exact other (Option.some.inj ((Table.lookup_key found).2.symm.trans this))
    simp [not]

theorem Lands.learns (h : Lands key admits standing marks w eventId seed patch t t' row f p)
    (id : String) (seen : Remembers marks t' id) : Remembers marks t id ∨ id = eventId := by
  obtain ⟨r, hr, marked⟩ := seen
  rw [h.lands] at hr
  have all : ∀ r ∈ Table.update p f (Table.insertOrIgnore key admits t row),
      marks r id → Remembers marks t id ∨ id = eventId := by
    refine Table.forall_update
      (Table.forall_insertOrIgnore (fun q hq marked => Or.inl ⟨q, hq, marked⟩)
        fun marked => Or.inr (h.rowMarks id marked)) fun q before marked => ?_
    exact (h.marks q id marked).elim before Or.inr
  exact all r hr marked

end Landing

/-- A `handle` that puts in its row and patches it, for the events about `w`. -/
structure RowHandler (ρ V : Type) where
  key : ρ → Option String
  admits : ρ → Bool
  standing : ρ → V
  marks : ρ → String → Prop
  w : String
  seed : Event → Nat → Option V
  patch : Event → V → V
  handle : Event → Nat → List ρ → Except Failure (Nat × List ρ)
  own : Event → Bool
  skips : ∀ {e n t}, Remembers marks t e.eventId → handle e n t = .ok (0, t)
  lands : ∀ {e n t c t'}, own e = true → ¬Remembers marks t e.eventId → handle e n t = .ok (c, t') →
    ∃ row f p, Lands key admits standing marks w e.eventId (seed e n) (patch e) t t' row f p
  unclocked : ∀ e m n, (seed e m).isSome = (seed e n).isSome

namespace RowHandler

variable {ρ V : Type} (H : RowHandler ρ V)

def consumer : Consumer (List ρ) Event String where
  handle e n t := (H.handle e n t).toOption.map (·.2)
  own := H.own
  key := (·.eventId)
  seen := Remembers H.marks
  skips := by
    intro e n t seen
    rw [H.skips seen]
    rfl
  learns := by
    intro e n t t' mine handled
    by_cases seen : Remembers H.marks t e.eventId
    · rw [H.skips seen] at handled
      cases handled
      exact fun _ => Or.inl
    · obtain ⟨⟨c, t''⟩, ok, rfl⟩ := Option.map_eq_some_iff.mp handled
      obtain ⟨row, f, p, landed⟩ := H.lands mine seen (toOption_eq_some.mp ok)
      exact landed.learns

/-- What the table says of `w`. -/
def view (t : List ρ) : Option V := (Table.lookup H.key H.w t).map H.standing

theorem patches : H.consumer.Patches H.view H.seed H.patch where
  law := by
    intro e clock a a' mine new handled
    obtain ⟨⟨c, t''⟩, ok, rfl⟩ := Option.map_eq_some_iff.mp handled
    obtain ⟨row, f, p, landed⟩ := H.lands mine new (toOption_eq_some.mp ok)
    exact landed.view
  unclocked := H.unclocked

/-- Each event that comes again is remembered, brings no row, or finds its row as it would leave
it. -/
def Spared (deliveries : List (Delivery Event)) : Prop :=
  H.consumer.Spared (fun _ _ _ => True) (Consumer.Stands H.view H.seed H.patch) [] deliveries

theorem alike_iff (deliveries : List (Delivery Event)) :
    H.consumer.Alike H.view [] deliveries ↔ H.Spared deliveries :=
  H.patches.alike_iff (fun _ => by simp [consumer, Remembers]) deliveries

end RowHandler

theorem update_id {ρ : Type} (p : ρ → Bool) (rows : List ρ) : Table.update p id rows = rows := by
  simp [Table.update]

section Tasks

open TaskTable

variable {keys : TaskKeys} {e : Event} {n count : Nat} {t t' : TaskTable} {w : String}

def TaskRow.marks (r : TaskRow) (id : String) : Prop :=
  r.sourceEventId = some id ∨ r.lastEventId = some id

/-- The status of a task and the one moment its row has from an event. -/
def TaskRow.standing (r : TaskRow) : TaskStatus × Text := (r.status, r.createdAt)

/-- `payload.get(key) or default`, as a created event stores it. -/
def givenText (key default : String) (e : Event) : Text :=
  (do bindParam ((← payloadGet (eventPayload e) key).or (.str default))).toOption.join

theorem givenText_eq {key default : String} {v : Json} {text : Text}
    (given : payloadGet (e.payload.or (.obj [])) key = .ok v)
    (bound : bindParam (v.or (.str default)) = .ok text) : givenText key default e = text := by
  unfold givenText eventPayload
  rw [given, ok_bind, bound]
  rfl

def taskSeed (keys : TaskKeys) (e : Event) (now : Nat) : Option (TaskStatus × Text) :=
  if e.workOrderId.isSome && (keys.resolveProjectId e.projectId e.workOrderId).isSome then
    match TaskEventType.ofText e.eventType with
    | some .created =>
      if (givenText "title" skeletonTitle e).isSome then
        some (.pending, some e.eventTimestamp) else none
    | _ => some (.pending, some (toString now))
  else none

def taskPatch (e : Event) (s : TaskStatus × Text) : TaskStatus × Text :=
  match TaskEventType.ofText e.eventType with
  | some .created => (s.1, coalesce s.2 (some e.eventTimestamp))
  | some .started => (if s.1 ∈ TaskStatus.settled then s.1 else .inProgress, s.2)
  | some .completed => (.complete, s.2)
  | some .cancelled => (.cancelled, s.2)
  | some .deleted => (.deleted, s.2)
  | some .acRepointed | none => s

theorem task_remembers : Remembers TaskRow.marks t w ↔ t.isAlreadyProcessed w = true := by
  simp [Remembers, TaskRow.marks, isAlreadyProcessed]

theorem insert_ok {row : TaskRow} (h : t.insert keys row = .ok t') :
    t' = Table.insertOrIgnore TaskRow.key TaskRow.admits t row := by
  unfold TaskTable.insert at h
  split at h
  · cases h
  · cases h
    rfl

theorem fill_ok {row : TaskRow} {taskId : Text} (h : t.fill taskId row = .ok t') :
    t' = t.set taskId (backfill row) := by
  unfold TaskTable.fill at h
  split at h
  · cases h
  · cases h
    rfl

theorem task_where (r : TaskRow) :
    decide (r.taskId = some w ∧ (some w : Text) ≠ none) = true ↔ r.key = some w := by
  simp [TaskRow.key]

theorem coalesce_marks {source last : Text} {eventId id : String}
    (marked : coalesce source (some eventId) = some id ∨ last = some id) :
    (source = some id ∨ last = some id) ∨ id = eventId := by
  rcases marked with filled | last
  · cases source with
    | none => exact Or.inr (Option.some.inj filled).symm
    | some s => exact Or.inl (Or.inl filled)
  · exact Or.inl (Or.inr last)

theorem last_marks {source last : Text} {eventId id : String}
    (marked : source = some id ∨ some eventId = some id) :
    (source = some id ∨ last = some id) ∨ id = eventId :=
  marked.elim (fun first => Or.inl (Or.inl first)) fun here => Or.inr (Option.some.inj here).symm

theorem task_handleTyped (other : TaskEventType.ofText e.eventType ≠ some .created)
    (h : handleTyped t (TaskEventType.ofText e.eventType) (some w)
      (e.payload.or (.obj [])) e.eventId n =
      .ok (count, t')) :
    ∃ f, t' = t.set (some w) f ∧ ∀ r, (f r).key = r.key ∧ (f r).standing = taskPatch e r.standing ∧
      (f r).columns = r.columns ∧ ∀ id, (f r).marks id → r.marks id ∨ id = e.eventId := by
  have kept : t = t.set (some w) id := (update_id _ t).symm
  unfold taskPatch TaskRow.standing
  cases type : TaskEventType.ofText e.eventType with
  | none =>
    rw [type] at h
    cases h
    exact ⟨id, kept, fun r => ⟨rfl, rfl, rfl, fun _ => Or.inl⟩⟩
  | some type' =>
    rw [type] at h
    cases type' with
    | created => exact absurd type other
    | started =>
      cases h
      refine ⟨_, rfl, fun r => ?_⟩
      split
      next => exact ⟨rfl, rfl, rfl, fun _ => Or.inl⟩
      next => exact ⟨rfl, rfl, rfl, fun _ => last_marks⟩
    | completed =>
      cases h
      exact ⟨_, rfl, fun r => ⟨rfl, rfl, rfl, fun _ => last_marks⟩⟩
    | cancelled =>
      cases h
      exact ⟨_, rfl, fun r => ⟨rfl, rfl, rfl, fun _ => last_marks⟩⟩
    | deleted =>
      cases h
      exact ⟨_, rfl, fun r => ⟨rfl, rfl, rfl, fun _ => last_marks⟩⟩
    | acRepointed =>
      simp only [handleTyped, handleAcRepointed, bind_eq_ok] at h
      obtain ⟨criteria, -, h⟩ := h
      split at h
      · obtain ⟨text, -, h⟩ := bind_eq_ok.mp h
        cases h
        refine ⟨_, rfl, fun r => ⟨rfl, rfl, rfl, fun id marked => ?_⟩⟩
        rcases marked with here | before
        · exact Or.inr (Option.some.inj here).symm
        · exact Or.inl (Or.inr before)
      · cases h
        exact ⟨id, kept, fun r => ⟨rfl, rfl, rfl, fun _ => Or.inl⟩⟩

theorem handleTask_lands (named : w ≠ "") (about : e.taskId = some w)
    (new : t.isAlreadyProcessed e.eventId = false) (h : handleTask keys e n t = .ok (count, t')) :
    ∃ row f p, Lands TaskRow.key TaskRow.admits TaskRow.standing TaskRow.marks w e.eventId
      (taskSeed keys e n) (taskPatch e) t t' row f p := by
  unfold handleTask at h
  rw [new, about] at h
  simp only [Bool.false_eq_true, if_false, Option.getD_some, named] at h
  split at h
  next created =>
    unfold handleCreated at h
    simp only [bind_eq_ok, pure_eq_ok, Prod.mk.injEq] at h
    obtain ⟨_, given, title, bound, _, _, _, _, _, _, _, _, _, inserted, _, filled, -, rfl⟩ := h
    have hasTitle : givenText "title" skeletonTitle e = title := givenText_eq given bound
    rw [fill_ok filled, insert_ok inserted]
    refine ⟨_, _, _, rfl, rfl, task_where, fun _ => rfl, ?_, fun r => ?_, ?_,
      fun r id => coalesce_marks⟩
    · unfold taskSeed TaskRow.admits
      rw [created]
      cases e.workOrderId <;> cases keys.resolveProjectId e.projectId _ <;> cases title <;>
        simp [hasTitle, TaskRow.standing]
    · simp [taskPatch, created, TaskRow.standing, backfill]
    · simp [TaskRow.marks]
  next type other =>
    obtain ⟨skeleton, inserted, h⟩ := bind_eq_ok.mp h
    obtain ⟨f, rfl, patches⟩ := task_handleTyped other h
    rw [insert_ok inserted]
    refine ⟨_, f, _, rfl, rfl, task_where, fun r => (patches r).1, ?_, fun r => (patches r).2.1,
      by simp [TaskRow.marks], fun r => (patches r).2.2.2⟩
    unfold taskSeed TaskRow.admits
    cases e.workOrderId <;> cases keys.resolveProjectId e.projectId _ <;> simp [TaskRow.standing]

/-- `TaskProjection` on the events of one task. -/
def taskHandler (keys : TaskKeys) (w : {w : String // w ≠ ""}) :
    RowHandler TaskRow (TaskStatus × Text) where
  key := TaskRow.key
  admits := TaskRow.admits
  standing := TaskRow.standing
  marks := TaskRow.marks
  w := w
  seed := taskSeed keys
  patch := taskPatch
  handle := handleTask keys
  own e := e.taskId = some w.1 && (TaskEventType.ofText e.eventType).isSome
  skips := fun seen => by
    unfold handleTask
    rw [if_pos (task_remembers.mp seen)]
  lands := fun own new handled => by
    rw [Bool.and_eq_true, decide_eq_true_eq] at own
    exact handleTask_lands w.2 own.1 (Bool.eq_false_iff.mpr (mt task_remembers.mpr new)) handled
  unclocked := fun e m n => by
    unfold taskSeed
    split
    · split <;> rfl
    · rfl

end Tasks

section Milestones

open MilestoneTable

variable {registered : Text → Bool} {e : Event} {n count : Nat} {t t' : MilestoneTable} {w : String}

def MilestoneRow.marks (r : MilestoneRow) (id : String) : Prop :=
  r.sourceEventId = some id ∨ r.lastEventId = some id

def MilestoneRow.standing (r : MilestoneRow) : Text × Text := (r.status, r.createdAt)

def milestoneSeed (e : Event) (now : Nat) : Option (Text × Text) :=
  if e.projectId.isSome then
    match MilestoneEventType.ofText e.eventType with
    | some .created =>
      let status := givenText "status" "pending" e
      if (givenText "title" MilestoneRow.skeletonTitle e).isSome && status.isSome then
        some (status, some e.eventTimestamp)
      else none
    | _ => some (some "pending", some (toString now))
  else none

def milestonePatch (e : Event) (s : Text × Text) : Text × Text :=
  match MilestoneEventType.ofText e.eventType with
  | some .created => (s.1, coalesce s.2 (some e.eventTimestamp))
  | some .completed => (some "complete", s.2)
  | some .deleted => (some "deleted", s.2)
  | none => s

theorem milestone_remembers : Remembers MilestoneRow.marks t w ↔ t.isAlreadyProcessed w = true := by
  simp [Remembers, MilestoneRow.marks, isAlreadyProcessed]

theorem milestone_inserted {row : MilestoneRow} (h : t.insert registered row = .ok t') :
    t' = Table.insertOrIgnore MilestoneRow.key MilestoneRow.admits t row := by
  unfold MilestoneTable.insert at h
  split at h
  · cases h
  · cases h
    rfl

theorem milestone_handleTyped (other : MilestoneEventType.ofText e.eventType ≠ some .created)
    (h : (match MilestoneEventType.ofText e.eventType with
      | some .completed => pure (1, t.handleCompleted w e.eventId n)
      | some .deleted => pure (1, t.handleDeleted w e.eventId n)
      | _ => pure (0, t) : Except Failure (Nat × MilestoneTable)) = .ok (count, t')) :
    ∃ f, t' = t.set w f ∧ ∀ r, (f r).key = r.key ∧ (f r).standing = milestonePatch e r.standing ∧
      ∀ id, (f r).marks id → r.marks id ∨ id = e.eventId := by
  unfold milestonePatch MilestoneRow.standing
  cases type : MilestoneEventType.ofText e.eventType with
  | none =>
    rw [type] at h
    cases h
    exact ⟨id, (update_id _ t).symm, fun r => ⟨rfl, rfl, fun _ => Or.inl⟩⟩
  | some type' =>
    rw [type] at h
    cases type' with
    | created => exact absurd type other
    | completed =>
      cases h
      exact ⟨_, rfl, fun r => ⟨rfl, rfl, fun _ => last_marks⟩⟩
    | deleted =>
      cases h
      exact ⟨_, rfl, fun r => ⟨rfl, rfl, fun _ => last_marks⟩⟩

theorem handleMilestone_lands (named : w ≠ "") (about : e.milestoneId = some w)
    (new : t.isAlreadyProcessed e.eventId = false)
    (h : handleMilestone registered e n t = .ok (count, t')) :
    ∃ row f p, Lands MilestoneRow.key MilestoneRow.admits MilestoneRow.standing MilestoneRow.marks w
      e.eventId (milestoneSeed e n) (milestonePatch e) t t' row f p := by
  unfold handleMilestone at h
  simp only [new, about, Bool.false_eq_true, if_false, Option.getD_some, named] at h
  have where_ : ∀ r : MilestoneRow, decide (r.key = some w) = true ↔
      r.key = some w := fun r => by simp
  split at h
  next created =>
    unfold handleCreated at h
    simp only [bind_eq_ok, pure_eq_ok, Prod.mk.injEq] at h
    obtain ⟨_, givenTitle, title, boundTitle, _, _, _, _, _, given, status, bound, _, _, _,
        _, _, inserted,
      -, rfl⟩ := h
    have hasTitle : givenText "title" MilestoneRow.skeletonTitle e = title :=
      givenText_eq givenTitle boundTitle
    have hasStatus : givenText "status" "pending" e = status := givenText_eq given bound
    rw [milestone_inserted inserted]
    refine ⟨_, _, _, rfl, rfl, where_, fun _ => rfl, ?_, fun r => ?_, ?_,
      fun r id => coalesce_marks⟩
    · unfold milestoneSeed MilestoneRow.admits
      rw [created, hasStatus, hasTitle]
      cases e.projectId <;> cases title <;> cases status <;> simp [MilestoneRow.standing]
    · simp [milestonePatch, created, MilestoneRow.standing, backfill]
    · simp [MilestoneRow.marks]
  next type other =>
    obtain ⟨skeleton, inserted, h⟩ := bind_eq_ok.mp h
    obtain ⟨f, rfl, patches⟩ := milestone_handleTyped other h
    rw [milestone_inserted inserted]
    refine ⟨_, f, _, rfl, rfl, where_, fun r => (patches r).1, ?_, fun r => (patches r).2.1,
      by simp [MilestoneRow.marks], fun r => (patches r).2.2⟩
    unfold milestoneSeed MilestoneRow.admits
    cases e.projectId <;> simp [MilestoneRow.standing]

/-- `MilestoneProjection` on the events of one milestone. -/
def milestoneHandler (registered : Text → Bool) (w : {w : String // w ≠ ""}) :
    RowHandler MilestoneRow (Text × Text) where
  key := MilestoneRow.key
  admits := MilestoneRow.admits
  standing := MilestoneRow.standing
  marks := MilestoneRow.marks
  w := w
  seed := milestoneSeed
  patch := milestonePatch
  handle := handleMilestone registered
  own e := e.milestoneId = some w.1 && (MilestoneEventType.ofText e.eventType).isSome
  skips := fun seen => by
    unfold handleMilestone
    simp only
    rw [if_pos (milestone_remembers.mp seen)]
  lands := fun own new handled => by
    rw [Bool.and_eq_true, decide_eq_true_eq] at own
    exact handleMilestone_lands w.2 own.1 (Bool.eq_false_iff.mpr (mt milestone_remembers.mpr new))
      handled
  unclocked := fun e m n => by
    unfold milestoneSeed
    split
    · split <;> rfl
    · rfl

end Milestones

section Projects

open ProjectTable

variable {clients : Text → Bool} {e : Event} {n count : Nat} {t t' : ProjectTable} {w : String}

def ProjectRow.marks (r : ProjectRow) (id : String) : Prop :=
  r.sourceEventId = some id ∨ r.lastEventId = some id

def ProjectRow.standing (r : ProjectRow) : Text × Text := (r.status, r.createdAt)

def projectOf (e : Event) : Text :=
  match columnOr e.projectId (eventPayload e) "project_id" with
  | .ok v => if v.truthy then (bindText v).toOption.join else none
  | .error _ => none

def projectSeed (e : Event) (now : Nat) : Option (Text × Text) :=
  match ProjectEventType.ofText e.eventType with
  | some .created =>
    let status := givenText "status" "active" e
    if (givenText "name" "" e).isSome && status.isSome then some (status, some e.eventTimestamp)
    else none
  | _ => some (some "active", some (toString now))

def projectPatch (e : Event) (s : Text × Text) : Text × Text :=
  match ProjectEventType.ofText e.eventType with
  | some .created => (s.1, coalesce s.2 (some e.eventTimestamp))
  | some .activated => (some "active", s.2)
  | some .deactivated => (some "paused", s.2)
  | some .deleted => (some "deleted", s.2)
  | some .clientAssigned | none => s

theorem project_remembers : Remembers ProjectRow.marks t w ↔ t.isAlreadyProcessed w = true := by
  simp [Remembers, ProjectRow.marks, isAlreadyProcessed]

theorem project_handleTyped (other : ProjectEventType.ofText e.eventType ≠ some .created)
    (h : handleTyped clients t (ProjectEventType.ofText e.eventType) (some w)
      (eventPayload e) e.eventId n =
      .ok (count, t')) :
    ∃ f, t' = t.set (some w) f ∧ ∀ r, (f r).key = r.key ∧
      (f r).standing = projectPatch e r.standing ∧
      (∀ id, (f r).marks id → r.marks id ∨ id = e.eventId) ∧ (f r).projectPath = r.projectPath := by
  have kept : t = t.set (some w) id := (update_id _ t).symm
  unfold projectPatch ProjectRow.standing
  cases type : ProjectEventType.ofText e.eventType with
  | none =>
    rw [type] at h
    cases h
    exact ⟨id, kept, fun r => ⟨rfl, rfl, fun _ => Or.inl, rfl⟩⟩
  | some type' =>
    rw [type] at h
    cases type' with
    | created => exact absurd type other
    | activated =>
      cases h
      exact ⟨_, rfl, fun r => ⟨rfl, rfl, fun _ => last_marks, rfl⟩⟩
    | deactivated =>
      cases h
      exact ⟨_, rfl, fun r => ⟨rfl, rfl, fun _ => last_marks, rfl⟩⟩
    | deleted =>
      cases h
      exact ⟨_, rfl, fun r => ⟨rfl, rfl, fun _ => last_marks, rfl⟩⟩
    | clientAssigned =>
      simp only [handleTyped, handleClientAssigned, bind_eq_ok] at h
      obtain ⟨given, -, h⟩ := h
      split at h
      · obtain ⟨clientId, -, h⟩ := bind_eq_ok.mp h
        split at h
        · cases h
          exact ⟨_, rfl, fun r => ⟨rfl, rfl, fun _ => last_marks, rfl⟩⟩
        · cases h
      · cases h
        exact ⟨id, kept, fun r => ⟨rfl, rfl, fun _ => Or.inl, rfl⟩⟩

/-- Past the checks of `handle`, an event about a project is for the handlers. -/
theorem handleProject_eq (about : projectOf e = some w)
    (new : t.isAlreadyProcessed e.eventId = false) :
    handleProject clients e n t =
      match ProjectEventType.ofText e.eventType with
      | some .created => t.handleCreated (some w) (eventPayload e) e.eventId e.eventTimestamp n
      | type => (t.ensureSkeleton (some w) n).handleTyped clients type (some w) (eventPayload e)
        e.eventId n := by
  unfold projectOf at about
  split at about
  next v named =>
    split at about
    next truthy =>
      have bound : bindParam v = .ok (some w) := by
        unfold bindParam
        cases given : bindText v with
        | error message => simp [given, Except.toOption] at about
        | ok text => simpa [given, Except.toOption] using about
      unfold handleProject
      rw [if_neg (by simp [new])]
      change columnOr e.projectId (eventPayload e) "project_id" >>= _ = _
      rw [named, ok_bind, if_pos truthy, bound, ok_bind]
      rfl
    next => cases about
  next => cases about

theorem handleProject_lands (about : projectOf e = some w)
    (new : t.isAlreadyProcessed e.eventId = false)
    (h : handleProject clients e n t = .ok (count, t')) :
    ∃ row f p, Lands ProjectRow.key ProjectRow.admits ProjectRow.standing
      ProjectRow.marks w e.eventId
      (projectSeed e n) (projectPatch e) t t' row f p ∧
      row.projectPath = none ∧ ∀ r, (f r).projectPath = r.projectPath := by
  have where_ : ∀ r : ProjectRow,
      decide (r.key = some w ∧ (some w : Text) ≠ none) = true ↔ r.key = some w := fun r => by simp
  rw [handleProject_eq about new] at h
  split at h
  next created =>
    unfold handleCreated at h
    simp only [bind_eq_ok] at h
    obtain ⟨_, givenName, name, boundName, _, _, _, _, _, given, status, bound, h⟩ := h
    have hasName : givenText "name" "" e = name := givenText_eq givenName boundName
    have hasStatus : givenText "status" "active" e = status := givenText_eq given bound
    split at h
    next =>
      cases h
      refine ⟨_, _, _, ⟨rfl, rfl, where_, fun _ => rfl, ?_, fun r => ?_, ?_,
        fun r id => coalesce_marks⟩,
        rfl, fun _ => rfl⟩
      · unfold projectSeed ProjectRow.admits
        rw [created, hasStatus, hasName]
        cases name <;> cases status <;> simp [ProjectRow.standing]
      · simp [projectPatch, created, ProjectRow.standing, backfill]
      · simp [ProjectRow.marks]
    next => cases h
  next type other =>
    obtain ⟨f, rfl, patches⟩ := project_handleTyped other h
    refine ⟨_, f, _, ⟨rfl, rfl, where_, fun r => (patches r).1, ?_, fun r => (patches r).2.1,
      by simp [ProjectRow.marks], fun r => (patches r).2.2.1⟩, rfl, fun r => (patches r).2.2.2⟩
    unfold projectSeed ProjectRow.admits
    simp [ProjectRow.standing]

/-- `ProjectProjection` on the events of one project. -/
def projectHandler (clients : Text → Bool) (w : String) : RowHandler ProjectRow (Text × Text) where
  key := ProjectRow.key
  admits := ProjectRow.admits
  standing := ProjectRow.standing
  marks := ProjectRow.marks
  w := w
  seed := projectSeed
  patch := projectPatch
  handle := handleProject clients
  own e := projectOf e = some w && (ProjectEventType.ofText e.eventType).isSome
  skips := fun seen => by
    unfold handleProject
    rw [if_pos (project_remembers.mp seen)]
  lands := fun own new handled => by
    rw [Bool.and_eq_true, decide_eq_true_eq] at own
    obtain ⟨row, f, p, landed, -⟩ :=
      handleProject_lands own.1 (Bool.eq_false_iff.mpr (mt project_remembers.mpr new)) handled
    exact ⟨row, f, p, landed⟩
  unclocked := fun e m n => by
    unfold projectSeed
    split <;> rfl

end Projects

section Works

open WorkOrderTable

variable {remembers : Bool} {e : Event} {n count : Nat} {t t' : WorkOrderTable} {w : String}

def WorkOrderRow.marks (r : WorkOrderRow) (id : String) : Prop :=
  r.sourceEventId = some id ∨ r.lastEventId = some id

structure Moments where
  status : WorkOrderStatus := .created
  createdAt : Text := none
  startedAt : Text := none
  blockedAt : Text := none
  unblockedAt : Text := none
  closedAt : Text := none
  deriving DecidableEq

def WorkOrderRow.moments (r : WorkOrderRow) : Moments where
  status := r.status
  createdAt := r.createdAt
  startedAt := r.startedAt
  blockedAt := r.blockedAt
  unblockedAt := r.unblockedAt
  closedAt := r.closedAt

def WorkOrderTable.momentsOf (w : String) (t : WorkOrderTable) : Option Moments :=
  (Table.lookup WorkOrderRow.key w t).map WorkOrderRow.moments

/-- The phase an unblocked event returns to: the one it names, else the one the row remembers. -/
def returnsTo (remembers : Bool) (w : String) (e : Event) (t : WorkOrderTable) : WorkOrderStatus :=
  ((payloadPhase e "to_status").or
    (((t.lifeOf remembers w).bind (·.blockedFrom)).bind openStatus)).getD
    .inProgress

def momentsPatch (e : Event) (back : WorkOrderStatus) (m : Moments) : Moments :=
  let ts := some e.eventTimestamp
  match WorkOrderEventType.ofText e.eventType with
  | some .created => { m with createdAt := coalesce m.createdAt ts }
  | some .started => { m with status := .inProgress, startedAt := ts }
  | some .blocked => { m with status := .blocked, blockedAt := ts }
  | some .unblocked => { m with status := back, unblockedAt := ts }
  | some .reopened => { m with status := .inProgress, closedAt := none }
  | some .closed => { m with status := .closed, closedAt := ts }
  | some .cancelled => { m with status := .cancelled, closedAt := ts }
  | some type => { m with status := type.statusFor }
  | none => m

theorem work_remembers : Remembers WorkOrderRow.marks t w ↔ t.isAlreadyProcessed w = true := by
  simp [Remembers, WorkOrderRow.marks, isAlreadyProcessed]

theorem momentsOf_touch {set : WorkOrderRow → WorkOrderRow} {f : Moments → Moments}
    (hset : ∀ r, (set r).key = r.key) (hf : ∀ r, (set r).moments = f r.moments) (t : WorkOrderTable)
    (projectId : Text) (now : Nat) (w : String) :
    ((t.ensureSkeleton (some w) projectId now).safeUpsert (some w) set).momentsOf w =
      some (f ((t.momentsOf w).getD {})) := by
  unfold momentsOf safeUpsert
  rw [Table.lookup_upsert hset rfl, lookup_ensureSkeleton, if_pos rfl]
  cases Table.lookup WorkOrderRow.key w t <;> exact congrArg some (hf _)

theorem momentsOf_insertCreated {row : WorkOrderRow} {ts : String} (own : row.key = some w)
    (moments : row.moments = { createdAt := some ts }) :
    (t.insertCreated row).momentsOf w =
      some { (t.momentsOf w).getD {} with
        createdAt := coalesce ((t.momentsOf w).getD {}).createdAt (some ts) } := by
  have created : row.createdAt = some ts := congrArg Moments.createdAt moments
  have filled : ∀ r, (backfill row r).moments =
      { r.moments with createdAt := coalesce r.createdAt (some ts) } := fun r => by
    rw [← created]
    rfl
  unfold momentsOf insertCreated
  rw [Table.lookup_merge own (by intro r; rfl) fun r => by simp +contextual [Table.SameKey, own],
    Option.map_map]
  cases Table.lookup WorkOrderRow.key w t with
  | some r => exact congrArg some (filled r)
  | none =>
    refine congrArg some ((filled row).trans ?_)
    rw [moments, created]
    rfl

theorem handleCreated_moments {workOrderId : Text} {projectId milestoneId payload : Json}
    {eventId ts : String}
    (h : t.handleCreated workOrderId projectId milestoneId payload eventId ts n = .ok t') :
    ∃ row : WorkOrderRow, t' = t.insertCreated row ∧ row.key = workOrderId ∧
      row.moments = { createdAt := some ts } ∧ ∀ id, row.marks id → id = eventId := by
  unfold handleCreated createdRow at h
  simp only [bind_eq_ok, pure_eq_ok] at h
  obtain ⟨_, ⟨_, _, _, _, _, _, _, _, _, _, _, _, _, _, _, _, _, _, _, _, _, _, rfl⟩, rfl⟩ := h
  exact ⟨_, rfl, rfl, rfl, fun id marked => by
    simpa [WorkOrderRow.marks] using marked.elim Eq.symm Eq.symm⟩

theorem handleTyped_moments {projectId : Text}
    (other : WorkOrderEventType.ofText e.eventType ≠ some .created)
    (known : (WorkOrderEventType.ofText e.eventType).isSome = true)
    (h : (t.ensureSkeleton (some w) projectId n).handleTyped remembers
      (WorkOrderEventType.ofText e.eventType) (some w) (eventPayload e) e.eventId
        e.eventTimestamp n =
        .ok (count, t')) :
    t'.momentsOf w =
      some (momentsPatch e (returnsTo remembers w e t) ((t.momentsOf w).getD {})) := by
  cases type : WorkOrderEventType.ofText e.eventType with
  | none =>
    rw [type] at known
    cases known
  | some type' =>
    rw [type] at h
    cases type' with
    | created => exact absurd type other
    | blocked =>
      simp only [handleTyped, handleBlocked, bind_eq_ok, pure_eq_ok, Prod.mk.injEq] at h
      obtain ⟨_, ⟨_, _, _, _, _, _, _, _, rfl⟩, -, rfl⟩ := h
      refine momentsOf_touch (f := momentsPatch e (returnsTo remembers w e t)) ?_ ?_ ..
      · intro r
        rfl
      · intro r
        rw [momentsPatch, type]
        rfl
    | unblocked =>
      simp only [handleTyped, handleUnblocked, bind_eq_ok, pure_eq_ok, Prod.mk.injEq] at h
      obtain ⟨_, ⟨v, hv, rfl⟩, -, rfl⟩ := h
      have back :
          ((t.ensureSkeleton (some w) projectId n).backTo remembers (some w) (openPhase v)).getD
          .inProgress = returnsTo remembers w e t := by
        unfold returnsTo payloadPhase
        rw [hv, backTo_eq, lifeOf_ensureSkeleton, if_pos rfl]
        cases t.lifeOf remembers w <;> rfl
      refine momentsOf_touch (f := momentsPatch e (returnsTo remembers w e t)) ?_ ?_ ..
      · intro r
        rfl
      · intro r
        rw [momentsPatch, type, ← back]
        rfl
    | closed | cancelled =>
      cases h
      simp only [handleClosed, handleCancelled, handleEnded]
      refine momentsOf_touch (f := momentsPatch e (returnsTo remembers w e t)) ?_ ?_ ..
      · intro r
        rfl
      · intro r
        rw [momentsPatch, type]
        rfl
    | _ =>
      cases h
      refine momentsOf_touch (f := momentsPatch e (returnsTo remembers w e t)) ?_ ?_ ..
      · intro r
        rfl
      · intro r
        rw [momentsPatch, type]
        rfl

theorem handleWorkOrder_moments (about : subject e = some w)
    (known : (WorkOrderEventType.ofText e.eventType).isSome = true)
    (new : t.isAlreadyProcessed e.eventId = false)
    (h : handleWorkOrder remembers e n t = .ok (count, t')) :
    t'.momentsOf w =
      some (momentsPatch e (returnsTo remembers w e t) ((t.momentsOf w).getD {})) := by
  rcases handleWorkOrder_cases h with
    ⟨processed, -⟩ | ⟨-, ⟨nothing, -⟩ | ⟨projectId, milestoneId, ⟨created, -⟩, h⟩ | ⟨projectId,
      ⟨other, -⟩, h⟩⟩
  · rw [new] at processed
    cases processed
  · rw [about] at nothing
    cases nothing
  · obtain ⟨row, rfl, own, moments, -⟩ := handleCreated_moments h
    rw [momentsOf_insertCreated (own.trans about) moments]
    simp only [momentsPatch, created]
  · rw [about] at h
    exact handleTyped_moments other known h

theorem handleWorkOrder_learns (h : handleWorkOrder remembers e n t = .ok (count, t')) (id : String)
    (seen : Remembers WorkOrderRow.marks t' id) :
    Remembers WorkOrderRow.marks t id ∨ id = e.eventId := by
  have old : ∀ r ∈ t, r.marks id → Remembers WorkOrderRow.marks t id ∨ id = e.eventId :=
    fun r hr marked => Or.inl ⟨r, hr, marked⟩
  obtain ⟨r, hr, marked⟩ := seen
  rcases handleWorkOrder_cases h with ⟨-, rfl⟩ | ⟨-, ⟨-, rfl⟩ | ⟨_, _, -, h⟩ | ⟨projectId, -, h⟩⟩
  · exact old r hr marked
  · exact old r hr marked
  · obtain ⟨row, rfl, -, -, rowMarks⟩ := handleCreated_moments h
    have source : row.sourceEventId = some e.eventId ∨ row.sourceEventId = none := by
      cases given : row.sourceEventId with
      | none => exact Or.inr rfl
      | some s => exact Or.inl (congrArg some (rowMarks s (Or.inl given)))
    have all : ∀ r ∈ t.insertCreated row, r.marks id → Remembers WorkOrderRow.marks t id ∨
        id = e.eventId := by
      refine Table.forall_update
        (Table.forall_insertOrIgnore old fun marked => Or.inr (rowMarks id marked))
        fun q before marked => ?_
      unfold WorkOrderRow.marks backfill at marked
      rcases source with given | none
      · rw [given] at marked
        exact (coalesce_marks marked).elim before Or.inr
      · rw [none] at marked
        simp only [coalesce, Option.or_none] at marked
        exact before marked
    exact all r hr marked
  · have skeleton : ∀ r ∈ t.ensureSkeleton (subject e) projectId n,
        r.marks id → Remembers WorkOrderRow.marks t id ∨ id = e.eventId :=
      Table.forall_insertOrIgnore old (by simp [WorkOrderRow.marks])
    rcases handleTyped_cases h with ⟨-, rfl⟩ | ⟨set, rfl, hset⟩
    · exact skeleton r hr marked
    · have sets : ∀ q, (q.marks id → Remembers WorkOrderRow.marks t id ∨ id = e.eventId) →
          (set q).marks id →
          Remembers WorkOrderRow.marks t id ∨ id = e.eventId := fun q before marked => by
        unfold WorkOrderRow.marks at marked
        rw [(hset q).2.1, (hset q).2.2.1] at marked
        exact (last_marks marked).elim before Or.inr
      rcases Table.mem_upsert hr with hr | rfl | ⟨q, hq, -, rfl⟩
      · exact skeleton r hr marked
      · exact sets _ (by simp [WorkOrderRow.marks]) marked
      · exact sets q (skeleton q hq) marked

/-- `WorkOrderProjection` on the events of one work order. -/
def workOrderConsumer (remembers : Bool) (w : String) : Consumer WorkOrderTable Event String where
  handle e n t := (handleWorkOrder remembers e n t).toOption.map (·.2)
  own e := subject e = some w && (WorkOrderEventType.ofText e.eventType).isSome
  key := (·.eventId)
  seen := Remembers WorkOrderRow.marks
  skips := by
    intro e n t seen
    unfold handleWorkOrder
    rw [if_pos (work_remembers.mp seen)]
    rfl
  learns := by
    intro e n t t' mine handled
    obtain ⟨⟨c, t''⟩, ok, rfl⟩ := Option.map_eq_some_iff.mp handled
    exact handleWorkOrder_learns (toOption_eq_some.mp ok)

/-- A new event does the same to two tables: both return a work order to the same phase. -/
def WorkSteady (remembers : Bool) (w : String) (e : Event) (s t : WorkOrderTable) : Prop :=
  WorkOrderEventType.ofText e.eventType = some .unblocked →
    returnsTo remembers w e s = returnsTo remembers w e t

/-- The row already has the status and the moment that the event sets. -/
def WorkStands (remembers : Bool) (w : String) (e : Event) (t : WorkOrderTable) : Prop :=
  ∃ m, t.momentsOf w = some m ∧ momentsPatch e (returnsTo remembers w e t) m = m

theorem momentsPatch_congr {e : Event} {back back' : WorkOrderStatus} {m : Moments} :
    momentsPatch e back m = momentsPatch e back' m ↔
      (WorkOrderEventType.ofText e.eventType = some .unblocked → back = back') := by
  unfold momentsPatch
  split <;> simp_all

theorem workOrderConsumer_law {remembers : Bool} {w : String} {e : Event} {clock : Nat}
    {a a' : WorkOrderTable} (own : (workOrderConsumer remembers w).own e = true)
    (new : ¬Remembers WorkOrderRow.marks a e.eventId)
    (handled : (workOrderConsumer remembers w).handle e clock a = some a') :
    a'.momentsOf w =
      some (momentsPatch e (returnsTo remembers w e a) ((a.momentsOf w).getD {})) := by
  have mine : (subject e = some w && (WorkOrderEventType.ofText e.eventType).isSome) = true := own
  rw [Bool.and_eq_true, decide_eq_true_eq] at mine
  obtain ⟨⟨c, t⟩, ok, rfl⟩ := Option.map_eq_some_iff.mp handled
  exact handleWorkOrder_moments mine.1 mine.2 (Bool.eq_false_iff.mpr (mt work_remembers.mpr new))
    (toOption_eq_some.mp ok)

theorem work_alike_iff (remembers : Bool) (w : String) (deliveries : List (Delivery Event)) :
    (workOrderConsumer remembers w).Alike (·.momentsOf w) [] deliveries ↔
      (workOrderConsumer remembers w).Spared (WorkSteady remembers w) (WorkStands remembers w) []
        deliveries := by
  refine Consumer.alike_iff_harmless ?_ ?_ (by simp [workOrderConsumer, Remembers]) deliveries
  · intro e clock a b a' b' own same newA newB handledA handledB
    rw [workOrderConsumer_law own newA handledA, workOrderConsumer_law own newB handledB, same,
      Option.some.injEq]
    exact momentsPatch_congr
  · intro e clock a a' own new handled
    have fresh : (WorkOrderEventType.ofText e.eventType).isSome = true := by
      have mine : (subject e = some w && (WorkOrderEventType.ofText e.eventType).isSome) = true :=
        own
      exact (Bool.and_eq_true_iff.mp mine).2
    rw [workOrderConsumer_law own new handled]
    unfold WorkStands
    cases a.momentsOf w with
    | none => simp
    | some m => simp

end Works

/-- Each of the four projections ends as if no event had come twice, after every delivery of a run
about one entity, exactly if each event that comes again is remembered or finds its row as it would
leave it. -/
theorem redelivered_iff (remembers : Bool) (keys : TaskKeys) (registered clients : Text → Bool)
    (w : {w : String // w ≠ ""}) (deliveries : List (Delivery Event)) :
    ((workOrderConsumer remembers w).Alike (·.momentsOf w) [] deliveries ↔
      (workOrderConsumer remembers w).Spared (WorkSteady remembers w) (WorkStands remembers w) []
        deliveries) ∧
    ((taskHandler keys w).consumer.Alike (taskHandler keys w).view [] deliveries ↔
      (taskHandler keys w).Spared deliveries) ∧
    ((milestoneHandler registered w).consumer.Alike (milestoneHandler registered w).view
      [] deliveries ↔
      (milestoneHandler registered w).Spared deliveries) ∧
    ((projectHandler clients w).consumer.Alike (projectHandler clients w).view [] deliveries ↔
      (projectHandler clients w).Spared deliveries) :=
  ⟨work_alike_iff remembers w deliveries, (taskHandler keys w).alike_iff deliveries,
    (milestoneHandler registered w).alike_iff deliveries,
      (projectHandler clients w).alike_iff deliveries⟩

def lateStart : List (Delivery Event) :=
  let event (type : WorkOrderEventType) (id ts : String) : Event :=
    { eventId := id, eventType := type.text, eventTimestamp := ts, payload := .obj []
      workOrderId := some "w" }
  [.first (event .created "e1" "2026-01-01T00:00:00Z") 0,
    .first (event .started "e2" "2026-01-02T00:00:00Z") 0,
    .first (event .closed "e3" "2026-01-03T00:00:00Z") 0, .again 1 0]

theorem lateStart_reopens :
    ¬∀ (remembers : Bool) (keys : TaskKeys) (registered clients : Text → Bool)
      (w : {w : String // w ≠ ""}) (deliveries : List (Delivery Event)),
      (workOrderConsumer remembers w).Alike (·.momentsOf w) [] deliveries ∧
      (taskHandler keys w).consumer.Alike (taskHandler keys w).view [] deliveries ∧
      (milestoneHandler registered w).consumer.Alike (milestoneHandler registered w).view
        [] deliveries ∧
      (projectHandler clients w).consumer.Alike (projectHandler clients w).view [] deliveries := by
  intro alike
  have run : ∃ a b c d, (workOrderConsumer true "w").twice.transitions ⟨[], [], []⟩ lateStart =
      [a, b, c, d] ∧ (d.after.once.momentsOf "w").map (·.status) = some .closed ∧
        (d.after.again.momentsOf "w").map (·.status) = some .inProgress :=
    ⟨_, _, _, _, rfl, rfl, rfl⟩
  obtain ⟨a, b, c, d, taken, closed, open_⟩ := run
  have same : d.after.once.momentsOf "w" = d.after.again.momentsOf "w" :=
    (alike true ⟨fun p _ => p, fun _ _ => true⟩ (fun _ => true) (fun _ => true) ⟨"w", by decide⟩
      lateStart).1 d (by simp [taken])
  rw [same, open_] at closed
  cases closed

end DreamStudio.Projections
