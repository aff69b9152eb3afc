import DreamStudio.Projections.Moved

namespace DreamStudio.Projections

open Library MilestoneTable

variable {registered : Text → Bool} {e : Event} {now n : Nat} {t t' : MilestoneTable} {w : String}
  {row : MilestoneRow}

structure MilestoneColumns where
  projectId : Text
  title : Text
  description : Text
  status : Text
  orderIndex : Text
  createdAt : Text
  deriving DecidableEq

def MilestoneRow.columns (r : MilestoneRow) : MilestoneColumns where
  projectId := r.projectId
  title := r.title
  description := r.description
  status := r.status
  orderIndex := r.orderIndex
  createdAt := r.createdAt

def MilestoneColumns.admits (c : MilestoneColumns) : Bool :=
  c.projectId.isSome && c.title.isSome && c.status.isSome && c.createdAt.isSome

def MilestoneColumns.fill (own c : MilestoneColumns) : MilestoneColumns where
  projectId := coalesce own.projectId c.projectId
  title :=
    coalesce (coalesce (if own.title = some MilestoneRow.skeletonTitle then c.title else none)
      own.title)
      c.title
  description := coalesce own.description c.description
  status := own.status
  orderIndex := own.orderIndex
  createdAt := coalesce own.createdAt c.createdAt

namespace Milestone

def isCreation (e : Event) : Bool := MilestoneEventType.ofText e.eventType = some .created

def givenIndex (e : Event) : Text :=
  (do bindParam ((← payloadGet (eventPayload e) "order_index").or (.int 0))).toOption.join

/-- The columns of the row an event inserts where there is none. -/
def brought (now : Nat) (e : Event) : MilestoneColumns where
  projectId := e.projectId
  title :=
    if isCreation e then givenText "title" MilestoneRow.skeletonTitle e
    else some MilestoneRow.skeletonTitle
  description := if isCreation e then payloadText e "description" else none
  status := if isCreation e then givenText "status" "pending" e else some "pending"
  orderIndex := if isCreation e then givenIndex e else some "0"
  createdAt := if isCreation e then some e.eventTimestamp else some (toString now)

/-- Whether `handle` can bind what it reads of an event. -/
def reads (e : Event) : Bool :=
  !isCreation e ||
    (binds (do
        return (← payloadGet (eventPayload e) "title").or (.str MilestoneRow.skeletonTitle)) &&
      binds (payloadGet (eventPayload e) "description") &&
      binds (do return (← payloadGet (eventPayload e) "status").or (.str "pending")) &&
      binds (do return (← payloadGet (eventPayload e) "order_index").or (.int 0)))

/-- Whether an event puts in a row where there is none. -/
def lays (registered : Text → Bool) (e : Event) : Bool :=
  reads e && (brought 0 e).admits && registered e.projectId

def ending (e : Event) : Text :=
  match MilestoneEventType.ofText e.eventType with
  | some .completed => some "complete"
  | some .deleted => some "deleted"
  | _ => none

def patched (e : Event) (brought own : MilestoneColumns) : MilestoneColumns :=
  if isCreation e then own.fill brought else { own with status := (ending e).or own.status }

/-- What an event makes of the columns of its milestone. -/
def step (registered : Text → Bool) (now : Nat) (e : Event) :
    Option MilestoneColumns → Option MilestoneColumns
  | none =>
    if lays registered e then some (patched e (brought now e) (brought now e)) else none
  | some own => if reads e then some (patched e (brought now e) own) else some own

end Milestone

open Milestone

def MilestoneTable.columnsOf (w : String) (t : MilestoneTable) : Option MilestoneColumns :=
  (Table.lookup MilestoneRow.key w t).map (·.columns)

section Rows

theorem milestone_insert_held {r : MilestoneRow} (own : row.key = some w)
    (held : Table.lookup MilestoneRow.key w t = some r) : t.insert registered row = .ok t := by
  obtain ⟨member, same⟩ := Table.lookup_key held
  have conflict : t.any (fun r => Table.SameKey MilestoneRow.key r row) = true :=
    List.any_eq_true.mpr ⟨r, member, decide_eq_true ⟨same.trans own.symm, by simp [same]⟩⟩
  simp [MilestoneTable.insert, Table.insertOrIgnore, conflict]

theorem milestone_insert_absent (own : row.key = some w)
    (absent : Table.lookup MilestoneRow.key w t = none) :
    t.insert registered row =
      if row.admits then
        if registered row.projectId then .ok (t ++ [row])
        else .error ⟨"FOREIGN KEY constraint failed", "sqlite3.IntegrityError"⟩
      else .ok t := by
  have free : t.any (fun r => Table.SameKey MilestoneRow.key r row) = false := by
    apply List.any_eq_false.mpr
    intro r member same
    have same := of_decide_eq_true same
    exact List.find?_eq_none.mp absent r member (decide_eq_true (same.1.trans own))
  rw [MilestoneTable.insert, Table.insertOrIgnore, free]
  cases row.admits <;> cases registered row.projectId <;> rfl

theorem milestone_set_columns {f : MilestoneRow → MilestoneRow}
    {g : MilestoneColumns → MilestoneColumns}
    (sets : ∀ r, (f r).key = r.key ∧ (f r).columns = g r.columns) :
    (t.set w f).columnsOf w = (t.columnsOf w).map g := by
  rw [MilestoneTable.columnsOf, MilestoneTable.columnsOf, MilestoneTable.set,
    Table.lookup_update fun r => (sets r).1, Option.map_map, Option.map_map]
  apply Option.map_congr
  intro r found
  have mine : r.key = some w := (Table.lookup_key found).2
  rw [Function.comp_apply, Function.comp_apply, decide_eq_true mine, if_pos rfl, (sets r).2]

theorem laid_columns {f : MilestoneRow → MilestoneRow} {g : MilestoneColumns → MilestoneColumns}
    (own : row.key = some w) (sets : ∀ r, (f r).key = r.key ∧ (f r).columns = g r.columns) :
    (((t.insert registered row).map (·.set w f)).toOption.getD t).columnsOf w =
      match t.columnsOf w with
      | none => if row.columns.admits && registered row.projectId then
        some (g row.columns) else none
      | some own => some (g own) := by
  cases held : Table.lookup MilestoneRow.key w t with
  | some r =>
    have columns : t.columnsOf w = some r.columns := congrArg (Option.map _) held
    rw [milestone_insert_held own held, columns]
    exact (milestone_set_columns sets).trans (congrArg (Option.map g) columns)
  | none =>
    have columns : t.columnsOf w = none := congrArg (Option.map _) held
    have admits : row.columns.admits = row.admits := rfl
    rw [milestone_insert_absent own held, columns, admits]
    cases row.admits with
    | false => exact (milestone_set_columns sets).trans (congrArg (Option.map g) columns)
    | true =>
      cases registered row.projectId with
      | false => exact columns
      | true =>
        have found : (t ++ [row]).columnsOf w = some row.columns := by
          rw [Table.lookup] at held
          rw [MilestoneTable.columnsOf, Table.lookup, List.find?_append, held]
          simp [own]
        exact (milestone_set_columns sets).trans (congrArg (Option.map g) found)

end Rows

section Handler

theorem MilestoneColumns.fill_self (c : MilestoneColumns) : c.fill c = c := by
  have title : coalesce (coalesce (if c.title = some MilestoneRow.skeletonTitle then c.title
      else none) c.title) c.title = c.title := by
    split <;> simp [coalesce]
  rw [fill, title]
  simp [coalesce]

theorem brought_admits_at (now now' : Nat) :
    (Milestone.brought now e).admits = (Milestone.brought now' e).admits := by
  rw [MilestoneColumns.admits, MilestoneColumns.admits, Milestone.brought, Milestone.brought]
  cases Milestone.isCreation e <;> rfl

theorem step_unread (unread : Milestone.reads e = false) (own : Option MilestoneColumns) :
    step registered now e own = own := by
  cases own with
  | none => simp [step, lays, unread]
  | some own => simp [step, unread]

theorem milestone_handleCreated (created : Milestone.isCreation e = true) (registered : Text → Bool)
    (now : Nat) (t : MilestoneTable) (w : String) :
    (Milestone.reads e = true ∧ ∃ row : MilestoneRow, row.key = some w ∧
      row.columns = Milestone.brought now e ∧ row.projectId = e.projectId ∧
      t.handleCreated registered w e.projectId (eventPayload e) e.eventId e.eventTimestamp now =
        ((t.insert registered row).map (·.set w (backfill row))).map (1, ·)) ∨
    (Milestone.reads e = false ∧ ∃ failure, t.handleCreated registered w e.projectId
      (eventPayload e) e.eventId e.eventTimestamp now = .error failure) := by
  rw [Milestone.reads, Milestone.brought, created, givenText, givenText, givenIndex, payloadText,
    MilestoneTable.handleCreated]
  cases eventPayload e with
  | obj fields =>
    simp only [payloadGet, ok_bind, pure, Except.pure, binds_ok]
    cases bindParam ((Json.lookup fields "title").or (.str MilestoneRow.skeletonTitle)) with
    | error failure => exact Or.inr ⟨rfl, failure, rfl⟩
    | ok title =>
      cases bindParam (Json.lookup fields "description") with
      | error failure => exact Or.inr ⟨rfl, failure, rfl⟩
      | ok description =>
        cases bindParam ((Json.lookup fields "status").or (.str "pending")) with
        | error failure => exact Or.inr ⟨rfl, failure, rfl⟩
        | ok status =>
          cases bindParam ((Json.lookup fields "order_index").or (.int 0)) with
          | error failure => exact Or.inr ⟨rfl, failure, rfl⟩
          | ok orderIndex =>
            let row : MilestoneRow := {
              milestoneId := some w, projectId := e.projectId, title := title
              description := description, status := status, orderIndex := orderIndex
              createdAt := some e.eventTimestamp, updatedAt := now
              sourceEventId := some e.eventId, lastEventId := some e.eventId }
            refine Or.inl ⟨rfl, row, rfl, rfl, rfl, ?_⟩
            cases inserted : t.insert registered row <;> simp [row, inserted, ok_bind] <;> rfl
  | _ => exact Or.inr ⟨rfl, _, rfl⟩

theorem created_milestone_columns (created : Milestone.isCreation e = true) :
    (((t.handleCreated registered w e.projectId (eventPayload e) e.eventId e.eventTimestamp
      now).map Prod.snd).toOption.getD t).columnsOf w =
        Milestone.step registered now e (t.columnsOf w) := by
  rcases milestone_handleCreated created registered now t w with
    ⟨read, row, own, columns, project, handled⟩ | ⟨unread, failure, handled⟩
  · have fills : ∀ r, (backfill row r).key = r.key ∧
        (backfill row r).columns = Milestone.patched e (Milestone.brought now e) r.columns := by
      intro r
      rw [Milestone.patched, if_pos created, ← columns]
      exact ⟨rfl, rfl⟩
    have settled : ∀ x : Except Failure MilestoneTable,
        (x.map (1, ·)).map (Prod.snd : Nat × MilestoneTable → MilestoneTable) = x := by
      intro x
      cases x <;> rfl
    rw [handled, settled, laid_columns own fills, columns, project, brought_admits_at now 0]
    cases t.columnsOf w with
    | none => rw [Milestone.step, Milestone.lays, read, Bool.true_and]
    | some own => rw [Milestone.step, if_pos read]
  · rw [handled, step_unread unread]
    rfl

theorem ended_milestone_columns (other : Milestone.isCreation e = false) :
    (((do
      let t ← t.ensureSkeleton registered w e.projectId now
      match MilestoneEventType.ofText e.eventType with
      | some .completed => return (1, t.handleCompleted w e.eventId now)
      | some .deleted => return (1, t.handleDeleted w e.eventId now)
      | _ => return (0, t) : Except Failure (Nat × MilestoneTable)).map Prod.snd).toOption.getD
        t).columnsOf w = Milestone.step registered now e (t.columnsOf w) := by
  let row : MilestoneRow :=
    { milestoneId := some w, projectId := e.projectId, title := some MilestoneRow.skeletonTitle
      createdAt := some (toString now), updatedAt := now }
  let f : MilestoneRow → MilestoneRow := fun r =>
    match Milestone.ending e with
    | some status =>
      { r with status := some status, updatedAt := now, lastEventId := some e.eventId }
    | none => r
  have sets : ∀ r, (f r).key = r.key ∧
      (f r).columns = Milestone.patched e (Milestone.brought now e) r.columns := by
    intro r
    rw [Milestone.patched, other]
    cases ending : Milestone.ending e with
    | none =>
      have same : f r = r := by simp [f, ending]
      rw [same]
      exact ⟨rfl, rfl⟩
    | some status =>
      have set : f r =
          { r with status := some status, updatedAt := now, lastEventId := some e.eventId } := by
        simp [f, ending]
      rw [set]
      exact ⟨rfl, rfl⟩
  have columns : row.columns = Milestone.brought now e := by
    rw [Milestone.brought, other]
    rfl
  have read : Milestone.reads e = true := by rw [Milestone.reads, other]; rfl
  have laid : (((t.insert registered row).map (·.set w f)).toOption.getD t).columnsOf w =
      Milestone.step registered now e (t.columnsOf w) := by
    rw [laid_columns rfl sets, columns, brought_admits_at now 0]
    cases t.columnsOf w with
    | none => rw [Milestone.step, Milestone.lays, read, Bool.true_and]
    | some own => rw [Milestone.step, if_pos read]
  refine Eq.trans ?_ laid
  rw [MilestoneTable.ensureSkeleton]
  cases t.insert registered row with
  | error failure => rfl
  | ok inserted =>
    rw [ok_bind]
    cases type : MilestoneEventType.ofText e.eventType with
    | none =>
      have same : inserted.set w f = inserted := by
        have same : f = id := by
          funext r
          simp [f, Milestone.ending, type]
        rw [same]
        exact update_id _ inserted
      exact congrArg (MilestoneTable.columnsOf w) same.symm
    | some type' =>
      have ends : ∀ status, Milestone.ending e = some status →
          f = fun r =>
            { r with status := some status, updatedAt := now, lastEventId := some e.eventId } := by
        intro status ending
        funext r
        simp [f, ending]
      cases type' with
      | created => exact absurd (decide_eq_true type) (Bool.eq_false_iff.mp other)
      | completed => rw [ends "complete" (by rw [Milestone.ending, type])]; rfl
      | deleted => rw [ends "deleted" (by rw [Milestone.ending, type])]; rfl

/-- What one call of `handle` leaves of the columns of the milestone. -/
theorem apply_milestone_columns (named : w ≠ "") (about : e.milestoneId = some w)
    (new : t.isAlreadyProcessed e.eventId = false) :
    ((milestoneProjection registered).apply now t e).columnsOf w =
      Milestone.step registered now e (t.columnsOf w) := by
  have settled : (milestoneProjection registered).apply now t e =
      ((handleMilestone registered e now t).map Prod.snd).toOption.getD t := by
    cases handled : handleMilestone registered e now t with
    | ok result => exact Projection.apply_ok handled
    | error failure => exact Projection.apply_error handled
  rw [settled, handleMilestone]
  simp only [new, about, Bool.false_eq_true, if_false, Option.getD_some, named]
  split
  next created => exact created_milestone_columns (decide_eq_true created)
  next other => exact ended_milestone_columns (decide_eq_false other)

end Handler

section Runs

variable {clock : Event → Nat} {events : List Event}

/-- The table that the events of a milestone leave, each handled at its own time. -/
def laidTable (registered : Text → Bool) (clock : Event → Nat) (events : List Event)
    (t : MilestoneTable) : MilestoneTable :=
  events.foldl (fun t e => (milestoneProjection registered).apply (clock e) t e) t

theorem apply_milestone_new {f : Event} (named : w ≠ "") (about : e.milestoneId = some w)
    (new : t.isAlreadyProcessed e.eventId = false) (other : f.eventId ≠ e.eventId)
    (unseen : t.isAlreadyProcessed f.eventId = false) :
    ((milestoneProjection registered).apply now t e).isAlreadyProcessed f.eventId = false := by
  cases handled : handleMilestone registered e now t with
  | error failure =>
    rw [Projection.apply_error handled]
    exact unseen
  | ok result =>
    rw [Projection.apply_ok handled]
    obtain ⟨row, f', p, landed⟩ := handleMilestone_lands named about new handled
    apply Bool.eq_false_iff.mpr
    intro processed
    rcases landed.learns f.eventId (milestone_remembers.mpr processed) with seen | same
    · exact Bool.eq_false_iff.mp unseen (milestone_remembers.mp seen)
    · exact other same

theorem laidTable_columns (named : w ≠ "") (about : ∀ e ∈ events, e.milestoneId = some w)
    (ids : (events.map (·.eventId)).Nodup)
    (new : ∀ e ∈ events, t.isAlreadyProcessed e.eventId = false) :
    (laidTable registered clock events t).columnsOf w =
      events.foldl (fun own e => Milestone.step registered (clock e) e own) (t.columnsOf w) := by
  induction events generalizing t with
  | nil => rfl
  | cons e events ih =>
    rw [List.forall_mem_cons] at about new
    obtain ⟨idHere, idRest⟩ := List.nodup_cons.mp ids
    have later := ih (t := (milestoneProjection registered).apply (clock e) t e) about.2 idRest
    rw [apply_milestone_columns named about.1 new.1] at later
    apply later
    intro f hf
    apply apply_milestone_new named about.1 new.1 _ (new.2 f hf)
    intro same
    exact idHere (List.mem_map.mpr ⟨f, hf, same⟩)

def lastEnding (events : List Event) : Text :=
  events.foldl (fun last e => (Milestone.ending e).or last) none

theorem foldl_ending (last : Text) :
    events.foldl (fun last e => (Milestone.ending e).or last) last =
      (lastEnding events).or last := by
  induction events generalizing last with
  | nil => rfl
  | cons e events ih =>
    rw [lastEnding, List.foldl_cons, List.foldl_cons, ih, ih, Option.or_none, Option.or_assoc]

theorem lastEnding_cons (e : Event) (events : List Event) :
    lastEnding (e :: events) = (lastEnding events).or (Milestone.ending e) := by
  rw [lastEnding, List.foldl_cons, foldl_ending, Option.or_none]

theorem lastEnding_append (before after : List Event) :
    lastEnding (before ++ after) = (lastEnding after).or (lastEnding before) := by
  rw [lastEnding, List.foldl_append, foldl_ending]
  rfl

theorem foldl_step_some (others : ∀ e ∈ events, Milestone.isCreation e = false)
    (own : MilestoneColumns) :
    events.foldl (fun own e => Milestone.step registered (clock e) e own) (some own) =
      some { own with status := (lastEnding events).or own.status } := by
  induction events generalizing own with
  | nil => rfl
  | cons e events ih =>
    rw [List.forall_mem_cons] at others
    have here : Milestone.step registered (clock e) e (some own) =
        some { own with status := (Milestone.ending e).or own.status } := by
      rw [Milestone.step, Milestone.reads, Milestone.patched, others.1]
      rfl
    rw [List.foldl_cons, here, ih others.2, lastEnding_cons, Option.or_assoc]

theorem foldl_step_isSome (own : Option MilestoneColumns) :
    (events.foldl (fun own e => Milestone.step registered (clock e) e own) own).isSome = true ↔
      own.isSome = true ∨ ∃ f ∈ events, Milestone.lays registered f = true := by
  induction events generalizing own with
  | nil => simp
  | cons e events ih =>
    have here : (Milestone.step registered (clock e) e own).isSome = true ↔
        own.isSome = true ∨ Milestone.lays registered e = true := by
      cases own with
      | none =>
        rw [Milestone.step]
        cases Milestone.lays registered e <;> simp
      | some own =>
        rw [Milestone.step]
        split <;> simp
    rw [List.foldl_cons, ih, here, List.exists_mem_cons_iff, or_assoc]

theorem foldl_step_none (bare : ∀ e ∈ events, Milestone.lays registered e = false) :
    events.foldl (fun own e => Milestone.step registered (clock e) e own) none = none := by
  apply Option.not_isSome_iff_eq_none.mp
  rw [foldl_step_isSome]
  rintro (none | ⟨f, member, lays⟩)
  · cases none
  · exact absurd lays (Bool.eq_false_iff.mp (bare f member))

variable (clock) in
theorem foldl_step_laid {f : Event} (others : ∀ e ∈ events, Milestone.isCreation e = false)
    (first : events.find? (Milestone.lays registered) = some f) :
    ∃ own, events.foldl (fun own e => Milestone.step registered (clock e) e own) none = some own ∧
      own.title = some MilestoneRow.skeletonTitle ∧ own.description = none ∧
      own.createdAt = some (toString (clock f)) ∧ own.projectId.isSome = true := by
  induction events with
  | nil => cases first
  | cons e events ih =>
    rw [List.forall_mem_cons] at others
    rw [List.find?_cons] at first
    cases lays : Milestone.lays registered e with
    | true =>
      rw [lays] at first
      cases first
      have here : Milestone.step registered (clock f) f none =
          some (Milestone.patched f (Milestone.brought (clock f) f)
            (Milestone.brought (clock f) f)) := if_pos lays
      have project : f.projectId.isSome = true := by
        rw [Milestone.lays, Milestone.brought, MilestoneColumns.admits] at lays
        simp only [Bool.and_eq_true] at lays
        exact lays.1.2.1.1.1
      rw [List.foldl_cons, here, foldl_step_some others.2, Milestone.patched, Milestone.brought,
        others.1]
      exact ⟨_, rfl, rfl, rfl, rfl, project⟩
    | false =>
      rw [lays] at first
      have here : Milestone.step registered (clock e) e none = none :=
        if_neg (Bool.eq_false_iff.mp lays)
      rw [List.foldl_cons, here]
      exact ih others.2 first

end Runs

structure MilestoneCreated (w : String) where
  before : List Event
  created : Event
  after : List Event
  named : w ≠ ""
  about : ∀ e ∈ before ++ created :: after, e.milestoneId = some w
  isCreation : Milestone.isCreation created = true
  others : ∀ e ∈ before ++ after, Milestone.isCreation e = false
  ids : ((before ++ created :: after).map (·.eventId)).Nodup

namespace MilestoneCreated

variable (registered : Text → Bool) (l : MilestoneCreated w)

def late : List Event := l.before ++ l.created :: l.after

/-- The creation moved to the front. -/
def early : List Event := l.created :: (l.before ++ l.after)

/-- Both orders leave the milestone alike, whenever their events are handled. -/
def Same : Prop :=
  ∀ clock, (laidTable registered clock l.late []).columnsOf w =
    (laidTable registered clock l.early []).columnsOf w

def StatusKept : Prop :=
  lastEnding l.after = none → ∀ status, lastEnding l.before = some status →
    givenText "status" "pending" l.created = some status

/-- The creation has nothing for a skeleton. -/
def Idle : Prop :=
  (givenText "title" MilestoneRow.skeletonTitle l.created = none ∨
    givenText "title" MilestoneRow.skeletonTitle l.created = some MilestoneRow.skeletonTitle) ∧
  payloadText l.created "description" = none

/-- No skeleton is laid before a creation that lays a row, and its status is kept; or the creation
lays none, and is idle where there is a skeleton. -/
def Settled : Prop :=
  Milestone.reads l.created = true →
    if Milestone.lays registered l.created = true then
      (∀ e ∈ l.before, Milestone.lays registered e = false) ∧ l.StatusKept
    else (∃ e ∈ l.before, Milestone.lays registered e = true) → l.Idle

variable {registered l} {clock : Event → Nat}

theorem early_perm : l.early.Perm l.late := List.perm_middle.symm

theorem late_columns :
    (laidTable registered clock l.late []).columnsOf w =
      l.after.foldl (fun own e => Milestone.step registered (clock e) e own)
        (Milestone.step registered (clock l.created) l.created
          (l.before.foldl (fun own e => Milestone.step registered (clock e) e own) none)) := by
  rw [late, laidTable_columns l.named l.about l.ids fun _ _ => rfl, List.foldl_append,
    List.foldl_cons]
  rfl

theorem early_columns :
    (laidTable registered clock l.early []).columnsOf w =
      (l.before ++ l.after).foldl (fun own e => Milestone.step registered (clock e) e own)
        (Milestone.step registered (clock l.created) l.created none) := by
  have about : ∀ e ∈ l.early, e.milestoneId = some w := fun e member =>
    l.about e (early_perm.mem_iff.mp member)
  have ids : (l.early.map (·.eventId)).Nodup := (early_perm.map _).nodup_iff.mpr l.ids
  rw [laidTable_columns l.named about ids fun _ _ => rfl]
  rfl

theorem before_others : ∀ e ∈ l.before, Milestone.isCreation e = false :=
  fun e member => l.others e (List.mem_append_left l.after member)

theorem after_others : ∀ e ∈ l.after, Milestone.isCreation e = false :=
  fun e member => l.others e (List.mem_append_right l.before member)

variable (clock) in
theorem same_of_bare (lays : Milestone.lays registered l.created = true)
    (bare : ∀ e ∈ l.before, Milestone.lays registered e = false) :
    (laidTable registered clock l.late []).columnsOf w =
      (laidTable registered clock l.early []).columnsOf w ↔ l.StatusKept := by
  set own := Milestone.brought (clock l.created) l.created with brings
  have laid : Milestone.step registered (clock l.created) l.created none = some own := by
    rw [Milestone.step, if_pos lays, Milestone.patched, if_pos l.isCreation,
      MilestoneColumns.fill_self]
  have status : own.status = givenText "status" "pending" l.created := by
    rw [brings, Milestone.brought, l.isCreation]
    rfl
  have given : own.status.isSome = true := by
    have admits : own.admits = true := by
      rw [Milestone.lays, Bool.and_eq_true, Bool.and_eq_true] at lays
      exact (brought_admits_at _ 0).trans lays.1.2
    simp only [MilestoneColumns.admits, Bool.and_eq_true] at admits
    exact admits.1.2
  rw [late_columns, early_columns, foldl_step_none bare, laid, foldl_step_some after_others,
    foldl_step_some l.others, lastEnding_append, StatusKept, ← status]
  obtain ⟨s, given⟩ := Option.isSome_iff_exists.mp given
  rw [given]
  cases lastEnding l.after with
  | some status => simp
  | none =>
    cases lastEnding l.before with
    | none => simp
    | some status => simp

theorem not_same_of_laid {f : Event} (lays : Milestone.lays registered l.created = true)
    (first : l.before.find? (Milestone.lays registered) = some f) : ¬l.Same registered := by
  intro same
  have read : Milestone.reads l.created = true := by
    rw [Milestone.lays, Bool.and_eq_true, Bool.and_eq_true] at lays
    exact lays.1.1
  have stamp : ∀ now : Nat, some (toString now) = (some l.created.eventTimestamp : Text) := by
    intro now
    have columns := same fun _ => now
    obtain ⟨own, before, -, -, createdAt, -⟩ :=
      foldl_step_laid (fun _ => now) before_others first
    have held : Milestone.step registered now l.created (some own) =
        some (Milestone.patched l.created (Milestone.brought now l.created) own) := if_pos read
    have absent : Milestone.step registered now l.created none =
        some (Milestone.patched l.created (Milestone.brought now l.created)
          (Milestone.brought now l.created)) := if_pos lays
    rw [late_columns, early_columns, before, held, absent, foldl_step_some after_others,
      foldl_step_some l.others, Milestone.patched,
      Milestone.patched, if_pos l.isCreation, if_pos l.isCreation, MilestoneColumns.fill_self,
      MilestoneColumns.fill, Milestone.brought, if_pos l.isCreation] at columns
    have times := congrArg MilestoneColumns.createdAt (Option.some.inj columns)
    rw [createdAt, l.isCreation] at times
    exact times
  exact absurd ((stamp 0).trans (stamp 1).symm) (by decide)

theorem same_of_unlaid (read : Milestone.reads l.created = true)
    (unlaid : Milestone.lays registered l.created = false) :
    l.Same registered ↔ ((∃ e ∈ l.before, Milestone.lays registered e = true) → l.Idle) := by
  have nothing : ∀ now, Milestone.step registered now l.created none = none := by
    intro now
    exact if_neg (Bool.eq_false_iff.mp unlaid)
  cases first : l.before.find? (Milestone.lays registered) with
  | none =>
    have bare : ∀ e ∈ l.before, Milestone.lays registered e = false := by
      intro e member
      exact Bool.eq_false_iff.mpr (List.find?_eq_none.mp first e member)
    apply iff_of_true
    · intro clock
      rw [late_columns, early_columns, foldl_step_none bare, nothing, List.foldl_append,
        foldl_step_none bare]
    · rintro ⟨e, member, lays⟩
      exact absurd lays (Bool.eq_false_iff.mp (bare e member))
  | some f =>
    have here : ∃ e ∈ l.before, Milestone.lays registered e = true :=
      ⟨f, List.mem_of_find?_eq_some first, List.find?_some first⟩
    have meets : ∀ clock : Event → Nat, (laidTable registered clock l.late []).columnsOf w =
        (laidTable registered clock l.early []).columnsOf w ↔ l.Idle := by
      intro clock
      obtain ⟨own, before, title, description, createdAt, project⟩ :=
        foldl_step_laid clock before_others first
      rw [late_columns, early_columns, nothing, List.foldl_append, before, Milestone.step,
        if_pos read, foldl_step_some after_others, foldl_step_some after_others,
        Milestone.patched, if_pos l.isCreation, MilestoneColumns.fill, Milestone.brought,
        l.isCreation, Idle]
      obtain ⟨project', hasProject⟩ := Option.isSome_iff_exists.mp project
      cases own
      cases title
      cases description
      cases createdAt
      cases hasProject
      simp only [coalesce, if_pos, Option.some.injEq, MilestoneColumns.mk.injEq, Option.some_or,
        Option.none_or, true_and, and_true]
      cases givenText "title" MilestoneRow.skeletonTitle l.created <;> simp
    rw [imp_iff_right here]
    exact ⟨fun same => (meets fun _ => 0).mp (same _), fun idle clock => (meets clock).mpr idle⟩

theorem same_iff : l.Same registered ↔ l.Settled registered := by
  cases read : Milestone.reads l.created with
  | false =>
    apply iff_of_true
    · intro clock
      rw [late_columns, early_columns, step_unread read, step_unread read, List.foldl_append]
    · intro yes
      exact absurd yes (Bool.eq_false_iff.mp read)
  | true =>
    rw [Settled, imp_iff_right read]
    cases lays : Milestone.lays registered l.created with
    | false =>
      rw [if_neg Bool.false_ne_true]
      exact same_of_unlaid read lays
    | true =>
      rw [if_pos rfl]
      cases first : l.before.find? (Milestone.lays registered) with
      | some f =>
        apply iff_of_false (not_same_of_laid lays first)
        rintro ⟨bare, -⟩
        exact absurd (List.find?_some first)
          (Bool.eq_false_iff.mp (bare f (List.mem_of_find?_eq_some first)))
      | none =>
        have bare : ∀ e ∈ l.before, Milestone.lays registered e = false := by
          intro e member
          exact Bool.eq_false_iff.mpr (List.find?_eq_none.mp first e member)
        have at_ := fun clock => same_of_bare clock lays bare
        rw [and_iff_right bare]
        exact ⟨fun same => (at_ fun _ => 0).mp (same _), fun kept clock => (at_ clock).mpr kept⟩

end MilestoneCreated

/-- The place of a creation among the events of its milestone is nothing to the row exactly where
its row is settled; and a call that reports its event applied leaves a row exactly where an event so
far could lay one. -/
theorem laid_iff (registered : Text → Bool) (w : String) :
    (∀ l : MilestoneCreated w, l.Same registered ↔ l.Settled registered) ∧
    ∀ (clock : Event → Nat) (events : List Event) (e : Event) (t' : MilestoneTable), w ≠ "" →
      (∀ f ∈ events ++ [e], f.milestoneId = some w) → ((events ++ [e]).map (·.eventId)).Nodup →
      handleMilestone registered e (clock e) (laidTable registered clock events []) = .ok (1, t') →
      ((t'.columnsOf w).isSome = true ↔
        ∃ f ∈ events ++ [e], Milestone.lays registered f = true) := by
  refine ⟨fun l => MilestoneCreated.same_iff, ?_⟩
  intro clock events e t' named about ids handled
  have run : laidTable registered clock (events ++ [e]) [] = t' := by
    rw [laidTable, List.foldl_append]
    exact Projection.apply_ok handled
  rw [← run, laidTable_columns named about ids fun _ _ => rfl, foldl_step_isSome]
  exact or_iff_right Bool.false_ne_true

def completedFirst : MilestoneCreated "m" where
  before := [{ eventId := "e2", eventType := MilestoneEventType.completed.text
               eventTimestamp := "2026-01-02T00:00:00Z", payload := .obj []
               milestoneId := some "m", projectId := some "p" }]
  created := { eventId := "e1", eventType := MilestoneEventType.created.text
               eventTimestamp := "2026-01-01T00:00:00Z"
               payload := .obj [("title", .str "beta"), ("order_index", .int 3)]
               milestoneId := some "m", projectId := some "p" }
  after := []
  named := by decide
  about := by decide
  isCreation := rfl
  others := by decide
  ids := by decide

/-- The creation's time and index are lost to the skeleton; and a completion without a project is
reported applied where there is no row. -/
theorem completedFirst_drops :
    (¬∀ (registered : Text → Bool) (w : String) (l : MilestoneCreated w), l.Same registered) ∧
    ∃ (e : Event) (t' : MilestoneTable), e.milestoneId = some "m" ∧
      handleMilestone (fun _ => true) e 0 [] = .ok (1, t') ∧ t'.columnsOf "m" = none := by
  constructor
  · intro same
    have columns := same (fun _ => true) "m" completedFirst fun _ => 0
    revert columns
    decide +kernel
  · exact ⟨{ eventId := "e", eventType := MilestoneEventType.completed.text
             eventTimestamp := "2026-01-02T00:00:00Z", payload := .obj []
             milestoneId := some "m" },
      _, rfl, rfl, rfl⟩

end DreamStudio.Projections
