import DreamStudio.Projections.Agreement
import DreamStudio.Projections.Rebuild
import DreamStudio.WorkOrders.Boundary
import DreamStudio.WorkOrders.Columns
import DreamStudio.WorkOrders.Criteria

namespace DreamStudio.WorkOrders

open Library Projections

/-- What `create_work_order` looks up. -/
structure Registry where
  projects : List String
  milestones : List String
  types : List String

/-- The arguments of `create_work_order`. -/
structure Brief where
  projectId : String
  milestoneId : Text
  title : String
  description : String
  workOrderType : Text := none
  priority : String := Priority.normal.text
  originatingSymptom : Text := none
  moduleBoundary : Option ModuleBoundary := none

namespace Brief

/-- `_MIN_DESCRIPTION_CHARS`. -/
def minDescriptionChars : Nat := 60

/-- What `create_work_order` refuses. -/
def refusal (registry : Registry) (b : Brief) : Option String :=
  match b.milestoneId with
  | none => some "milestone_id is required: every work order must belong to a milestone"
  | some milestoneId =>
    let named := b.workOrderType.getD ""
    let length := (pyStrip b.description).length
    if b.priority ∉ Priority.all.map (·.text) then
      some ("priority '" ++ b.priority ++ "' is not one the platform declares. Valid: " ++
        ", ".intercalate (Priority.all.map (·.text)) ++ ". The queue sorts on this, so an " ++
        "unrecognised value is not a label that reads oddly -- it decides when the work is picked up.")
    else if named ≠ "" ∧ named ∉ registry.types then
      some ("work_order_type '" ++ named ++ "' is not one the platform declares. Valid: " ++
        ", ".intercalate registry.types ++ ".")
    else if length < minDescriptionChars then
      some ("description is required: a work order is the prompt for the tasks under it, so it must " ++
        "say what is being done and why (at least " ++ toString minDescriptionChars ++
        " characters; got " ++ toString length ++
        "). The module boundary is composed in separately and does not count.")
    else if b.projectId ∉ registry.projects then some ("Project not found: " ++ b.projectId)
    else if milestoneId ∉ registry.milestones then some ("Milestone not found: " ++ milestoneId)
    else none

def creation (b : Brief) (workOrderId : {id : String // id ≠ ""}) (eventId : String) (now : Now) :
    Creation where
  workOrderId := workOrderId
  named := workOrderId.2
  projectId := b.projectId
  milestoneId := b.milestoneId
  title := b.title
  type := b.workOrderType.getD ""
  description := composeModuleBoundary b.description b.moduleBoundary
  originatingSymptom := b.originatingSymptom
  eventId := eventId
  now := now

end Brief

/-- The event of `set_sequence_order`. -/
def reorderedEvent (r : WorkOrderRow) (sequenceOrder : Int) (eventId : String) (now : Now) :
    Event where
  eventId := eventId
  eventType := "work_order.reordered"
  eventTimestamp := now.iso
  payload := .obj
    [("work_order_id", .ofOption r.workOrderId), ("title", .ofOption r.title),
      ("sequence_order", .int sequenceOrder), ("project_id", .ofOption r.projectId)]
  workOrderId := r.workOrderId
  projectId := r.projectId

/-- The event of `amend_module_boundary`. -/
def boundaryAmendedEvent (r : WorkOrderRow) (a : Amendment) (eventId : String) (now : Now) :
    Event where
  eventId := eventId
  eventType := "work_order.boundary_amended"
  eventTimestamp := now.iso
  payload := .obj
    [("module_boundary", .arr (a.moduleBoundary.map .str)),
      ("previous", .arr (a.previous.map .str)),
      ("reason", .str a.reason), ("description", .str a.description)]
  workOrderId := r.workOrderId
  projectId := r.projectId

inductive Ask
  | create (brief : Brief) (workOrderId : {id : String // id ≠ ""}) (clock : Nat)
  | setSequenceOrder (workOrderId : String) (sequenceOrder : Int)
  | amend (workOrderId moduleBoundary reason : String) (present : String → Bool)
  | lifecycle (workOrderId : String) (call : Call)

inductive DeskAction
  | call (eventId : String) (now : Now) (ask : Ask)
  | tick (clock : Nat)

structure Desk where
  authority : Authority WorkOrderTable := { target := [] }
  pending : List Event := []

abbrev applyEvent (remembers : Bool) (clock : Nat) : WorkOrderTable → Event → WorkOrderTable :=
  (workOrderProjection remembers).apply clock

def setRow (workOrderId : String) (set : WorkOrderRow → WorkOrderRow) (t : WorkOrderTable) :
    WorkOrderTable :=
  Table.update (fun r => r.key = some workOrderId) set t

namespace Desk

def rows (d : Desk) : WorkOrderTable := d.authority.target

def log (d : Desk) : List Event := d.authority.businessEvents

def find (d : Desk) (workOrderId : String) : Option WorkOrderRow :=
  Table.lookup WorkOrderRow.key workOrderId d.rows

section Steps

variable (py : Stdlib) (registry : Registry) (remembers : Bool) (d : Desk)

/-- A write, and its event ingested. -/
def record (live : WorkOrderTable) (e : Event) : Desk where
  authority := { d.authority.ingest .business e with target := live }
  pending := if (workOrderProjection remembers).consumes e then d.pending ++ [e] else d.pending

def tick (clock : Nat) : Desk where
  authority := { d.authority with target := d.pending.foldl (applyEvent remembers clock) d.rows }
  pending := []

def perform (eventId : String) (now : Now) : Ask → Option Desk
  | .create brief workOrderId clock =>
    if (d.find workOrderId).isSome then none
    else
      match brief.refusal registry with
      | some _ => some d
      | none =>
        let created := (brief.creation workOrderId eventId now).emit (some brief.priority)
        some ((d.record remembers d.rows created).tick remembers clock)
  | .setSequenceOrder workOrderId sequenceOrder =>
    match d.find workOrderId with
    | none => some d
    | some r =>
      some (d.record remembers
        (setRow workOrderId (fun r =>
          { r with sequenceOrder := some sequenceOrder, lastUpdatedAt := now.micros }) d.rows)
        (reorderedEvent r sequenceOrder eventId now))
  | .amend workOrderId moduleBoundary reason present =>
    match d.find workOrderId with
    | none => some d
    | some r =>
      match amendModuleBoundary py present r.description moduleBoundary reason with
      | .error _ => some d
      | .ok a =>
        some (d.record remembers
          (setRow workOrderId (fun r => { r with description := some a.description }) d.rows)
          (boundaryAmendedEvent r a eventId now))
  | .lifecycle workOrderId call =>
    match d.find workOrderId with
    | none => some d
    | some r =>
      match call.check workOrderId r.status with
      | .proceeds flight =>
        let u := flight.update remembers r
        some (d.record remembers (setRow workOrderId (u.write remembers now) d.rows)
          (u.emit r eventId now))
      | _ => some d

/-- The calls come one after another: each is later than every event so far, under an id of its
own. -/
def step : DeskAction → Option Desk
  | .call eventId now ask =>
    if ∀ e ∈ d.log, e.eventTimestamp < now.iso ∧ e.eventId ≠ eventId then
      d.perform py registry remembers eventId now ask
    else none
  | .tick clock => some (d.tick remembers clock)

end Steps

def machine (py : Stdlib) (registry : Registry) (remembers : Bool) : Machine Desk DeskAction where
  step := step py registry remembers

def rebuilt (remembers : Bool) (clock : Nat) (d : Desk) : WorkOrderTable :=
  (d.authority.rebuild (workOrderProjection remembers) (fun _ => none) clock).target

end Desk

def authored (t : WorkOrderTable) (workOrderId : String) : Option (Text × Option Int) :=
  (Table.lookup WorkOrderRow.key workOrderId t).map fun r => (r.description, r.sequenceOrder)

/-- A rebuild leaves what authors wrote. -/
def Desk.Lossless (remembers : Bool) (clock : Nat) (d : Desk) : Prop :=
  ∀ workOrderId, authored (d.rebuilt remembers clock) workOrderId = authored d.rows workOrderId

/-- The calls that write no column without an event the projection stores: an order set on no work
order, an amendment that composes the description there is, and every other call. -/
def Desk.Harmless (py : Stdlib) (d : Desk) : DeskAction → Prop
  | .call _ _ (.setSequenceOrder workOrderId _) => d.find workOrderId = none
  | .call _ _ (.amend workOrderId moduleBoundary reason present) =>
    ∀ r ∈ d.find workOrderId, ∀ a,
      amendModuleBoundary py present r.description moduleBoundary reason = .ok a →
        r.description = some a.description
  | _ => True

section Applied

open WorkOrderTable

variable {remembers : Bool} {clock : Nat} {t : WorkOrderTable} {log : List Event}

theorem authored_isSome (t : WorkOrderTable) (workOrderId : String) :
    (authored t workOrderId).isSome = (Table.lookup WorkOrderRow.key workOrderId t).isSome := by
  simp [authored]

def Follows (t : WorkOrderTable) (e : Event) : Prop :=
  WorkOrderEventType.ofText e.eventType ≠ some .created ∧
    ∀ w, subject e = some w → (authored t w).isSome = true

theorem Follows.congr {e : Event} (h : Follows t e) {t' : WorkOrderTable}
    (same : ∀ w, (authored t' w).isSome = (authored t w).isSome) : Follows t' e :=
  ⟨h.1, fun w hw => (same w).trans (h.2 w hw)⟩

theorem ensureSkeleton_authored {workOrderId : Text}
    (present : ∀ w, workOrderId = some w → (authored t w).isSome = true) (projectId : Text)
    (w : String) :
    authored (t.ensureSkeleton workOrderId projectId clock) w = authored t w := by
  unfold authored
  rw [lookup_ensureSkeleton]
  cases found : Table.lookup WorkOrderRow.key w t with
  | some r => rfl
  | none =>
    have absent : workOrderId ≠ some w := fun about => by
      have held := present w about
      rw [authored_isSome, found] at held
      cases held
    rw [if_neg absent]
    rfl

theorem safeUpsert_authored {workOrderId : Text} {set : WorkOrderRow → WorkOrderRow}
    (keeps : ∀ r, (set r).key = r.key ∧ (set r).description = r.description ∧
      (set r).sequenceOrder = r.sequenceOrder)
    (present : ∀ w, workOrderId = some w → (authored t w).isSome = true) (w : String) :
    authored (t.safeUpsert workOrderId set) w = authored t w := by
  unfold authored safeUpsert
  by_cases about : workOrderId = some w
  · have held := present w about
    rw [authored_isSome] at held
    obtain ⟨r, found⟩ := Option.isSome_iff_exists.mp held
    rw [Table.lookup_upsert (fun r => (keeps r).1) (by exact about), found]
    simp [keeps r]
  · rw [Table.lookup_upsert_of_ne (fun r => (keeps r).1) (by exact about)]

theorem applyEvent_authored {e : Event} (follows : Follows t e) (w : String) :
    authored (applyEvent remembers clock t e) w = authored t w := by
  unfold applyEvent Projection.apply
  split
  next n t' handled =>
    rcases handleWorkOrder_cases handled with
      ⟨-, rfl⟩ | ⟨-, ⟨-, rfl⟩ | ⟨_, _, ⟨created, -⟩, -⟩ | ⟨projectId, -, typed⟩⟩
    · rfl
    · rfl
    · exact absurd created follows.1
    · have skeleton : ∀ w, authored (t.ensureSkeleton (subject e) projectId clock) w =
          authored t w :=
        ensureSkeleton_authored follows.2 projectId
      rcases handleTyped_cases typed with ⟨-, rfl⟩ | ⟨set, rfl, hset⟩
      · exact skeleton w
      · have keeps : ∀ r, (set r).key = r.key ∧ (set r).description = r.description ∧
            (set r).sequenceOrder = r.sequenceOrder := fun r =>
          ⟨(hset r).1, congrArg Carried.description (hset r).2.2.2.1, (hset r).2.2.2.2.1⟩
        rw [safeUpsert_authored keeps fun w hw => by rw [skeleton]; exact follows.2 w hw]
        exact skeleton w
  next => rfl

theorem foldl_authored {events : List Event} (follows : ∀ e ∈ events, Follows t e) (w : String) :
    authored (events.foldl (applyEvent remembers clock) t) w = authored t w := by
  induction events generalizing t with
  | nil => rfl
  | cons e events ih =>
    obtain ⟨first, rest⟩ := List.forall_mem_cons.mp follows
    have here : ∀ w, authored (applyEvent remembers clock t e) w = authored t w :=
      applyEvent_authored first
    rw [List.foldl_cons, ih fun f hf => (rest f hf).congr fun w => by rw [here]]
    exact here w

theorem traced_mono {events : List Event} (traced : Traced log t) (sub : log ⊆ events) :
    Traced events t := by
  intro r hr id hid
  obtain ⟨f, hf, same⟩ := traced r hr id hid
  exact ⟨f, sub hf, same⟩

theorem applyEvent_traced {e : Event} (traced : Traced log t) (stored : e ∈ log) :
    Traced log (applyEvent remembers clock t e) := by
  unfold applyEvent Projection.apply
  split
  next n t' handled =>
    exact traced_mono (handleWorkOrder_traced traced handled)
      (List.cons_subset.mpr ⟨stored, List.Subset.refl _⟩)
  next => exact traced

theorem foldl_traced {events : List Event} (traced : Traced log t) (stored : events ⊆ log) :
    Traced log (events.foldl (applyEvent remembers clock) t) := by
  induction events generalizing t with
  | nil => exact traced
  | cons e events ih =>
    obtain ⟨first, rest⟩ := List.cons_subset.mp stored
    exact ih (applyEvent_traced traced first) rest

theorem traced_unprocessed (traced : Traced log t) {eventId : String}
    (fresh : ∀ e ∈ log, e.eventId ≠ eventId) : t.isAlreadyProcessed eventId = false := by
  refine List.any_eq_false.mpr fun r hr held => ?_
  obtain ⟨f, hf, same, -⟩ := traced r hr eventId (of_decide_eq_true held)
  exact fresh f hf same

theorem applyEvent_created (c : Creation) (priority : Option String)
    (new : t.isAlreadyProcessed c.eventId = false) (absent : authored t c.workOrderId = none)
    (w : String) :
    authored (applyEvent remembers clock t (c.emit priority)) w =
      if w = c.workOrderId then some (some c.description, none) else authored t w := by
  obtain ⟨p, m, handled⟩ := handleWorkOrder_created remembers c priority clock new
  have applied : applyEvent remembers clock t (c.emit priority) =
      t.insertCreated (c.row priority p m clock) := Projection.apply_ok handled
  rw [applied]
  unfold authored insertCreated at *
  rw [Table.lookup_update (by intro r; rfl), Table.lookup_insertOrIgnore rfl]
  have key : (c.row priority p m clock).key = some c.workOrderId := rfl
  rw [key]
  by_cases about : w = c.workOrderId
  · subst about
    rw [Option.map_eq_none_iff.mp absent, if_pos rfl, if_pos rfl, Option.none_or, Option.map_some,
      Option.map_some]
    split <;> rfl
  · have other : some c.workOrderId ≠ some w := fun same => about (Option.some.inj same).symm
    rw [if_neg about, if_neg other, Option.or_none, Option.map_map]
    refine Option.map_congr fun r found => ?_
    simp only [Function.comp]
    split <;> rfl

end Applied

section Rows

variable {t : WorkOrderTable} {workOrderId : String} {set : WorkOrderRow → WorkOrderRow}

theorem setRow_authored (key : ∀ r, (set r).key = r.key) (w : String) :
    authored (setRow workOrderId set t) w =
      if w = workOrderId then
        (Table.lookup WorkOrderRow.key w t).map fun r =>
          ((set r).description, (set r).sequenceOrder)
      else authored t w := by
  unfold authored setRow
  rw [Table.lookup_update key, Option.map_map]
  cases found : Table.lookup WorkOrderRow.key w t with
  | none => simp
  | some r =>
    have held : r.key = some w := (Table.lookup_key found).2
    by_cases about : w = workOrderId <;> simp [held, about]

theorem setRow_isSome (key : ∀ r, (set r).key = r.key) (w : String) :
    (authored (setRow workOrderId set t) w).isSome = (authored t w).isSome := by
  rw [setRow_authored key]
  split <;> simp [authored]

theorem setRow_traced {log : List Event} (traced : Traced log t) (key : ∀ r, (set r).key = r.key)
    (source : ∀ r, (set r).sourceEventId = r.sourceEventId)
    (last : ∀ r, (set r).lastEventId = r.lastEventId) : Traced log (setRow workOrderId set t) := by
  intro r hr id hid
  obtain ⟨q, hq, rfl⟩ := Table.mem_update.mp hr
  split at hid
  next about =>
    rw [if_pos about, key]
    exact traced q hq id (by rwa [source, last] at hid)
  next other =>
    rw [if_neg other]
    exact traced q hq id hid

theorem write_keeps (remembers : Bool) (now : Now) (u : Update) (r : WorkOrderRow) :
    (u.write remembers now r).description = r.description ∧
      (u.write remembers now r).sequenceOrder = r.sequenceOrder ∧
      (u.write remembers now r).sourceEventId = r.sourceEventId ∧
      (u.write remembers now r).lastEventId = r.lastEventId := by
  cases u <;> exact ⟨rfl, rfl, rfl, rfl⟩

theorem subject_emit {u : Update} {r : WorkOrderRow} {eventId w : String} {now : Now}
    (about : subject (u.emit r eventId now) = some w) : r.workOrderId = some w := by
  have given : eventPayload (u.emit r eventId now) = (u.emit r eventId now).payload := rfl
  unfold subject at about
  rw [given] at about
  cases id : r.workOrderId with
  | none =>
    simp [Update.emit, id, columnOr, payloadGet, Json.lookup, Json.ofOption, Json.truthy] at about
  | some s =>
    by_cases empty : s = ""
    · simp [Update.emit, id, empty, columnOr, payloadGet, Json.lookup, Json.ofOption,
        Json.truthy] at about
    · simpa [Update.emit, id, empty, columnOr, Json.truthy, bindText, Except.toOption] using about

end Rows

namespace Desk

variable {remembers : Bool} {clock : Nat} {d : Desk}

theorem rebuilt_eq (ordered : d.authority.Ordered) :
    d.rebuilt remembers clock =
      (d.log.filter (workOrderProjection remembers).consumes).foldl (applyEvent remembers clock)
      [] := by
  exact Authority.rebuild_sorted rfl (ordered.imp le_of_lt)

/-- What every run keeps: the table and its replay hold the same work orders, and what is pending
is about these. -/
structure Sound (remembers : Bool) (clock : Nat) (d : Desk) : Prop where
  ordered : d.authority.Ordered
  keys : ∀ w, (authored (d.rebuilt remembers clock) w).isSome = (authored d.rows w).isSome
  unordered : ∀ w a, authored (d.rebuilt remembers clock) w = some a → a.2 = none
  traced : Traced d.log d.rows
  tracedReplay : Traced d.log (d.rebuilt remembers clock)
  pending : ∀ e ∈ d.pending, e ∈ d.log ∧ Follows d.rows e

section Record

variable {live : WorkOrderTable} {e : Event}

theorem record_log (fresh : ∀ f ∈ d.log, f.eventTimestamp < e.eventTimestamp ∧
    f.eventId ≠ e.eventId) :
    (d.record remembers live e).log = d.log ++ [e] := by
  have new : d.log.any (fun f => Table.SameKey Event.key f e) = false := by
    refine List.any_eq_false.mpr fun f hf same => (fresh f hf).2 ?_
    exact Option.some.inj (of_decide_eq_true same).1
  change Table.insertOrIgnore Event.key (fun _ => true) d.log e = _
  unfold Table.insertOrIgnore
  rw [new]
  rfl

theorem record_ordered (ordered : d.authority.Ordered)
    (fresh : ∀ f ∈ d.log, f.eventTimestamp < e.eventTimestamp ∧ f.eventId ≠ e.eventId) :
    (d.record remembers live e).authority.Ordered := by
  unfold Authority.Ordered
  change ((d.record remembers live e).log).Pairwise _
  rw [record_log fresh]
  refine List.pairwise_append.mpr ⟨ordered, List.pairwise_singleton _ _, fun f hf g hg => ?_⟩
  rw [List.mem_singleton.mp hg]
  exact (fresh f hf).1

theorem record_rebuilt (ordered : d.authority.Ordered)
    (fresh : ∀ f ∈ d.log, f.eventTimestamp < e.eventTimestamp ∧ f.eventId ≠ e.eventId) :
    (d.record remembers live e).rebuilt remembers clock =
      if (workOrderProjection remembers).consumes e then
        applyEvent remembers clock (d.rebuilt remembers clock) e
      else d.rebuilt remembers clock := by
  rw [rebuilt_eq (record_ordered ordered fresh), rebuilt_eq ordered, record_log fresh,
    List.filter_append,
    List.foldl_append]
  by_cases consumed : (workOrderProjection remembers).consumes e = true
  · rw [List.filter_singleton, consumed, if_pos rfl]
    rfl
  · rw [List.filter_singleton, Bool.eq_false_iff.mpr consumed, if_neg Bool.false_ne_true]
    rfl

theorem Sound.record (h : d.Sound remembers clock)
    (fresh : ∀ f ∈ d.log, f.eventTimestamp < e.eventTimestamp ∧ f.eventId ≠ e.eventId)
    (keys : ∀ w, (authored live w).isSome = (authored d.rows w).isSome) (traced : Traced d.log live)
    (follows : (workOrderProjection remembers).consumes e = true → Follows d.rows e) :
    (d.record remembers live e).Sound remembers clock ∧
      ∀ w, authored ((d.record remembers live e).rebuilt remembers clock) w =
        authored (d.rebuilt remembers clock) w := by
  have grown : d.log ⊆ (d.record remembers live e).log := by
    rw [record_log fresh]
    exact List.subset_append_left _ _
  have stored : e ∈ (d.record remembers live e).log := by
    rw [record_log fresh]
    exact List.mem_append_right _ List.mem_cons_self
  have same : ∀ w, authored ((d.record remembers live e).rebuilt remembers clock) w =
      authored (d.rebuilt remembers clock) w := by
    intro w
    rw [record_rebuilt h.ordered fresh]
    split
    next consumed => exact applyEvent_authored ((follows consumed).congr h.keys) w
    next => rfl
  refine ⟨{
    ordered := record_ordered h.ordered fresh
    keys := fun w => by rw [same, h.keys]; exact (keys w).symm
    unordered := fun w a ha => h.unordered w a (same w ▸ ha)
    traced := traced_mono traced grown
    tracedReplay := ?_
    pending := ?_ }, same⟩
  · rw [record_rebuilt h.ordered fresh]
    split
    next => exact applyEvent_traced (traced_mono h.tracedReplay grown) stored
    next => exact traced_mono h.tracedReplay grown
  · have before : ∀ f ∈ d.pending, f ∈ (d.record remembers live e).log ∧
        Follows live f := fun f hf =>
      ⟨grown (h.pending f hf).1, (h.pending f hf).2.congr keys⟩
    unfold Desk.record
    simp only
    split
    next consumed =>
      intro f hf
      rcases List.mem_append.mp hf with hf | hf
      · exact before f hf
      · rw [List.mem_singleton.mp hf]
        exact ⟨stored, (follows consumed).congr keys⟩
    next => exact before

theorem Sound.tick (h : d.Sound remembers clock) (pass : Nat) :
    (d.tick remembers pass).Sound remembers clock ∧
      ∀ w, authored (d.tick remembers pass).rows w = authored d.rows w := by
  have same : ∀ w, authored (d.tick remembers pass).rows w = authored d.rows w :=
    foldl_authored fun e he => (h.pending e he).2
  have rebuilt : (d.tick remembers pass).rebuilt remembers clock = d.rebuilt remembers clock := by
    rw [rebuilt_eq (d := d.tick remembers pass) h.ordered, rebuilt_eq h.ordered]
    rfl
  exact ⟨{
    ordered := h.ordered
    keys := fun w => by rw [rebuilt, same]; exact h.keys w
    unordered := by rw [rebuilt]; exact h.unordered
    traced := foldl_traced h.traced fun e he => (h.pending e he).1
    tracedReplay := by rw [rebuilt]; exact h.tracedReplay
    pending := nofun }, same⟩

end Record

theorem Sound.create (h : d.Sound remembers clock) {c : Creation} {priority : String} {pass : Nat}
    (fresh : ∀ f ∈ d.log, f.eventTimestamp < c.now.iso ∧ f.eventId ≠ c.eventId)
    (absent : d.find c.workOrderId = none) :
    ((d.record remembers d.rows (c.emit (some priority))).tick remembers pass).Sound
      remembers clock ∧
      ∃ a : Text × Option Int, ∀ w,
        authored ((d.record remembers d.rows (c.emit (some priority))).tick remembers pass).rows w =
            (if w = c.workOrderId then some a else authored d.rows w) ∧
          authored
            (((d.record remembers d.rows (c.emit (some priority))).tick remembers pass).rebuilt
              remembers clock) w =
            if w = c.workOrderId then some a else authored (d.rebuilt remembers clock) w := by
  set e := c.emit (some priority) with he
  set r := d.record remembers d.rows e with hr
  have consumed : (workOrderProjection remembers).consumes e = true := consumes_iff.mpr rfl
  have log : r.log = d.log ++ [e] := record_log fresh
  have ordered : r.authority.Ordered := record_ordered h.ordered fresh
  have grown : d.log ⊆ r.log := by rw [log]; exact List.subset_append_left _ _
  have stored : e ∈ r.log := by rw [log]; exact List.mem_append_right _ List.mem_cons_self
  have pending : r.pending = d.pending ++ [e] := by
    rw [hr, Desk.record, if_pos consumed]
  have missing : authored d.rows c.workOrderId = none := by
    unfold authored
    exact Option.map_eq_none_iff.mpr absent
  have unfiled : ∀ f ∈ d.log, f.eventId ≠ c.eventId := fun f hf => (fresh f hf).2
  -- what is pending is given to the live table before the creation
  have rows : (r.tick remembers pass).rows =
      applyEvent remembers pass (d.pending.foldl (applyEvent remembers pass) d.rows) e := by
    change r.pending.foldl (applyEvent remembers pass) d.rows = _
    rw [pending, List.foldl_append]
    rfl
  have ticked : ∀ w, authored (d.pending.foldl (applyEvent remembers pass) d.rows) w =
      authored d.rows w := foldl_authored fun f hf => (h.pending f hf).2
  have tracedTick : Traced d.log (d.pending.foldl (applyEvent remembers pass) d.rows) :=
    foldl_traced h.traced fun f hf => (h.pending f hf).1
  have live : ∀ w, authored (r.tick remembers pass).rows w =
      if w = c.workOrderId then some (some c.description, none) else authored d.rows w := by
    intro w
    rw [rows, applyEvent_created c _ (traced_unprocessed tracedTick unfiled)
      (by rw [ticked, missing]),
      ticked]
  have rebuilt : (r.tick remembers pass).rebuilt remembers clock =
      applyEvent remembers clock (d.rebuilt remembers clock) e := by
    have given : r.rebuilt remembers clock = _ := record_rebuilt h.ordered fresh
    rw [if_pos consumed, rebuilt_eq ordered] at given
    rw [rebuilt_eq (d := r.tick remembers pass) ordered, ← given]
    rfl
  have replayed : ∀ w, authored ((r.tick remembers pass).rebuilt remembers clock) w =
      if w = c.workOrderId then some (some c.description, none)
      else authored (d.rebuilt remembers clock) w := by
    intro w
    have missing' : authored (d.rebuilt remembers clock) c.workOrderId = none := by
      have := h.keys c.workOrderId
      rw [missing] at this
      simpa using this
    rw [rebuilt, applyEvent_created c _ (traced_unprocessed h.tracedReplay unfiled) missing']
  refine ⟨{
    ordered := ordered
    keys := fun w => ?_
    unordered := fun w a ha => ?_
    traced := ?_
    tracedReplay := ?_
    pending := nofun }, _, fun w => ⟨live w, replayed w⟩⟩
  · rw [live, replayed]
    split
    · rfl
    · exact h.keys w
  · rw [replayed] at ha
    split at ha
    · cases ha
      rfl
    · exact h.unordered w a ha
  · rw [rows]
    exact applyEvent_traced (traced_mono tracedTick grown) stored
  · rw [rebuilt]
    exact applyEvent_traced (traced_mono h.tracedReplay grown) stored

section Step

variable {py : Stdlib} {registry : Registry} {d' : Desk}

/-- The step does the same to the table and to its replay. -/
def Mirrored (remembers : Bool) (clock : Nat) (d d' : Desk) : Prop :=
  ∃ edit : String → Option (Text × Option Int) → Option (Text × Option Int), ∀ w,
    authored d'.rows w = edit w (authored d.rows w) ∧
      authored (d'.rebuilt remembers clock) w = edit w (authored (d.rebuilt remembers clock) w)

/-- The step writes `a` to the row `r` and nothing to the replay. -/
structure Overwrites (remembers : Bool) (clock : Nat) (d d' : Desk) (r : WorkOrderRow)
    (a : Text × Option Int) : Prop where
  found : ∃ w, d.find w = some r ∧ authored d'.rows w = some a ∧
    ∀ w', w' ≠ w → authored d'.rows w' = authored d.rows w'
  replay : ∀ w, authored (d'.rebuilt remembers clock) w = authored (d.rebuilt remembers clock) w

theorem Mirrored.refl : Mirrored remembers clock d d := ⟨fun _ => id, fun _ => ⟨rfl, rfl⟩⟩

theorem Mirrored.lossless (mirrored : Mirrored remembers clock d d')
    (h : d.Lossless remembers clock) :
    d'.Lossless remembers clock := by
  obtain ⟨edit, same⟩ := mirrored
  intro w
  rw [(same w).1, (same w).2, h w]

theorem Overwrites.keeps_iff {r : WorkOrderRow} {a : Text × Option Int}
    (writes : Overwrites remembers clock d d' r a) (sound : d.Sound remembers clock)
    (h : d.Lossless remembers clock) :
    r.sequenceOrder = none ∧ (d'.Lossless remembers clock ↔ a = (r.description, none)) := by
  obtain ⟨w, found, written, others⟩ := writes.found
  have live : authored d.rows w = some (r.description, r.sequenceOrder) := by
    unfold authored
    rw [show Table.lookup WorkOrderRow.key w d.rows = some r from found]
    rfl
  have unordered : r.sequenceOrder = none := sound.unordered w _ ((h w).trans live)
  refine ⟨unordered, fun after => ?_, fun same w' => ?_⟩
  · have agrees := after w
    rw [writes.replay, h w, live, written, unordered] at agrees
    exact (Option.some.inj agrees).symm
  · rw [writes.replay, h w']
    by_cases about : w' = w
    · rw [about, live, written, same, unordered]
    · exact (others w' about).symm

theorem overwrites (set : WorkOrderRow → WorkOrderRow) {workOrderId : String} {r : WorkOrderRow}
    {e : Event} (h : d.Sound remembers clock) (found : d.find workOrderId = some r)
    (key : ∀ r, (set r).key = r.key) (source : ∀ r, (set r).sourceEventId = r.sourceEventId)
    (last : ∀ r, (set r).lastEventId = r.lastEventId)
    (fresh : ∀ f ∈ d.log, f.eventTimestamp < e.eventTimestamp ∧ f.eventId ≠ e.eventId)
    (unread : WorkOrderEventType.ofText e.eventType = none) :
    (d.record remembers (setRow workOrderId set d.rows) e).Sound remembers clock ∧
      Overwrites remembers clock d (d.record remembers (setRow workOrderId set d.rows) e) r
        ((set r).description, (set r).sequenceOrder) := by
  have passed : ¬(workOrderProjection remembers).consumes e = true := by
    rw [consumes_iff, unread]
    exact Bool.false_ne_true
  obtain ⟨sound, replay⟩ :=
    h.record fresh (setRow_isSome key) (setRow_traced h.traced key source last)
    fun consumed => absurd consumed passed
  refine ⟨sound, ⟨workOrderId, found, ?_, fun w' other => ?_⟩, replay⟩
  · change authored (setRow workOrderId set d.rows) workOrderId = _
    rw [setRow_authored key, if_pos rfl,
      show Table.lookup WorkOrderRow.key workOrderId d.rows = some r from found]
    rfl
  · change authored (setRow workOrderId set d.rows) w' = _
    rw [setRow_authored key, if_neg other]

def Does (remembers : Bool) (clock : Nat) (harmless : Prop) (d d' : Desk) : Prop :=
  d'.Sound remembers clock ∧
    (harmless ∧ Mirrored remembers clock d d' ∨
      ∃ r a, Overwrites remembers clock d d' r a ∧
        (r.sequenceOrder = none → (harmless ↔ a = (r.description, none))))

theorem perform_does {eventId : String} {now : Now} {ask : Ask} (h : d.Sound remembers clock)
    (fresh : ∀ f ∈ d.log, f.eventTimestamp < now.iso ∧ f.eventId ≠ eventId)
    (performed : d.perform py registry remembers eventId now ask = some d') :
    Does remembers clock (d.Harmless py (.call eventId now ask)) d d' := by
  cases ask with
  | create brief workOrderId pass =>
    simp only [perform] at performed
    split at performed
    · cases performed
    next new =>
      split at performed
      next => cases performed; exact ⟨h, Or.inl ⟨trivial, .refl⟩⟩
      next =>
        cases performed
        have absent : d.find workOrderId.1 = none := by simpa using new
        obtain ⟨sound, a, same⟩ :=
          h.create (c := brief.creation workOrderId eventId now) fresh absent
        exact ⟨sound, Or.inl ⟨trivial, fun w before => if w = workOrderId.1 then some a else before,
          same⟩⟩
  | setSequenceOrder workOrderId sequenceOrder =>
    simp only [perform] at performed
    split at performed
    next missing => cases performed; exact ⟨h, Or.inl ⟨missing, .refl⟩⟩
    next r found =>
      cases performed
      have unread : WorkOrderEventType.ofText "work_order.reordered" = none := by decide
      obtain ⟨sound, writes⟩ := overwrites
        (fun r => { r with sequenceOrder := some sequenceOrder, lastUpdatedAt := now.micros })
        (e := reorderedEvent r sequenceOrder eventId now) h found (fun _ => rfl) (fun _ => rfl)
        (fun _ => rfl) fresh unread
      refine ⟨sound, Or.inr ⟨r, _, writes, fun _ => iff_of_false ?_ ?_⟩⟩
      · simp [Harmless, found]
      · simp
  | amend workOrderId moduleBoundary reason present =>
    simp only [perform] at performed
    split at performed
    next missing =>
      cases performed
      exact ⟨h, Or.inl ⟨by simp [Harmless, missing], .refl⟩⟩
    next r found =>
      split at performed
      next message refused =>
        cases performed
        exact ⟨h, Or.inl ⟨by simp [Harmless, found, refused], .refl⟩⟩
      next a amended =>
        cases performed
        have unread : WorkOrderEventType.ofText "work_order.boundary_amended" = none := by decide
        obtain ⟨sound, writes⟩ := overwrites (fun r => { r with description := some a.description })
          (e := boundaryAmendedEvent r a eventId now) h found (fun _ => rfl) (fun _ => rfl)
          (fun _ => rfl) fresh unread
        refine ⟨sound, Or.inr ⟨r, _, writes, fun unordered => ?_⟩⟩
        simp [Harmless, found, amended, unordered, eq_comm]
  | lifecycle workOrderId call =>
    simp only [perform] at performed
    split at performed
    next => cases performed; exact ⟨h, Or.inl ⟨trivial, .refl⟩⟩
    next r found =>
      split at performed
      next flight checked =>
        cases performed
        set u := flight.update remembers r with hu
        have keep := write_keeps remembers now u
        have key : ∀ r, (u.write remembers now r).key = r.key :=
          Update.write_workOrderId remembers now u
        have held : r.key = some workOrderId := (Table.lookup_key found).2
        have follows : Follows d.rows (u.emit r eventId now) := by
          refine ⟨?_, fun w about => ?_⟩
          · rw [show (u.emit r eventId now).eventType = u.event.text from rfl,
              WorkOrderEventType.ofText_text]
            exact fun same => event_ne_created (update_sound checked) (Option.some.inj same)
          · have : workOrderId = w := Option.some.inj (held.symm.trans (subject_emit about))
            rw [authored_isSome, ← this,
              show Table.lookup WorkOrderRow.key workOrderId d.rows = some r
              from found]
            rfl
        obtain ⟨sound, replay⟩ := h.record fresh (setRow_isSome key)
          (setRow_traced h.traced key (fun r => (keep r).2.2.1) fun r => (keep r).2.2.2)
          fun _ => follows
        refine ⟨sound, Or.inl ⟨trivial, fun _ => id, fun w => ⟨?_, replay w⟩⟩⟩
        change authored (setRow workOrderId (u.write remembers now) d.rows) w = _
        rw [setRow_authored key]
        split
        next about => simp [authored, keep]
        next => rfl
      next => cases performed; exact ⟨h, Or.inl ⟨trivial, .refl⟩⟩

theorem step_does {action : DeskAction} (h : d.Sound remembers clock)
    (stepped : d.step py registry remembers action = some d') :
    Does remembers clock (d.Harmless py action) d d' := by
  cases action with
  | call eventId now ask =>
    simp only [step] at stepped
    split at stepped
    next fresh => exact perform_does h fresh stepped
    next => cases stepped
  | tick pass =>
    cases stepped
    obtain ⟨sound, same⟩ := h.tick pass
    refine ⟨sound, Or.inl ⟨trivial, fun _ => id, fun w => ⟨same w, ?_⟩⟩⟩
    rw [rebuilt_eq (d := d.tick remembers pass) h.ordered, rebuilt_eq h.ordered]
    rfl

theorem step_lossless_iff {action : DeskAction} (sound : d.Sound remembers clock)
    (h : d.Lossless remembers clock) (stepped : d.step py registry remembers action = some d') :
    d'.Lossless remembers clock ↔ d.Harmless py action := by
  rcases (step_does sound stepped).2 with ⟨harmless, mirrored⟩ | ⟨r, a, writes, iff⟩
  · exact iff_of_true (mirrored.lossless h) harmless
  · obtain ⟨unordered, lossless⟩ := writes.keeps_iff sound h
    exact lossless.trans (iff unordered).symm

end Step

theorem sound_start : Sound remembers clock {} where
  ordered := List.Pairwise.nil
  keys := fun _ => rfl
  unordered := fun _ _ => nofun
  traced := fun _ hr => nomatch hr
  tracedReplay := fun _ hr => nomatch hr
  pending := nofun

/-- In every run of creations, orders, amendments and lifecycle calls a rebuild keeps what authors
wrote, after each step, exactly if every step is harmless. -/
theorem lossless_iff_harmless (py : Stdlib) (registry : Registry) (remembers : Bool) (clock : Nat)
    (actions : List DeskAction) :
    (∀ x ∈ (machine py registry remembers).transitions {} actions, x.after.Lossless
      remembers clock) ↔
      ∀ x ∈ (machine py registry remembers).transitions {} actions, x.before.Harmless py x.label :=
  (machine py registry remembers).forall_after_iff_forall_guard
    (fun _ _ _ sound stepped => (step_does sound stepped).1)
    (fun _ _ _ sound h stepped => step_lossless_iff sound h stepped) sound_start
      (fun _ => rfl) actions

def orderedBrief : Brief where
  projectId := "p"
  milestoneId := some "m"
  title := "Parser"
  description := "Split the parser from the lexer, so that each has its own tests."

def orderedActions : List DeskAction :=
  [.call "e1" ⟨"2026-01-01T00:00:00Z", 0⟩ (.create orderedBrief ⟨"w", by decide⟩ 0),
    .call "e2" ⟨"2026-01-02T00:00:00Z", 1⟩ (.setSequenceOrder "w" 10)]

/-- The order an author gave is NULL after a rebuild. -/
theorem order_lost :
    ¬∀ (py : Stdlib) (registry : Registry) (remembers : Bool) (clock : Nat)
    (actions : List DeskAction),
      ∀ x ∈ (machine py registry remembers).transitions {} actions, x.after.Lossless
        remembers clock := by
  intro lossless
  have runs : ∃ a b, (machine bareStdlib ⟨["p"], ["m"], []⟩ true).transitions {} orderedActions =
      [a, b] ∧
      authored (b.after.rebuilt true 0) "w" = some (some orderedBrief.description, none) ∧
      authored b.after.rows "w" = some (some orderedBrief.description, some 10) := by
    refine ⟨_, _, rfl, ?_, ?_⟩ <;> decide +kernel
  obtain ⟨a, b, run, rebuilt, live⟩ := runs
  have kept := lossless bareStdlib ⟨["p"], ["m"], []⟩ true 0 orderedActions b (by simp [run]) "w"
  rw [rebuilt, live] at kept
  cases kept

end Desk

end DreamStudio.WorkOrders
