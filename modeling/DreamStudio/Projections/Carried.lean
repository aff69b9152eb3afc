import DreamStudio.Projections.Rebuild
import DreamStudio.Projections.Redelivered

namespace DreamStudio.Projections

open Library WorkOrders WorkOrderTable

def columnText (e : Event) (column : Text) (key : String) : Text :=
  (columnOr column (eventPayload e) key >>= bindParam).toOption.join

def payloadText (e : Event) (key : String) : Text :=
  (payloadGet (eventPayload e) key >>= bindParam).toOption.join

def projectText (e : Event) : Text := columnText e e.projectId "project_id"

def carries (e : Event) : Carried where
  projectId := projectText e
  milestoneId := columnText e e.milestoneId "milestone_id"
  title := payloadText e "title"
  workOrderType := payloadText e "type"
  createdAt := some e.eventTimestamp
  originatingSymptom := payloadText e "originating_symptom"
  description := payloadText e "description"

def declaredPriority (e : Event) : Priority :=
  match payloadGet (eventPayload e) "priority" with
  | .ok v => coercePriority v
  | .error _ => .normal

def Carried.fill (own c : Carried) : Carried where
  projectId := coalesce own.projectId c.projectId
  milestoneId := coalesce own.milestoneId c.milestoneId
  title := coalesce own.title c.title
  workOrderType := coalesce own.workOrderType c.workOrderType
  createdAt := coalesce own.createdAt c.createdAt
  originatingSymptom := coalesce own.originatingSymptom c.originatingSymptom
  description := own.description

def Event.isOf (type : WorkOrderEventType) (e : Event) : Bool :=
  WorkOrderEventType.ofText e.eventType = some type

def binds (v : Except Failure Json) : Bool := (v >>= bindParam).isOk

def payloadReadable (payload : Json) : Option WorkOrderEventType → Bool
  | some .blocked =>
    binds (do return (← payloadGet payload "reason").or (← payloadGet payload "block_reason"))
  | some .unblocked => (payloadGet payload "to_status").isOk
  | _ => true

def legible (e : Event) : Bool :=
  binds (columnOr e.projectId (eventPayload e) "project_id") &&
    (columnOr e.milestoneId (eventPayload e) "milestone_id").isOk &&
    if e.isOf .created then
      binds (columnOr e.milestoneId (eventPayload e) "milestone_id") &&
        ["title", "type", "originating_symptom", "description"].all fun key =>
          binds (payloadGet (eventPayload e) key)
    else payloadReadable (eventPayload e) (WorkOrderEventType.ofText e.eventType)

def carriedStep (row : Option (Carried × Priority)) (e : Event) : Option (Carried × Priority) :=
  if legible e then
    if e.isOf .created then
      match row with
      | none => some (carries e, declaredPriority e)
      | some (c, p) => some (c.fill (carries e), p)
    else
      match row.getD ({ projectId := projectText e }, .normal) with
      | (c, p) => some (c, if e.isOf .ciFailed then .blocker else p)
  else row

def WorkOrderTable.carriedOf (w : String) (t : WorkOrderTable) : Option (Carried × Priority) :=
  (Table.lookup WorkOrderRow.key w t).map fun r => (r.carried, r.priority)

variable {remembers : Bool} {w : String} {e : Event} {now n : Nat} {t t' : WorkOrderTable}

theorem columnText_eq {column : Text} {key : String} {v : Json} {x : Text}
    (found : columnOr column (eventPayload e) key = .ok v) (bound : bindParam v = .ok x) :
    columnText e column key = x := by
  unfold columnText
  rw [found, ok_bind, bound]
  rfl

theorem payloadText_eq {key : String} {v : Json} {x : Text}
    (found : payloadGet (eventPayload e) key = .ok v) (bound : bindParam v = .ok x) :
    payloadText e key = x := by
  unfold payloadText
  rw [found, ok_bind, bound]
  rfl

theorem Carried.fill_self (c : Carried) : c.fill c = c := by
  cases c
  simp [fill, coalesce]

section Handler

theorem carriedOf_touch {set : WorkOrderRow → WorkOrderRow} {f : Priority → Priority}
    (sets : ∀ r,
      (set r).key = r.key ∧ (set r).carried = r.carried ∧ (set r).priority = f r.priority)
    (projectId : Text) :
    ((t.ensureSkeleton (some w) projectId now).safeUpsert (some w) set).carriedOf w =
      match (t.carriedOf w).getD ({ projectId := projectId }, .normal) with
      | (c, p) => some (c, f p) := by
  unfold carriedOf safeUpsert
  rw [Table.lookup_upsert (fun r => (sets r).1) rfl, lookup_ensureSkeleton, if_pos rfl]
  cases Table.lookup WorkOrderRow.key w t <;> exact congrArg
    some (Prod.ext (sets _).2.1 (sets _).2.2)

theorem carriedOf_insertCreated {row : WorkOrderRow} (own : row.key = some w) :
    (t.insertCreated row).carriedOf w =
      match t.carriedOf w with
      | none => some (row.carried, row.priority)
      | some (c, p) => some (c.fill row.carried, p) := by
  have filled : ∀ r, (backfill row r).carried = r.carried.fill row.carried := fun r => rfl
  unfold carriedOf insertCreated
  rw [Table.lookup_merge own (by intro r; rfl) fun r => by simp +contextual [Table.SameKey, own],
    Option.map_map]
  cases Table.lookup WorkOrderRow.key w t with
  | none => exact congrArg (fun c => some (c, row.priority)) ((filled row).trans row.carried.fill_self)
  | some r => rfl

theorem handleCreated_carried {projectId milestoneId : Json}
    (project : columnOr e.projectId (eventPayload e) "project_id" = .ok projectId)
    (milestone : columnOr e.milestoneId (eventPayload e) "milestone_id" = .ok milestoneId)
    (h : t.handleCreated (some w) projectId milestoneId (eventPayload e) e.eventId
      e.eventTimestamp now =
      .ok t') :
    ∃ row : WorkOrderRow, t' = t.insertCreated row ∧ row.key = some w ∧ row.carried = carries e ∧
      row.priority = declaredPriority e := by
  unfold handleCreated createdRow at h
  simp only [bind_eq_ok, pure_eq_ok] at h
  obtain ⟨_, ⟨p, hp, m, hm, _, hv, title, ht, _, hv', type, htype, _, hv'', symptom, hs, _, hd,
    description, hd', _, priority, rfl⟩, rfl⟩ := h
  refine ⟨_, rfl, rfl, ?_, ?_⟩
  · simp only [WorkOrderRow.carried, carries, projectText, columnText_eq project hp,
      columnText_eq milestone hm, payloadText_eq hv ht, payloadText_eq hv' htype,
        payloadText_eq hv'' hs,
      payloadText_eq hd hd']
  · simp only [declaredPriority, priority]

/-- What one call of `handle` makes of the columns a creation carries. -/
theorem handleWorkOrder_carried (about : subject e = some w)
    (new : t.isAlreadyProcessed e.eventId = false) (readable : legible e = true)
    (h : handleWorkOrder remembers e now t = .ok (n, t')) :
    t'.carriedOf w = carriedStep (t.carriedOf w) e := by
  unfold carriedStep
  rw [if_pos readable]
  rcases handleWorkOrder_cases h with
    ⟨processed, -⟩ |
      ⟨-, ⟨nothing, -⟩ | ⟨projectId, milestoneId, ⟨created, project, milestone⟩, h⟩ |
        ⟨projectId, ⟨other, _, project, bound⟩, h⟩⟩
  · rw [new] at processed
    cases processed
  · rw [about] at nothing
    cases nothing
  · rw [about] at h
    obtain ⟨row, rfl, own, carried, priority⟩ := handleCreated_carried project milestone h
    have isCreated : e.isOf .created = true := decide_eq_true created
    rw [if_pos isCreated, carriedOf_insertCreated own, carried, priority]
  · rw [about] at h
    rw [if_neg (by simpa [Event.isOf] using other)]
    have text : projectText e = projectId := columnText_eq project bound
    rw [text]
    rcases handleTyped_cases h with ⟨unknown, rfl⟩ | ⟨set, rfl, hset⟩
    · have no : e.isOf .ciFailed = false := by simp [Event.isOf, unknown]
      rw [no]
      unfold carriedOf
      rw [lookup_ensureSkeleton, if_pos rfl]
      cases Table.lookup WorkOrderRow.key w t <;> rfl
    · rw [carriedOf_touch (f := fun p => if e.isOf .ciFailed then .blocker else p)]
      intro r
      refine ⟨(hset r).1, (hset r).2.2.2.1, ?_⟩
      rw [(hset r).2.2.2.2.2]
      simp [Event.isOf]

end Handler

section Reading

theorem binds_ok (v : Json) : binds (.ok v) = (bindParam v).isOk := rfl

theorem isOk_error (failure : Failure) {α : Type} :
    (Except.error failure : Except Failure α).isOk = false := rfl

theorem error_bind (failure : Failure) {α β : Type} (f : α → Except Failure β) :
    (.error failure >>= f) = .error failure := rfl

theorem bind_pure_isOk {α β : Type} (x : Except Failure α) {f : α → β} :
    (x >>= fun a => pure (f a)).isOk = x.isOk := by
  cases x <;> rfl

theorem createdRow_isOk {workOrderId : Text} {projectId milestoneId payload : Json}
    {eventId ts : String} :
    (createdRow workOrderId projectId milestoneId payload eventId ts now).isOk =
      ((bindParam projectId).isOk && (bindParam milestoneId).isOk &&
        ["title", "type", "originating_symptom", "description"].all fun key =>
          binds (payloadGet payload key)) := by
  unfold createdRow
  cases bindParam projectId with
  | error failure => rfl
  | ok projectId =>
    cases bindParam milestoneId with
    | error failure => rfl
    | ok milestoneId =>
      simp only [List.all_cons, List.all_nil, Bool.and_true]
      cases payload with
      | obj fields =>
        simp only [payloadGet, ok_bind, binds_ok]
        cases bindParam (Json.lookup fields "title") with
        | error failure => rfl
        | ok title =>
          cases bindParam (Json.lookup fields "type") with
          | error failure => rfl
          | ok type =>
            cases bindParam (Json.lookup fields "originating_symptom") with
            | error failure => rfl
            | ok symptom => cases bindParam (Json.lookup fields "description") <;> rfl
      | _ => rfl

theorem subject_columnOr (about : subject e = some w) :
    ∃ v, columnOr e.workOrderId (eventPayload e) "work_order_id" = .ok v ∧ v.truthy = true ∧
      bindParam v = .ok (some w) := by
  unfold subject at about
  split at about
  next v given =>
    split at about
    next truthy =>
      cases bound : bindText v with
      | error message =>
        rw [bound] at about
        cases about
      | ok text =>
        rw [bound] at about
        refine ⟨v, given, truthy, ?_⟩
        unfold bindParam
        rw [bound]
        exact congrArg Except.ok about
    next => cases about
  next => cases about

theorem handleTyped_isOk_reads {type : Option WorkOrderEventType} {workOrderId : Text}
    {payload : Json} {eventId ts : String} (other : type ≠ some .created) :
    (t.handleTyped remembers type workOrderId payload eventId ts now).isOk =
      payloadReadable payload type := by
  unfold handleTyped payloadReadable
  cases type with
  | none => rfl
  | some type =>
    cases type with
    | created => exact absurd rfl other
    | blocked =>
      unfold handleBlocked
      cases payload with
      | obj fields =>
        simp only [payloadGet, ok_bind, pure, Except.pure, binds_ok]
        cases bindParam ((Json.lookup fields "reason").or (Json.lookup fields "block_reason")) <;>
          rfl
      | _ => rfl
    | unblocked =>
      unfold handleUnblocked
      cases payload <;> rfl
    | _ => rfl

/-- `handle` raises exactly on the events it cannot read. -/
theorem handleWorkOrder_legible (about : subject e = some w)
    (new : t.isAlreadyProcessed e.eventId = false) :
    (handleWorkOrder remembers e now t).isOk = legible e := by
  obtain ⟨v, given, truthy, bound⟩ := subject_columnOr about
  unfold handleWorkOrder legible
  rw [new]
  change (columnOr e.workOrderId (eventPayload e) "work_order_id" >>= _).isOk = _
  rw [given, ok_bind, if_pos truthy]
  change (columnOr e.projectId (eventPayload e) "project_id" >>= _).isOk = _
  cases columnOr e.projectId (eventPayload e) "project_id" with
  | error failure => rfl
  | ok projectId =>
    rw [ok_bind]
    change (columnOr e.milestoneId (eventPayload e) "milestone_id" >>= _).isOk = _
    cases columnOr e.milestoneId (eventPayload e) "milestone_id" with
    | error failure => simp [isOk_error, error_bind]
    | ok milestoneId =>
      rw [ok_bind, bound, ok_bind, binds_ok, binds_ok]
      split
      next created =>
        have isCreated : e.isOf .created = true := decide_eq_true created
        rw [if_pos isCreated]
        apply (bind_pure_isOk _).trans
        apply (bind_pure_isOk _).trans
        apply createdRow_isOk.trans
        rw [Bool.and_assoc, Bool.and_assoc]
        rfl
      next other =>
        have isOther : e.isOf .created = false := decide_eq_false other
        rw [isOther]
        cases bindParam projectId with
        | error failure => rfl
        | ok projectId => exact handleTyped_isOk_reads other

end Reading

section Runs

def folded (remembers : Bool) (clock : Event → Nat) (events : List Event) (t : WorkOrderTable) :
    WorkOrderTable :=
  events.foldl (fun t e => (workOrderProjection remembers).apply (clock e) t e) t

variable {clock : Event → Nat} {events : List Event}

theorem apply_carried (about : subject e = some w) (new : t.isAlreadyProcessed e.eventId = false) :
    ((workOrderProjection remembers).apply now t e).carriedOf w =
      carriedStep (t.carriedOf w) e := by
  have isOk : (handleWorkOrder remembers e now t).isOk = legible e :=
    handleWorkOrder_legible about new
  cases handled : handleWorkOrder remembers e now t with
  | ok result =>
    rw [handled] at isOk
    rw [Projection.apply_ok handled]
    exact handleWorkOrder_carried about new isOk.symm handled
  | error failure =>
    rw [handled] at isOk
    rw [Projection.apply_error handled]
    unfold carriedStep
    rw [← isOk]
    rfl

theorem apply_new {f : Event} (other : f.eventId ≠ e.eventId)
    (new : t.isAlreadyProcessed f.eventId = false) :
    ((workOrderProjection remembers).apply now t e).isAlreadyProcessed f.eventId = false := by
  cases handled : handleWorkOrder remembers e now t with
  | ok result =>
    rw [Projection.apply_ok handled]
    refine Bool.eq_false_iff.mpr fun processed => ?_
    rcases handleWorkOrder_learns handled f.eventId (work_remembers.mpr processed) with seen | same
    · exact Bool.eq_false_iff.mp new (work_remembers.mp seen)
    · exact other same
  | error failure =>
    rw [Projection.apply_error handled]
    exact new

theorem folded_carried (about : ∀ e ∈ events, subject e = some w)
    (ids : (events.map (·.eventId)).Nodup)
    (new : ∀ e ∈ events, t.isAlreadyProcessed e.eventId = false) :
    (folded remembers clock events t).carriedOf w = events.foldl carriedStep (t.carriedOf w) := by
  unfold folded
  induction events generalizing t with
  | nil => rfl
  | cons e events ih =>
    obtain ⟨aboutHere, aboutRest⟩ := List.forall_mem_cons.mp about
    obtain ⟨newHere, newRest⟩ := List.forall_mem_cons.mp new
    obtain ⟨idHere, idRest⟩ := List.nodup_cons.mp ids
    rw [List.foldl_cons, List.foldl_cons, ih aboutRest idRest, apply_carried aboutHere newHere]
    intro f hf
    refine apply_new (fun same => idHere ?_) (newRest f hf)
    exact List.mem_map.mpr ⟨f, hf, same⟩

theorem foldl_carriedStep_some (others : ∀ e ∈ events, e.isOf .created = false) (c : Carried)
    (p : Priority) :
    events.foldl carriedStep (some (c, p)) =
      some (c, if events.any fun e => legible e && e.isOf .ciFailed then .blocker else p) := by
  induction events generalizing p with
  | nil => rfl
  | cons e events ih =>
    obtain ⟨here, rest⟩ := List.forall_mem_cons.mp others
    rw [List.foldl_cons, List.any_cons]
    unfold carriedStep
    rw [here]
    cases legible e with
    | false => exact ih rest p
    | true =>
      cases failed : e.isOf .ciFailed with
      | false => exact ih rest p
      | true =>
        refine (ih rest .blocker).trans ?_
        simp

theorem foldl_carriedStep_none (others : ∀ e ∈ events, e.isOf .created = false) :
    events.foldl carriedStep none = (events.find? legible).map fun f =>
      ({ projectId := projectText f },
        if events.any fun e => legible e && e.isOf .ciFailed then .blocker else .normal) := by
  induction events with
  | nil => rfl
  | cons e events ih =>
    obtain ⟨here, rest⟩ := List.forall_mem_cons.mp others
    rw [List.foldl_cons, List.any_cons, List.find?_cons]
    cases readable : legible e with
    | false =>
      have stays : carriedStep none e = none := by
        unfold carriedStep
        rw [readable]
        rfl
      rw [stays]
      exact ih rest
    | true =>
      have seeds : carriedStep none e =
          some ({ projectId := projectText e },
            if e.isOf .ciFailed then .blocker else .normal) := by
        unfold carriedStep
        rw [readable, here]
        rfl
      rw [seeds, foldl_carriedStep_some rest]
      cases e.isOf .ciFailed <;> simp

end Runs

/-- The events of one work order with one creation among them. -/
structure LateCreation (w : String) where
  before : List Event
  created : Event
  after : List Event
  about : ∀ e ∈ before ++ created :: after, subject e = some w
  isCreated : created.isOf .created = true
  others : ∀ e ∈ before ++ after, e.isOf .created = false
  ids : ((before ++ created :: after).map (·.eventId)).Nodup

namespace LateCreation

variable (l : LateCreation w)

def late : List Event := l.before ++ l.created :: l.after

/-- The same events, the creation first. -/
def early : List Event := l.created :: (l.before ++ l.after)

def CiFree : Prop := ∀ e ∈ l.late, e.isOf .ciFailed = false

/-- Both orders end in a row with the same columns, and the same priority if CI never failed. -/
def Backfilled (remembers : Bool) (clock clock' : Event → Nat) : Prop :=
  let late := (folded remembers clock l.late []).carriedOf w
  let early := (folded remembers clock' l.early []).carriedOf w
  late.map Prod.fst = early.map Prod.fst ∧ (l.CiFree → late.map Prod.snd = early.map Prod.snd)

/-- The creation comes first, or carries no more than what its UPDATE fills in. -/
def Fills : Prop :=
  legible l.created = true → ∀ f, l.before.find? legible = some f →
    coalesce (projectText f) (projectText l.created) = projectText l.created ∧
      payloadText l.created "description" = none ∧ (l.CiFree → declaredPriority l.created = .normal)

variable {l}

theorem early_perm : l.early.Perm l.late := List.perm_middle.symm

theorem before_others : ∀ e ∈ l.before, e.isOf .created = false :=
  fun e he => l.others e (List.mem_append_left l.after he)

theorem after_others : ∀ e ∈ l.after, e.isOf .created = false :=
  fun e he => l.others e (List.mem_append_right l.before he)

theorem late_carried (remembers : Bool) (clock : Event → Nat) :
    (folded remembers clock l.late []).carriedOf w =
      l.after.foldl carriedStep (carriedStep (l.before.foldl carriedStep none) l.created) := by
  unfold late
  rw [folded_carried l.about l.ids fun _ _ => rfl, List.foldl_append, List.foldl_cons]
  rfl

theorem early_carried (remembers : Bool) (clock : Event → Nat) :
    (folded remembers clock l.early []).carriedOf w =
      (l.before ++ l.after).foldl carriedStep (carriedStep none l.created) := by
  have about : ∀ e ∈ l.early, subject e = some w := fun e he => l.about e (early_perm.mem_iff.mp he)
  have ids : (l.early.map (·.eventId)).Nodup := (early_perm.map _).nodup_iff.mpr l.ids
  rw [folded_carried about ids fun _ _ => rfl]
  rfl

theorem carriedStep_created (readable : legible l.created = true)
    (row : Option (Carried × Priority)) :
    carriedStep row l.created =
      match row with
      | none => some (carries l.created, declaredPriority l.created)
      | some (c, p) => some (c.fill (carries l.created), p) := by
  unfold carriedStep
  rw [if_pos readable, if_pos l.isCreated]

theorem carriedStep_illegible (unreadable : legible e = false) (row : Option (Carried × Priority)) :
    carriedStep row e = row := by
  unfold carriedStep
  rw [unreadable]
  rfl

theorem CiFree.any (free : l.CiFree) {events : List Event} (sub : ∀ e ∈ events, e ∈ l.late) :
    (events.any fun e => legible e && e.isOf .ciFailed) = false := by
  refine List.any_eq_false.mpr fun e he => ?_
  rw [free e (sub e he), Bool.and_false]
  exact Bool.false_ne_true

theorem fill_eq_carries (projectId : Text) (c : Event) :
    ({ projectId := projectId } : Carried).fill (carries c) = carries c ↔
      coalesce projectId (projectText c) = projectText c ∧ payloadText c "description" = none := by
  simp [Carried.fill, carries, coalesce, eq_comm]

end LateCreation

/-- A creation that comes late leaves what it would have left at the front exactly if it comes
before every legible event, or has no more to bring than its UPDATE fills in. -/
theorem backfilled_iff (remembers : Bool) (clock clock' : Event → Nat) (l : LateCreation w) :
    l.Backfilled remembers clock clock' ↔ l.Fills := by
  unfold LateCreation.Backfilled
  simp only [LateCreation.late_carried, LateCreation.early_carried]
  cases readable : legible l.created with
  | false =>
    have fills : l.Fills := fun yes => absurd (yes.symm.trans readable) nofun
    rw [LateCreation.carriedStep_illegible readable, LateCreation.carriedStep_illegible readable,
      List.foldl_append]
    simp [fills]
  | true =>
    have inLate : ∀ {events : List Event}, events ⊆ l.before ++ l.after →
        ∀ e ∈ events, e ∈ l.late :=
      fun sub e he => LateCreation.early_perm.mem_iff.mp (List.mem_cons_of_mem _ (sub he))
    rw [LateCreation.carriedStep_created readable, LateCreation.carriedStep_created readable,
      foldl_carriedStep_none LateCreation.before_others, foldl_carriedStep_some l.others]
    unfold LateCreation.Fills
    cases first : l.before.find? legible with
    | none =>
      rw [Option.map_none, foldl_carriedStep_some LateCreation.after_others]
      refine iff_of_true ⟨rfl, fun free => ?_⟩ fun _ f found => nomatch found
      rw [free.any (inLate (List.subset_append_right ..)), free.any (inLate (List.Subset.refl _))]
    | some f =>
      rw [Option.map_some, foldl_carriedStep_some LateCreation.after_others]
      simp only [readable, Option.map_some, Option.some.injEq, forall_true_left, forall_eq']
      rw [LateCreation.fill_eq_carries, and_assoc]
      apply and_congr_right'
      apply and_congr_right'
      apply forall_congr'
      intro free
      rw [free.any (inLate (List.subset_append_right ..)),
        free.any (inLate (List.subset_append_left ..)), free.any (inLate (List.Subset.refl _))]
      exact eq_comm

def startedFirst : LateCreation "w" where
  before := [{ eventId := "e2", eventType := WorkOrderEventType.started.text
               eventTimestamp := "2026-01-02T00:00:00Z", payload := .obj []
               workOrderId := some "w" }]
  created := { eventId := "e1", eventType := WorkOrderEventType.created.text
               eventTimestamp := "2026-01-01T00:00:00Z"
               payload := .obj [("description", .str "scope"), ("priority", .str "blocker")]
               workOrderId := some "w" }
  after := []
  about := by decide +kernel
  isCreated := rfl
  others := by decide +kernel
  ids := by decide +kernel

/-- The description and the priority of the creation are lost. -/
theorem startedFirst_drops :
    ¬∀ (remembers : Bool) (clock clock' : Event → Nat) (w : String) (l : LateCreation w),
      l.Backfilled remembers clock clock' := by
  intro same
  have late : ((folded true (fun _ => 0) startedFirst.late []).carriedOf "w").map Prod.snd =
    some .normal := rfl
  have early : ((folded true (fun _ => 0) startedFirst.early []).carriedOf "w").map Prod.snd =
    some .blocker := rfl
  have free : startedFirst.CiFree := by
    unfold LateCreation.CiFree
    decide +kernel
  have priority := (same true (fun _ => 0) (fun _ => 0) "w" startedFirst).2 free
  rw [late, early] at priority
  cases priority

end DreamStudio.Projections
