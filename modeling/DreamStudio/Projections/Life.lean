import DreamStudio.Library.Except
import DreamStudio.Projections.WorkOrder

namespace DreamStudio.Projections

open Library WorkOrders

structure Life where
  status : WorkOrderStatus := creationStatus
  blockedFrom : Option WorkOrderStatus := none
  lastEventId : Text := none
  sourceEventId : Text := none

def WorkOrderRow.life (remembers : Bool) (r : WorkOrderRow) : Life where
  status := r.status
  blockedFrom := if remembers then r.blockedFromStatus else none
  lastEventId := r.lastEventId
  sourceEventId := r.sourceEventId

def WorkOrderTable.lifeOf (remembers : Bool) (t : WorkOrderTable) (workOrderId : String) :
    Option Life := (Table.lookup WorkOrderRow.key workOrderId t).map (·.life remembers)

def eventPayload (e : Event) : Json := e.payload.or (.obj [])

def subject (e : Event) : Text :=
  match columnOr e.workOrderId (eventPayload e) "work_order_id" with
  | .ok v => if v.truthy then (bindText v).toOption.join else none
  | .error _ => none

inductive Change
  | create
  | skeleton
  | set (s : WorkOrderStatus)
  | block (phase : Option WorkOrderStatus)
  | unblock (named : Option WorkOrderStatus)
  deriving DecidableEq

def payloadPhase (e : Event) (key : String) : Option WorkOrderStatus :=
  match payloadGet (eventPayload e) key with
  | .ok v => openPhase v
  | .error _ => none

def change (remembers : Bool) (e : Event) : Change :=
  match WorkOrderEventType.ofText e.eventType with
  | some .created => .create
  | some .blocked => .block (if remembers then payloadPhase e "from_status" else none)
  | some .unblocked => .unblock (payloadPhase e "to_status")
  | some type => .set type.statusFor
  | none => .skeleton

def Life.apply (eventId : String) (l : Option Life) : Change → Life
  | .create =>
    match l with
    | none => { lastEventId := some eventId, sourceEventId := some eventId }
    | some l => { l with sourceEventId := coalesce l.sourceEventId (some eventId) }
  | .skeleton => l.getD {}
  | .set s => { l.getD {} with status := s, lastEventId := some eventId }
  | .block phase =>
    { l.getD {} with status := .blocked, blockedFrom := phase, lastEventId := some eventId }
  | .unblock named =>
    { l.getD {} with
      status := (named.or ((l.getD {}).blockedFrom.bind openStatus)).getD .inProgress
      blockedFrom := none, lastEventId := some eventId }

def Life.processed (eventId : String) (l : Option Life) : Bool :=
  l.any fun l => l.sourceEventId = some eventId ∨ l.lastEventId = some eventId

def lifeStep (remembers : Bool) (workOrderId : String) (l : Option Life) (e : Event) :
    Option Life :=
  if subject e = some workOrderId ∧ Life.processed e.eventId l = false then
    some (Life.apply e.eventId l (change remembers e))
  else l

def replay (remembers : Bool) (workOrderId : String) : List Event → Option Life
  | [] => none
  | e :: older => lifeStep remembers workOrderId (replay remembers workOrderId older) e

namespace WorkOrderTable

theorem lookup_ensureSkeleton (t : WorkOrderTable) (workOrderId projectId : Text) (now : Nat)
    (w : String) :
    Table.lookup WorkOrderRow.key w (t.ensureSkeleton workOrderId projectId now) =
      (Table.lookup WorkOrderRow.key w t).or
        (if workOrderId = some w then
          some { workOrderId := workOrderId, projectId := projectId, lastUpdatedAt := now }
        else none) := by
  unfold ensureSkeleton
  rw [Table.lookup_insertOrIgnore rfl]
  rfl

theorem lifeOf_ensureSkeleton (remembers : Bool) (t : WorkOrderTable) (workOrderId projectId : Text)
    (now : Nat) (w : String) :
    (t.ensureSkeleton workOrderId projectId now).lifeOf remembers w =
      if workOrderId = some w then some ((t.lifeOf remembers w).getD {})
      else t.lifeOf remembers w := by
  unfold lifeOf
  rw [lookup_ensureSkeleton]
  cases Table.lookup WorkOrderRow.key w t <;> split <;>
    simp [WorkOrderRow.life, creationStatus, WorkOrderEventType.statusFor]

theorem lifeOf_touch {remembers : Bool} {set : WorkOrderRow → WorkOrderRow} {f : Life → Life}
    (hset : ∀ r, (set r).key = r.key) (hf : ∀ r, (set r).life remembers = f (r.life remembers))
    (t : WorkOrderTable) (workOrderId projectId : Text) (now : Nat) (w : String) :
    ((t.ensureSkeleton workOrderId projectId now).safeUpsert workOrderId set).lifeOf remembers w =
      if workOrderId = some w then some (f ((t.lifeOf remembers w).getD {}))
      else t.lifeOf remembers w := by
  have skeleton := lifeOf_ensureSkeleton remembers t workOrderId projectId now w
  unfold safeUpsert
  split
  next h =>
    rw [if_pos h] at skeleton
    unfold lifeOf at skeleton ⊢
    have hk : WorkOrderRow.key { workOrderId := workOrderId, lastUpdatedAt := 0 } = some w := h
    rw [Table.lookup_upsert hset hk]
    obtain ⟨r, found, life⟩ := Option.map_eq_some_iff.mp skeleton
    rw [found, Option.map_some, Option.getD_some, hf, life]
  next h =>
    rw [if_neg h] at skeleton
    rw [← skeleton]
    unfold lifeOf
    have hk : WorkOrderRow.key { workOrderId := workOrderId, lastUpdatedAt := 0 } ≠ some w := h
    rw [Table.lookup_upsert_of_ne hset hk]

theorem backTo_eq (remembers : Bool) (t : WorkOrderTable) (w : String)
    (named : Option WorkOrderStatus) :
    t.backTo remembers (some w) named =
      named.or (((t.lifeOf remembers w).bind (·.blockedFrom)).bind openStatus) := by
  unfold backTo lifeOf
  rw [Option.bind_some]
  cases Table.lookup WorkOrderRow.key w t <;> cases remembers <;> simp [WorkOrderRow.life]

theorem lifeOf_insertCreated (remembers : Bool) (t : WorkOrderTable) {row : WorkOrderRow}
    {eventId : String}
    (hlife : row.life remembers = { lastEventId := some eventId, sourceEventId := some eventId })
    (w : String) :
    (t.insertCreated row).lifeOf remembers w =
      if row.key = some w then some (Life.apply eventId (t.lifeOf remembers w) .create)
      else t.lifeOf remembers w := by
  have source : row.sourceEventId = some eventId := congrArg Life.sourceEventId hlife
  have filled : ∀ r, (backfill row r).life remembers =
      { r.life remembers with sourceEventId := coalesce r.sourceEventId (some eventId) } :=
        fun r => by
    rw [← source]
    rfl
  unfold lifeOf insertCreated
  rw [Table.lookup_update (by intro r; rfl), Table.lookup_insertOrIgnore rfl]
  by_cases hrow : row.key = some w
  · cases found : Table.lookup WorkOrderRow.key w t with
    | none => simp [hrow, Table.SameKey, filled, hlife, source, coalesce, Life.apply]
    | some r =>
      have hr : r.key = some w := (Table.lookup_key found).2
      simp [hr, hrow, Table.SameKey, filled, Life.apply]
      rfl
  · cases found : Table.lookup WorkOrderRow.key w t with
    | none => simp [hrow]
    | some r =>
      have hr : r.key = some w := (Table.lookup_key found).2
      have other : ¬ some w = row.key := fun same => hrow same.symm
      simp [hr, hrow, other, Table.SameKey]

theorem handleCreated_cases {t t' : WorkOrderTable} {workOrderId : Text}
    {projectId milestoneId payload : Json} {eventId ts : String} {now : Nat}
    (h : t.handleCreated workOrderId projectId milestoneId payload eventId ts now = .ok t') :
    ∃ row : WorkOrderRow, t' = t.insertCreated row ∧ row.key = workOrderId ∧
      ∀ remembers, row.life remembers =
        { lastEventId := some eventId, sourceEventId := some eventId } := by
  unfold handleCreated createdRow at h
  simp only [bind_eq_ok, pure_eq_ok] at h
  obtain ⟨_, ⟨_, _, _, _, _, _, _, _, _, _, _, _, _, _, _, _, _, _, _, _, _, _, rfl⟩, rfl⟩ := h
  refine ⟨_, rfl, rfl, fun remembers => ?_⟩
  cases remembers <;> rfl

theorem lifeOf_handleCreated {remembers : Bool} {t t' : WorkOrderTable} {workOrderId : Text}
    {projectId milestoneId payload : Json} {eventId ts : String} {now : Nat}
    (h : t.handleCreated workOrderId projectId milestoneId payload eventId ts now = .ok t')
    (w : String) :
    t'.lifeOf remembers w =
      if workOrderId = some w then some (Life.apply eventId (t.lifeOf remembers w) .create)
      else t.lifeOf remembers w := by
  obtain ⟨row, rfl, rfl, hlife⟩ := handleCreated_cases h
  exact lifeOf_insertCreated remembers t (hlife remembers) w

theorem handleTyped_life {remembers : Bool} {t t' : WorkOrderTable}
    {type : Option WorkOrderEventType} {workOrderId projectId : Text} {e : Event} {now n : Nat}
    (htype : WorkOrderEventType.ofText e.eventType = type) (created : type ≠ some .created)
    (h : (t.ensureSkeleton workOrderId projectId now).handleTyped remembers type workOrderId
      (eventPayload e) e.eventId e.eventTimestamp now = .ok (n, t')) (w : String) :
    t'.lifeOf remembers w =
      if workOrderId = some w then
        some (Life.apply e.eventId (t.lifeOf remembers w) (change remembers e))
      else t.lifeOf remembers w := by
  have set : ∀ {set : WorkOrderRow → WorkOrderRow} {s : WorkOrderStatus},
      (∀ r, (set r).key = r.key) →
      (∀ r, (set r).life remembers =
        { r.life remembers with status := s, lastEventId := some e.eventId }) →
      ((t.ensureSkeleton workOrderId projectId now).safeUpsert workOrderId set).lifeOf remembers w =
        if workOrderId = some w then
          some (Life.apply e.eventId (t.lifeOf remembers w) (.set s))
        else t.lifeOf remembers w := fun {_ s} hkey hlife =>
    lifeOf_touch (f := fun l => { l with status := s, lastEventId := some e.eventId }) hkey hlife ..
  unfold change
  rw [htype]
  unfold handleTyped at h
  split at h
  all_goals simp only [bind_eq_ok, pure_eq_ok, Prod.mk.injEq] at h
  next =>
    obtain ⟨-, rfl⟩ := h
    exact set (fun _ => rfl) fun _ => rfl
  next =>
    obtain ⟨_, h, -, rfl⟩ := h
    unfold handleBlocked at h
    simp only [bind_eq_ok, pure_eq_ok] at h
    obtain ⟨_, _, _, _, _, _, _, hv, rfl⟩ := h
    simp only [payloadPhase, hv]
    apply lifeOf_touch (f := fun l => { l with
      status := .blocked, blockedFrom := if remembers then openPhase _ else none
      lastEventId := some e.eventId })
    · intro r
      rfl
    · intro r
      cases remembers <;> rfl
  next =>
    obtain ⟨_, h, -, rfl⟩ := h
    unfold handleUnblocked at h
    simp only [bind_eq_ok, pure_eq_ok] at h
    obtain ⟨v, hv, rfl⟩ := h
    simp only [payloadPhase, hv]
    rw [lifeOf_touch (f := fun l => { l with
      status := ((t.ensureSkeleton workOrderId projectId now).backTo remembers workOrderId
        (openPhase v)).getD .inProgress
      blockedFrom := none, lastEventId := some e.eventId })]
    · split
      next hw =>
        subst hw
        rw [backTo_eq, lifeOf_ensureSkeleton, if_pos rfl]
        rfl
      next => rfl
    · intro r
      rfl
    · intro r
      cases remembers <;> rfl
  next =>
    obtain ⟨-, rfl⟩ := h
    exact set (fun _ => rfl) fun _ => rfl
  next =>
    obtain ⟨-, rfl⟩ := h
    simp only [handleClosed, handleEnded]
    exact set (fun _ => rfl) fun _ => rfl
  next =>
    obtain ⟨-, rfl⟩ := h
    simp only [handleCancelled, handleEnded]
    exact set (fun _ => rfl) fun _ => rfl
  next =>
    obtain ⟨-, rfl⟩ := h
    exact set (fun _ => rfl) fun _ => rfl
  next type _ _ _ _ _ _ _ =>
    obtain ⟨-, rfl⟩ := h
    cases type <;> first | contradiction | exact set (fun _ => rfl) fun _ => rfl
  next =>
    obtain ⟨-, rfl⟩ := h
    exact lifeOf_ensureSkeleton ..

end WorkOrderTable

open WorkOrderTable

theorem columnOr_subject {e : Event} {v : Json} {key : Text}
    (hv : columnOr e.workOrderId (eventPayload e) "work_order_id" = .ok v)
    (truthy : v.truthy = true) (bound : bindParam v = .ok key) : subject e = key := by
  unfold bindParam at bound
  split at bound <;> cases bound
  next hb => simp [subject, hv, truthy, hb, Except.toOption]

/-- The four ways a call of `handle` returns. -/
theorem handleWorkOrder_cases {remembers : Bool} {e : Event} {now n : Nat} {t t' : WorkOrderTable}
    (h : handleWorkOrder remembers e now t = .ok (n, t')) :
    t.isAlreadyProcessed e.eventId = true ∧ t' = t ∨
    t.isAlreadyProcessed e.eventId = false ∧
      (subject e = none ∧ t' = t ∨
        (∃ projectId milestoneId,
          (WorkOrderEventType.ofText e.eventType = some .created ∧
            columnOr e.projectId (eventPayload e) "project_id" = .ok projectId ∧
            columnOr e.milestoneId (eventPayload e) "milestone_id" = .ok milestoneId) ∧
          t.handleCreated (subject e) projectId milestoneId (eventPayload e) e.eventId
            e.eventTimestamp now = .ok t') ∨
        ∃ projectId,
          (WorkOrderEventType.ofText e.eventType ≠ some .created ∧
            ∃ v, columnOr e.projectId (eventPayload e) "project_id" = .ok v ∧
              bindParam v = .ok projectId) ∧
          (t.ensureSkeleton (subject e) projectId now).handleTyped remembers
            (WorkOrderEventType.ofText e.eventType) (subject e) (eventPayload e) e.eventId
            e.eventTimestamp now = .ok (n, t')) := by
  unfold handleWorkOrder at h
  split at h
  next already =>
    cases h
    exact Or.inl ⟨already, rfl⟩
  next new =>
    refine Or.inr ⟨by simpa using new, ?_⟩
    obtain ⟨v, hv, h⟩ := bind_eq_ok.mp h
    split at h
    next truthy =>
      obtain ⟨project, hproject, h⟩ := bind_eq_ok.mp h
      obtain ⟨milestone, hmilestone, h⟩ := bind_eq_ok.mp h
      obtain ⟨key, hkey, h⟩ := bind_eq_ok.mp h
      rw [columnOr_subject hv truthy hkey]
      split at h
      next created =>
        obtain ⟨_, h, h'⟩ := bind_eq_ok.mp h
        cases h'
        exact Or.inr (Or.inl ⟨project, milestone, ⟨created, hproject, hmilestone⟩, h⟩)
      next other =>
        obtain ⟨projectId, hbound, h⟩ := bind_eq_ok.mp h
        exact Or.inr (Or.inr ⟨projectId, ⟨other, project, hproject, hbound⟩, h⟩)
    next falsy =>
      cases h
      refine Or.inl ⟨?_, rfl⟩
      simp [subject, eventPayload, hv, falsy]

theorem handleWorkOrder_life {remembers : Bool} {e : Event} {now n : Nat} {t t' : WorkOrderTable}
    (h : handleWorkOrder remembers e now t = .ok (n, t')) (w : String)
    (fresh : subject e = some w →
      t.isAlreadyProcessed e.eventId = Life.processed e.eventId (t.lifeOf remembers w)) :
    t'.lifeOf remembers w = lifeStep remembers w (t.lifeOf remembers w) e := by
  unfold lifeStep
  rcases handleWorkOrder_cases h with ⟨already, rfl⟩ | ⟨new, h⟩
  · rw [if_neg]
    rintro ⟨hw, hp⟩
    rw [fresh hw, hp] at already
    cases already
  · have cond : (subject e = some w ∧ Life.processed e.eventId (t.lifeOf remembers w) = false) ↔
        subject e = some w := ⟨And.left, fun hw => ⟨hw, fresh hw ▸ new⟩⟩
    simp only [cond]
    rcases h with ⟨none, rfl⟩ | ⟨_, _, ⟨created, -⟩, h⟩ | ⟨_, ⟨other, -⟩, h⟩
    · simp [none]
    · rw [lifeOf_handleCreated h w]
      simp [change, created]
    · exact handleTyped_life rfl other h w

/-- Every event id in the tables is that of an event about the same work order. -/
def Traced (events : List Event) (t : WorkOrderTable) : Prop :=
  ∀ r ∈ t, ∀ id, r.sourceEventId = some id ∨ r.lastEventId = some id →
    ∃ f ∈ events, f.eventId = id ∧ subject f = r.key

theorem Traced.cons {events : List Event} {t : WorkOrderTable} (h : Traced events t) (e : Event) :
    Traced (e :: events) t := by
  intro r hr id hid
  obtain ⟨f, hf, hrest⟩ := h r hr id hid
  exact ⟨f, List.mem_cons_of_mem _ hf, hrest⟩

theorem handleTyped_cases {remembers : Bool} {t t' : WorkOrderTable}
    {type : Option WorkOrderEventType} {workOrderId : Text} {payload : Json} {eventId ts : String}
    {now n : Nat}
    (h : t.handleTyped remembers type workOrderId payload eventId ts now = .ok (n, t')) :
    type = none ∧ t' = t ∨ ∃ set, t' = t.safeUpsert workOrderId set ∧ ∀ r, (set r).key = r.key ∧
      (set r).sourceEventId = r.sourceEventId ∧ (set r).lastEventId = some eventId ∧
      (set r).carried = r.carried ∧ (set r).sequenceOrder = r.sequenceOrder ∧
      (set r).priority = if type = some .ciFailed then .blocker else r.priority := by
  unfold handleTyped at h
  split at h
  all_goals simp only [bind_eq_ok, pure_eq_ok, Prod.mk.injEq] at h
  next =>
    obtain ⟨-, rfl⟩ := h
    exact Or.inr ⟨_, rfl, fun _ => ⟨rfl, rfl, rfl, rfl, rfl, rfl⟩⟩
  next =>
    obtain ⟨_, h, -, rfl⟩ := h
    unfold handleBlocked at h
    simp only [bind_eq_ok, pure_eq_ok] at h
    obtain ⟨_, _, _, _, _, _, _, _, rfl⟩ := h
    exact Or.inr ⟨_, rfl, fun _ => ⟨rfl, rfl, rfl, rfl, rfl, rfl⟩⟩
  next =>
    obtain ⟨_, h, -, rfl⟩ := h
    unfold handleUnblocked at h
    simp only [bind_eq_ok, pure_eq_ok] at h
    obtain ⟨_, _, rfl⟩ := h
    exact Or.inr ⟨_, rfl, fun _ => ⟨rfl, rfl, rfl, rfl, rfl, rfl⟩⟩
  next =>
    obtain ⟨-, rfl⟩ := h
    exact Or.inr ⟨_, rfl, fun _ => ⟨rfl, rfl, rfl, rfl, rfl, rfl⟩⟩
  next =>
    obtain ⟨-, rfl⟩ := h
    unfold handleClosed handleEnded
    exact Or.inr ⟨_, rfl, fun _ => ⟨rfl, rfl, rfl, rfl, rfl, rfl⟩⟩
  next =>
    obtain ⟨-, rfl⟩ := h
    unfold handleCancelled handleEnded
    exact Or.inr ⟨_, rfl, fun _ => ⟨rfl, rfl, rfl, rfl, rfl, rfl⟩⟩
  next =>
    obtain ⟨-, rfl⟩ := h
    exact Or.inr ⟨_, rfl, fun _ => ⟨rfl, rfl, rfl, rfl, rfl, rfl⟩⟩
  next =>
    obtain ⟨-, rfl⟩ := h
    exact Or.inr ⟨_, rfl, fun _ => ⟨rfl, rfl, rfl, rfl, rfl, by simp⟩⟩
  next =>
    obtain ⟨-, rfl⟩ := h
    exact Or.inl ⟨rfl, rfl⟩

theorem handleWorkOrder_unique {remembers : Bool} {e : Event} {now n : Nat} {t t' : WorkOrderTable}
    (unique : Table.Unique WorkOrderRow.key t)
    (h : handleWorkOrder remembers e now t = .ok (n, t')) :
    Table.Unique WorkOrderRow.key t' := by
  rcases handleWorkOrder_cases h with ⟨-, rfl⟩ | ⟨-, ⟨-, rfl⟩ | ⟨_, _, -, h⟩ | ⟨projectId, -, h⟩⟩
  · exact unique
  · exact unique
  · obtain ⟨row, rfl, -⟩ := handleCreated_cases h
    exact Table.update_unique (Table.insertOrIgnore_unique unique _) fun _ _ => rfl
  · have skeleton : Table.Unique WorkOrderRow.key (t.ensureSkeleton (subject e) projectId now) :=
      Table.insertOrIgnore_unique unique _
    rcases handleTyped_cases h with ⟨-, rfl⟩ | ⟨set, rfl, hset⟩
    · exact skeleton
    · exact Table.upsert_unique skeleton (fun r => (hset r).1) _

theorem handleWorkOrder_traced {remembers : Bool} {e : Event} {now n : Nat} {t t' : WorkOrderTable}
    {events : List Event} (traced : Traced events t)
    (h : handleWorkOrder remembers e now t = .ok (n, t')) : Traced (e :: events) t' := by
  have traced := traced.cons e
  have mine : ∀ {k : Text} {id : String}, k = subject e → some e.eventId = some id →
      ∃ f ∈ e :: events, f.eventId = id ∧ subject f = k := fun hk hid =>
    ⟨e, List.mem_cons_self, Option.some.inj hid, hk.symm⟩
  rcases handleWorkOrder_cases h with ⟨-, rfl⟩ | ⟨-, ⟨-, rfl⟩ | ⟨_, _, -, h⟩ | ⟨projectId, -, h⟩⟩
  · exact traced
  · exact traced
  · obtain ⟨row, rfl, hkey, hlife⟩ := handleCreated_cases h
    have source : row.sourceEventId = some e.eventId := congrArg Life.sourceEventId (hlife true)
    have last : row.lastEventId = some e.eventId := congrArg Life.lastEventId (hlife true)
    have inserted : Traced (e :: events)
        (Table.insertOrIgnore WorkOrderRow.key (fun _ => true) t row) := by
      intro r hr id hid
      rcases Table.mem_insertOrIgnore.mp hr with hr | ⟨rfl, -⟩
      · exact traced r hr id hid
      · rw [source, last, or_self] at hid
        exact mine hkey hid
    intro r hr id hid
    obtain ⟨q, hq, rfl⟩ := Table.mem_update.mp hr
    split at hid
    next same =>
      have hqk : q.key = subject e := (of_decide_eq_true same).1.trans hkey
      rw [if_pos same]
      rcases hid with filled | old
      · simp only [backfill, coalesce, source] at filled
        cases hsource : q.sourceEventId with
        | none =>
          rw [hsource] at filled
          exact mine hqk filled
        | some s =>
          rw [hsource] at filled
          exact inserted q hq id (Or.inl (hsource.trans filled))
      · exact inserted q hq id (Or.inr old)
    next other =>
      rw [if_neg other]
      exact inserted q hq id hid
  · have skeleton : Traced (e :: events) (t.ensureSkeleton (subject e) projectId now) := by
      intro r hr id hid
      rcases Table.mem_insertOrIgnore.mp hr with hr | ⟨rfl, -⟩
      · exact traced r hr id hid
      · simp at hid
    rcases handleTyped_cases h with ⟨-, rfl⟩ | ⟨set, rfl, hset⟩
    · exact skeleton
    · intro r hr id hid
      rcases Table.mem_upsert hr with hr | rfl | ⟨q, hq, same, rfl⟩
      · exact skeleton r hr id hid
      · rw [(hset _).2.1, (hset _).2.2.1] at hid
        exact mine (hset _).1 (hid.resolve_left nofun)
      · rw [(hset q).2.1, (hset q).2.2.1] at hid
        rw [(hset q).1]
        rcases hid with source | last
        · exact skeleton q hq id (Or.inl source)
        · exact mine same.1 last

theorem isAlreadyProcessed_eq {remembers : Bool} {events : List Event} {t : WorkOrderTable}
    {e : Event} {w : String} (unique : Table.Unique WorkOrderRow.key t) (traced : Traced events t)
    (ids : ∀ f ∈ events, f.eventId = e.eventId → f = e) (hw : subject e = some w) :
    t.isAlreadyProcessed e.eventId = Life.processed e.eventId (t.lifeOf remembers w) := by
  rw [Bool.eq_iff_iff]
  unfold isAlreadyProcessed lifeOf Life.processed
  simp only [List.any_eq_true, decide_eq_true_eq, Option.any_map]
  constructor
  · rintro ⟨r, hr, hid⟩
    obtain ⟨f, hf, same, hkey⟩ := traced r hr e.eventId hid
    rw [ids f hf same, hw] at hkey
    obtain ⟨q, hq⟩ := Table.exists_lookup hr hkey.symm
    have : q = r := Table.eq_of_key_eq unique (Table.lookup_key hq).1 hr
      ((Table.lookup_key hq).2.trans hkey) (by simp [(Table.lookup_key hq).2])
    subst this
    rw [hq]
    exact decide_eq_true hid
  · cases found : Table.lookup WorkOrderRow.key w t with
    | none => simp
    | some r =>
      intro hid
      exact ⟨r, (Table.lookup_key found).1, of_decide_eq_true hid⟩

/-- `handle` does not raise on the event when it has to apply it. -/
def acceptable (remembers : Bool) (e : Event) : Bool := (handleWorkOrder remembers e 0 []).isOk

theorem handleCreated_isOk (t : WorkOrderTable) (workOrderId : Text)
    (projectId milestoneId payload : Json) (eventId ts : String) (now : Nat) :
    (t.handleCreated workOrderId projectId milestoneId payload eventId ts now).isOk =
      (WorkOrderTable.handleCreated [] workOrderId projectId milestoneId payload eventId ts
        0).isOk := by
  unfold handleCreated
  apply isOk_bind_pure
  unfold createdRow
  exact isOk_bind_congr fun _ => isOk_bind_congr fun _ => isOk_bind_congr fun _ =>
    isOk_bind_congr fun _ => isOk_bind_congr fun _ => isOk_bind_congr fun _ =>
    isOk_bind_congr fun _ => isOk_bind_congr fun _ => isOk_bind_congr fun _ =>
    isOk_bind_congr fun _ => isOk_bind_pure rfl

theorem handleTyped_isOk (remembers : Bool) (t t' : WorkOrderTable)
    (type : Option WorkOrderEventType) (workOrderId : Text) (payload : Json) (eventId ts : String)
    (now : Nat) :
    (t.handleTyped remembers type workOrderId payload eventId ts now).isOk =
      (t'.handleTyped remembers type workOrderId payload eventId ts 0).isOk := by
  unfold handleTyped
  split
  case h_2 =>
    apply isOk_bind_pure
    exact isOk_bind_congr fun _ => isOk_bind_congr fun _ => isOk_bind_congr fun _ =>
      isOk_bind_pure rfl
  case h_3 => exact isOk_bind_pure (isOk_bind_pure rfl)
  all_goals rfl

/-- Whether `handle` raises depends on the event alone, unless the event was applied before. -/
theorem handleWorkOrder_isOk {remembers : Bool} {e : Event} {t : WorkOrderTable}
    (new : t.isAlreadyProcessed e.eventId = false) (now : Nat) :
    (handleWorkOrder remembers e now t).isOk = acceptable remembers e := by
  have empty : WorkOrderTable.isAlreadyProcessed [] e.eventId = false := rfl
  unfold acceptable handleWorkOrder
  rw [new, empty]
  refine isOk_bind_congr fun v => ?_
  split
  · refine isOk_bind_congr fun _ => isOk_bind_congr fun _ => isOk_bind_congr fun _ => ?_
    split
    · exact isOk_bind_pure (handleCreated_isOk ..)
    · exact isOk_bind_congr fun _ => handleTyped_isOk ..
  · rfl

end DreamStudio.Projections
