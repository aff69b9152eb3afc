import DreamStudio.Projections.Delivery
import DreamStudio.Projections.Replay

namespace DreamStudio.Projections

open Library WorkOrders

universe u

variable {σ : Type u} {remembers : Bool}

structure Applies (remembers : Bool) (applied : List Event) (t : WorkOrderTable) : Prop where
  unique : Table.Unique WorkOrderRow.key t
  traced : Traced applied t
  lives : ∀ w, t.lifeOf remembers w = replay remembers w applied
  accepted : ∀ e ∈ applied, acceptable remembers e = true

theorem Applies.nil : Applies remembers [] [] where
  unique := List.Pairwise.nil
  traced := by simp [Traced]
  lives := fun w => by simp [WorkOrderTable.lifeOf, Table.lookup, replay]
  accepted := by simp

theorem Applies.handle {applied : List Event} {t t' : WorkOrderTable}
    (h : Applies remembers applied t) {e : Event}
    (ids : ∀ f ∈ applied, f.eventId = e.eventId → f = e) {now n : Nat}
    (handled : handleWorkOrder remembers e now t = .ok (n, t')) :
    Applies remembers (e :: applied) t' where
  unique := handleWorkOrder_unique h.unique handled
  traced := handleWorkOrder_traced h.traced handled
  lives := fun w => by
    rw [replay, ← h.lives w]
    exact handleWorkOrder_life handled w fun hw => isAlreadyProcessed_eq h.unique h.traced ids hw
  accepted := by
    refine List.forall_mem_cons.mpr ⟨?_, h.accepted⟩
    cases processed : t.isAlreadyProcessed e.eventId with
    | false => rw [← handleWorkOrder_isOk processed now, handled]; rfl
    | true =>
      obtain ⟨r, hr, hid⟩ := List.any_eq_true.mp processed
      obtain ⟨f, hf, same, -⟩ := h.traced r hr e.eventId (of_decide_eq_true hid)
      exact ids f hf same ▸ h.accepted f hf

theorem exists_handled {e : Event} (accepted : acceptable remembers e = true) (now : Nat)
    (t : WorkOrderTable) : ∃ n t', handleWorkOrder remembers e now t = .ok (n, t') := by
  cases processed : t.isAlreadyProcessed e.eventId with
  | true => exact ⟨0, t, by simp [handleWorkOrder, processed]⟩
  | false =>
    rw [← handleWorkOrder_isOk processed now] at accepted
    cases handled : handleWorkOrder remembers e now t with
    | ok result => exact ⟨result.1, result.2, rfl⟩
    | error failure => rw [handled] at accepted; cases accepted

theorem Applies.foldl {events applied all : List Event} {s : WorkOrderTable × Option String}
    (h : Applies remembers applied s.1) (ids : ∀ e ∈ all, ∀ f ∈ all, e.eventId = f.eventId → e = f)
    (sub : applied ⊆ all) (sub' : events ⊆ all)
    (accepted : ∀ e ∈ events, acceptable remembers e = true) (now : Nat) :
    Applies remembers (events.reverse ++ applied)
      (events.foldl (Authority.replayEvent (workOrderProjection remembers) (fun _ => none) now)
        s).1 := by
  induction events generalizing applied s with
  | nil => exact h
  | cons e events ih =>
    obtain ⟨he, hrest⟩ := List.cons_subset.mp sub'
    obtain ⟨n, t', handled⟩ := exists_handled (accepted e List.mem_cons_self) now s.1
    have next : Applies remembers (e :: applied) t' :=
      h.handle (fun f hf => ids f (sub hf) e he) handled
    have step : Authority.replayEvent (workOrderProjection remembers) (fun _ => none) now s e =
        (t', some e.eventId) := by
      simp [Authority.replayEvent, workOrderProjection, handled]
    rw [List.foldl_cons, step, List.reverse_cons, List.append_assoc]
    exact ih (s := (t', some e.eventId)) next (List.cons_subset.mpr ⟨he, sub⟩) hrest
      fun f hf => accepted f (List.mem_cons_of_mem _ hf)

namespace Authority

/-- The events `handle()` returned on, the newest call first. -/
def okEvents (a : Authority σ) : List Event := (a.attempts.filter (·.ok)).map (·.event)

end Authority

/-- The one engine these runs are about. -/
def workOrderEngine (remembers : Bool) : Engine WorkOrderTable :=
  ⟨[workOrderProjection remembers], List.nodup_singleton _⟩

theorem consumes_iff {e : Event} :
    (workOrderProjection remembers).consumes e = true ↔
      (WorkOrderEventType.ofText e.eventType).isSome = true := by
  have literal : ∀ type ∈ WorkOrderEventType.all, contains type.text "%" = false := by decide
  unfold Projection.consumes matchesTypeFilter workOrderProjection WorkOrderEventType.ofText
  rw [List.any_map, List.any_eq_true, List.find?_isSome]
  refine exists_congr fun type => and_congr_right fun htype => ?_
  simp only [Function.comp_apply, literal type htype, Bool.false_eq_true, if_false,
    decide_eq_true_eq]
  exact ⟨Eq.symm, Eq.symm⟩

namespace Authority

def Waits (remembers : Bool) (a : Authority WorkOrderTable) (f : Event) : Prop :=
  Settled remembers f a.okEvents ∨ a.Queued (workOrderProjection remembers).name .business f.eventId

/-- What the successful calls so far have made of the tables. -/
structure History (remembers : Bool) (a : Authority WorkOrderTable) : Prop where
  applies : Applies remembers a.okEvents a.target
  stored : a.okEvents ⊆ a.events .business
  consumed : ∀ e ∈ a.okEvents, (workOrderProjection remembers).consumes e = true
  recent : ∀ e ∈ a.okEvents, epoch < e.eventTimestamp
  cursor : ∀ id, a.cursor (workOrderProjection remembers).name .business = some id →
    ∃ g ∈ a.okEvents, g.eventId = id
  queued : ∀ r ∈ a.retryQueue, r.eventSource = .business ∧
    ∃ e ∈ a.events .business, e.eventId = r.eventId ∧
      (workOrderProjection remembers).consumes e = true ∧ epoch < e.eventTimestamp
  kept : ∀ newer x older, a.okEvents = newer ++ x :: older →
    ¬ Forgets remembers (a.events .business) older x

end Authority

namespace Authority

theorem advanceCursor_cursor {a : Authority σ} {name id id' : String} {source : Source} {now : Nat}
    (h : (a.advanceCursor name source id now).cursor name source = some id') : id' = id := by
  unfold cursor advanceCursor updateState Table.update at h
  simp only [List.find?_map] at h
  obtain ⟨row, found, hrow⟩ := Option.bind_eq_some_iff.mp h
  obtain ⟨r, hr, rfl⟩ := Option.map_eq_some_iff.mp found
  have named : r.projectionName = name := by
    have := List.find?_some hr
    simp only [Function.comp_apply, decide_eq_true_eq] at this
    split at this
    next same => exact same
    next => exact this
  rw [if_pos (decide_eq_true named)] at hrow
  cases source <;> exact (Option.some.inj hrow).symm

theorem updateStateMetrics_cursor (a : Authority σ) (name name' : String) (source : Source)
    (processed failed : Nat) :
    (a.updateStateMetrics name processed failed).cursor name' source = a.cursor name' source := by
  unfold cursor updateStateMetrics updateState Table.update
  rw [List.find?_map]
  have same : ((fun row : ProjectionState => decide (row.projectionName = name')) ∘
      fun row => if decide (row.projectionName = name) = true then
        { row with eventsProcessedTotal := row.eventsProcessedTotal + processed
                   eventsFailedTotal := row.eventsFailedTotal + failed } else row) =
      fun row => decide (row.projectionName = name') := by
    funext row
    simp only [Function.comp_apply]
    split <;> rfl
  rw [same]
  cases a.projectionState.find? fun row => decide (row.projectionName = name') with
  | none => rfl
  | some row =>
    cases source <;> simp only [Option.map_some, Option.bind_some] <;> split <;> rfl

theorem getCursorTimestamp_cases {a : Authority WorkOrderTable} (h : History remembers a)
    (unique : Table.Unique Event.key (a.events .business)) :
    a.getCursorTimestamp (workOrderProjection remembers).name .business = epoch ∨
      ∃ g ∈ a.okEvents, a.cursor (workOrderProjection remembers).name .business = some g.eventId ∧
        a.getCursorTimestamp (workOrderProjection remembers).name .business = g.eventTimestamp := by
  unfold getCursorTimestamp
  cases cursor : a.cursor (workOrderProjection remembers).name .business with
  | none => exact Or.inl rfl
  | some id =>
    obtain ⟨g, hg, rfl⟩ := h.cursor id cursor
    simp only
    split
    · exact Or.inl rfl
    · rw [findEvent_eq_some unique (h.stored hg)]
      exact Or.inr ⟨g, hg, rfl, rfl⟩

theorem epoch_le_getCursorTimestamp {a : Authority WorkOrderTable} (h : History remembers a)
    (unique : Table.Unique Event.key (a.events .business)) :
    epoch ≤ a.getCursorTimestamp (workOrderProjection remembers).name .business := by
  rcases getCursorTimestamp_cases h unique with none | ⟨g, hg, -, some⟩
  · exact none.ge
  · rw [some]
    exact (h.recent g hg).le

structure Succeeded (remembers : Bool) (a b : Authority WorkOrderTable) (e : Event) : Prop where
  handled : ∃ now n, handleWorkOrder remembers e now a.target = .ok (n, b.target)
  calls : b.okEvents = e :: a.okEvents
  events : b.events .business = a.events .business
  shrinks : b.retryQueue ⊆ a.retryQueue
  keeps : ∀ r ∈ a.retryQueue, r ∈ b.retryQueue ∨ r.eventId = e.eventId
  cursor : ∀ id, b.cursor (workOrderProjection remembers).name .business = some id →
    id = e.eventId

structure Failed (remembers : Bool) (a b : Authority WorkOrderTable) (e : Event) : Prop where
  target : b.target = a.target
  calls : b.okEvents = a.okEvents
  events : b.events .business = a.events .business
  cursor : b.cursor (workOrderProjection remembers).name .business =
    a.cursor (workOrderProjection remembers).name .business
  grows : ∀ r ∈ b.retryQueue, r.eventSource = .business ∧ r.eventId = e.eventId ∨
    ∃ q ∈ a.retryQueue, r.eventSource = q.eventSource ∧ r.eventId = q.eventId
  keeps : ∀ r ∈ a.retryQueue, ∃ q ∈ b.retryQueue, q.eventId = r.eventId ∧
    q.eventSource = r.eventSource ∧ q.projectionName = r.projectionName
  queued : b.Queued (workOrderProjection remembers).name .business e.eventId

def Outcome (remembers : Bool) (a b : Authority WorkOrderTable) (e : Event) (ok : Bool) : Prop :=
  ok = true ∧ Succeeded remembers a b e ∨ Failed remembers a b e ∨
    b.DeadLettered (workOrderProjection remembers).name e.eventId

theorem handled_of_callHandle {a : Authority WorkOrderTable} {e : Event} {fault : Option Failure}
    {now n : Nat} {target : WorkOrderTable}
    (call : a.callHandle (workOrderProjection remembers) e fault now = .ok (n, target)) :
    handleWorkOrder remembers e now a.target = .ok (n, target) := by
  unfold callHandle at call
  split at call
  · cases call
  · exact call

theorem retryRow_outcome {a : Authority WorkOrderTable} {row : RetryRow} {e : Event}
    (ids : Table.Unique RetryRow.idKey a.retryQueue) (hrow : row ∈ a.retryQueue)
    (named : row.projectionName = (workOrderProjection remembers).name)
    (business : row.eventSource = .business)
    (found : a.findEvent row.eventSource row.eventId = some e) (fault : Option Failure)
    (now : Nat) :
    Outcome remembers a (a.retryRow (workOrderProjection remembers) row fault now) e
      (a.callHandle (workOrderProjection remembers) e fault now).isOk := by
  have hid : e.eventId = row.eventId := by simpa using List.find?_some found
  unfold retryRow
  rw [found]
  simp only
  split
  next n target call =>
    have handled := handled_of_callHandle call
    refine Or.inl ⟨by rw [call]; rfl, ?_⟩
    exact {
      handled := ⟨now, n, handled⟩
      calls := rfl
      events := rfl
      shrinks := fun r hr => (List.mem_filter.mp hr).1
      keeps := by
        intro r hr
        by_cases same : r.id = row.id
        · have : r = row :=
            Table.eq_of_key_eq ids hr hrow (congrArg some same) (by simp [RetryRow.idKey])
          exact Or.inr (this ▸ hid.symm)
        · exact Or.inl (List.mem_filter.mpr ⟨hr, decide_eq_true same⟩)
      cursor := by
        intro id moved
        rw [retrySucceeded, business] at moved
        exact (advanceCursor_cursor moved).trans hid.symm }
  next failure call =>
    refine Or.inr ?_
    unfold retryFailed
    simp only
    split
    next => exact Or.inr (hid ▸ addDeadLetter_deadLettered ..)
    next =>
      refine Or.inl ?_
      exact {
        target := rfl
        calls := rfl
        events := rfl
        cursor := rfl
        grows := by
          intro r hr
          obtain ⟨q, hq, rfl⟩ := Table.mem_update.mp hr
          refine Or.inr ⟨q, hq, ?_⟩
          split <;> exact ⟨rfl, rfl⟩
        keeps := by
          intro r hr
          refine ⟨_, Table.mem_update.mpr ⟨r, hr, rfl⟩, ?_⟩
          split <;> exact ⟨rfl, rfl, rfl⟩
        queued := by
          refine ⟨_, Table.mem_update.mpr ⟨row, hrow, rfl⟩, ?_⟩
          split <;> exact ⟨hid.symm, business, named⟩ }

theorem dispatchRow_outcome (a : Authority WorkOrderTable) (e : Event) (fault : Option Failure)
    (now : Nat) :
    Outcome remembers a (a.dispatchRow (workOrderProjection remembers) .business e fault now) e
      (a.callHandle (workOrderProjection remembers) e fault now).isOk := by
  unfold dispatchRow
  split
  next n target call =>
    have handled := handled_of_callHandle call
    refine Or.inl ⟨by rw [call]; rfl, ?_⟩
    exact {
      handled := ⟨now, n, handled⟩
      calls := rfl
      events := rfl
      shrinks := List.Subset.refl _
      keeps := fun r hr => Or.inl hr
      cursor := by
        intro id moved
        rw [dispatchSucceeded, updateStateMetrics_cursor] at moved
        exact advanceCursor_cursor moved }
  next failure call =>
    refine Or.inr ?_
    unfold dispatchFailed scheduleRetry
    simp only
    split
    next => exact Or.inr (addDeadLetter_deadLettered ..)
    next =>
      refine Or.inl ?_
      exact {
        target := rfl
        calls := rfl
        events := rfl
        cursor := updateStateMetrics_cursor ..
        grows := by
          intro r hr
          rcases List.mem_append.mp hr with hr | hr
          · exact Or.inr ⟨r, hr, rfl, rfl⟩
          · rw [List.mem_singleton.mp hr]
            exact Or.inl ⟨rfl, rfl⟩
        keeps := fun r hr => ⟨r, List.mem_append_left _ hr, rfl, rfl, rfl⟩
        queued := ⟨_, List.mem_append_right _ (List.mem_singleton.mpr rfl), rfl, rfl, rfl⟩ }

theorem History.succeeded {a b : Authority WorkOrderTable} {e : Event} (h : History remembers a)
    (unique : Table.Unique Event.key (a.events .business)) (done : Succeeded remembers a b e)
    (stored : e ∈ a.events .business)
    (consumed : (workOrderProjection remembers).consumes e = true)
    (recent : epoch < e.eventTimestamp)
    (keeps : ¬ Forgets remembers (a.events .business) a.okEvents e) : History remembers b where
  applies := by
    obtain ⟨now, n, handled⟩ := done.handled
    rw [done.calls]
    exact h.applies.handle (fun f hf same => Table.eq_of_key_eq unique (h.stored hf) stored
      (congrArg some same) (by simp [Event.key])) handled
  stored := by rw [done.calls, done.events]; exact List.cons_subset.mpr ⟨stored, h.stored⟩
  consumed := by rw [done.calls]; exact List.forall_mem_cons.mpr ⟨consumed, h.consumed⟩
  recent := by rw [done.calls]; exact List.forall_mem_cons.mpr ⟨recent, h.recent⟩
  cursor := by
    intro id hid
    rw [done.calls]
    exact ⟨e, List.mem_cons_self, (done.cursor id hid).symm⟩
  queued := by
    rw [done.events]
    exact fun r hr => h.queued r (done.shrinks hr)
  kept := by
    rw [done.calls, done.events]
    intro newer x older split
    cases newer with
    | nil =>
      obtain ⟨rfl, rfl⟩ := List.cons.inj split
      exact keeps
    | cons g newer => exact h.kept newer x older (List.cons.inj split).2

theorem History.failed {a b : Authority WorkOrderTable} {e : Event} (h : History remembers a)
    (failed : Failed remembers a b e) (stored : e ∈ a.events .business)
    (consumed : (workOrderProjection remembers).consumes e = true)
    (recent : epoch < e.eventTimestamp) : History remembers b where
  applies := by rw [failed.calls, failed.target]; exact h.applies
  stored := by rw [failed.calls, failed.events]; exact h.stored
  consumed := by rw [failed.calls]; exact h.consumed
  recent := by rw [failed.calls]; exact h.recent
  cursor := by rw [failed.calls, failed.cursor]; exact h.cursor
  queued := by
    rw [failed.events]
    intro r hr
    rcases failed.grows r hr with ⟨business, hid⟩ | ⟨q, hq, hsource, hid⟩
    · exact ⟨business, e, stored, hid.symm, consumed, recent⟩
    · rw [hsource, hid]
      exact h.queued q hq
  kept := by rw [failed.calls, failed.events]; exact h.kept

theorem Failed.getCursorTimestamp {a b : Authority WorkOrderTable} {e : Event}
    (failed : Failed remembers a b e) :
    b.getCursorTimestamp (workOrderProjection remembers).name .business =
      a.getCursorTimestamp (workOrderProjection remembers).name .business := by
  unfold Authority.getCursorTimestamp findEvent
  rw [failed.cursor, failed.events]

theorem Succeeded.getCursorTimestamp_le {a b : Authority WorkOrderTable} {e : Event}
    (done : Succeeded remembers a b e) (h : History remembers b)
    (unique : Table.Unique Event.key (b.events .business)) :
    b.getCursorTimestamp (workOrderProjection remembers).name .business ≤ e.eventTimestamp := by
  have stored : e ∈ b.okEvents := by rw [done.calls]; exact List.mem_cons_self
  rcases getCursorTimestamp_cases h unique with none | ⟨g, hg, moved, some⟩
  · rw [none]
    exact (h.recent e stored).le
  · have : g = e := Table.eq_of_key_eq unique (h.stored hg) (h.stored stored)
      (congrArg Option.some (done.cursor _ moved)) (by simp [Event.key])
    rw [some, this]

theorem Waits.succeeded {a b : Authority WorkOrderTable} {e f : Event}
    (h : a.Waits remembers f) (done : Succeeded remembers a b e)
    (not : ¬ Precedes remembers e f) : b.Waits remembers f := by
  unfold Waits
  rw [done.calls]
  rcases h with settled | ⟨r, hr, hid, hrest⟩
  · exact Or.inl (Or.inr ⟨not, settled⟩)
  · rcases done.keeps r hr with kept | same
    · exact Or.inr ⟨r, kept, hid, hrest⟩
    · exact Or.inl (Or.inl (same.symm.trans hid))

theorem Waits.failed {a b : Authority WorkOrderTable} {e f : Event}
    (h : a.Waits remembers f) (failed : Failed remembers a b e) : b.Waits remembers f := by
  unfold Waits
  rw [failed.calls]
  rcases h with settled | ⟨r, hr, hid, hsource, hname⟩
  · exact Or.inl settled
  · obtain ⟨q, hq, hqid, hqsource, hqname⟩ := failed.keeps r hr
    exact Or.inr ⟨q, hq, hqid.trans hid, hqsource.trans hsource, hqname.trans hname⟩

theorem Succeeded.waits {a b : Authority WorkOrderTable} {e : Event}
    (done : Succeeded remembers a b e) : b.Waits remembers e := by
  unfold Waits
  rw [done.calls]
  exact Or.inl (Or.inl rfl)

end Authority

end DreamStudio.Projections
