import DreamStudio.Projections.Steps

namespace DreamStudio.Projections

open Library

universe u

variable {σ : Type u}

def RetryRow.idKey (r : RetryRow) : Option Nat := some r.id

def DeadLetterRow.idKey (d : DeadLetterRow) : Option Nat := some d.id

namespace Authority

/-- What holds of the rows `_process_retries` still has to do. -/
structure Due (a : Authority σ) (p : Projection σ) (due : List RetryRow) : Prop where
  queued : due ⊆ a.retryQueue
  distinct : Table.Unique RetryRow.idKey due
  named : ∀ r ∈ due, r.projectionName = p.name

/-- What holds of the rows `_apply_v2` still has to do. -/
structure Fetched (a : Authority σ) (p : Projection σ) (source : Source) (rows : List Event) :
    Prop where
  stored : rows ⊆ a.events source
  distinct : Table.Unique Event.key rows
  consumed : ∀ e ∈ rows, p.consumes e = true

theorem Due.tail {a : Authority σ} {p : Projection σ} {row : RetryRow} {due : List RetryRow}
    (h : a.Due p (row :: due)) : a.Due p due where
  queued := fun _ hr => h.queued (List.mem_cons_of_mem _ hr)
  distinct := List.Pairwise.of_cons h.distinct
  named := fun r hr => h.named r (List.mem_cons_of_mem _ hr)

theorem Due.head_ne {a : Authority σ} {p : Projection σ} {row r : RetryRow} {due : List RetryRow}
    (h : a.Due p (row :: due)) (hr : r ∈ due) : r.id ≠ row.id := by
  intro same
  exact List.rel_of_pairwise_cons h.distinct hr ⟨congrArg some same.symm, by simp [RetryRow.idKey]⟩

theorem Fetched.tail {a : Authority σ} {p : Projection σ} {source : Source} {e : Event}
    {rows : List Event} (h : a.Fetched p source (e :: rows)) : a.Fetched p source rows where
  stored := fun _ hf => h.stored (List.mem_cons_of_mem _ hf)
  distinct := List.Pairwise.of_cons h.distinct
  consumed := fun f hf => h.consumed f (List.mem_cons_of_mem _ hf)

theorem Fetched.head_ne {a : Authority σ} {p : Projection σ} {source : Source} {e f : Event}
    {rows : List Event} (h : a.Fetched p source (e :: rows)) (hf : f ∈ rows) :
    f.eventId ≠ e.eventId := by
  intro same
  exact List.rel_of_pairwise_cons h.distinct hf ⟨congrArg some same.symm, by simp [Event.key]⟩

theorem mem_dueRetries {a : Authority σ} {name : String} {now : Nat} {r : RetryRow} :
    r ∈ a.dueRetries name now ↔
      r ∈ a.retryQueue ∧ r.projectionName = name ∧ r.nextRetryAt ≤ now := by
  simp [dueRetries]

theorem mem_newEvents {a : Authority σ} {p : Projection σ} {source : Source} {e : Event} :
    e ∈ a.newEvents p source ↔
      e ∈ a.events source ∧ a.getCursorTimestamp p.name source < e.eventTimestamp ∧
        p.consumes e = true := by
  simp [newEvents]

theorem dueRetries_due {a : Authority σ} (h : Table.Unique RetryRow.idKey a.retryQueue)
    (p : Projection σ) (now : Nat) : a.Due p (a.dueRetries p.name now) where
  queued := fun _ hr => (mem_dueRetries.mp hr).1
  distinct :=
    (List.perm_insertionSort _ _).symm.pairwise (Table.filter_unique h _) fun hab
      same => hab same.symm
  named := fun _ hr => (mem_dueRetries.mp hr).2.1

theorem newEvents_fetched {a : Authority σ} {source : Source}
    (h : Table.Unique Event.key (a.events source)) (p : Projection σ) :
    a.Fetched p source (a.newEvents p source) where
  stored := fun _ he => (mem_newEvents.mp he).1
  distinct :=
    (List.perm_insertionSort _ _).symm.pairwise (Table.filter_unique h _) fun hab
      same => hab same.symm
  consumed := fun _ he => (mem_newEvents.mp he).2.2

theorem findEvent_eq_some {a : Authority σ} {source : Source} {e : Event}
    (h : Table.Unique Event.key (a.events source)) (stored : e ∈ a.events source) :
    a.findEvent source e.eventId = some e := by
  cases found : a.findEvent source e.eventId with
  | none => exact absurd (List.find?_eq_none.mp found e stored) (by simp)
  | some f =>
    have hid : f.eventId = e.eventId := by simpa using List.find?_some found
    exact congrArg some (Table.eq_of_key_eq h (List.mem_of_find?_eq_some found) stored
      (congrArg some hid) (by simp [Event.key]))

theorem ingest_events (a : Authority σ) (source : Source) (e : Event) (s : Source) :
    (a.ingest source e).events s =
      if s = source then Table.insertOrIgnore Event.key (fun _ => true) (a.events s) e
      else a.events s := by
  cases source <;> cases s <;> rfl

theorem mem_ingest_events {a : Authority σ} {s : Source} {f : Event} (source : Source) (e : Event)
    (h : f ∈ a.events s) : f ∈ (a.ingest source e).events s := by
  rw [ingest_events]
  split
  · exact Table.subset_insertOrIgnore _ _ _ h
  · exact h

theorem ingest_events_unique {a : Authority σ} {s : Source}
    (h : Table.Unique Event.key (a.events s)) (source : Source) (e : Event) :
    Table.Unique Event.key ((a.ingest source e).events s) := by
  rw [ingest_events]
  split
  · exact Table.insertOrIgnore_unique h _
  · exact h

@[simp] theorem retryRow_events (a : Authority σ) (p : Projection σ) (row : RetryRow)
    (fault : Option Failure) (now : Nat) (s : Source) :
    (a.retryRow p row fault now).events s = a.events s := by
  unfold retryRow retrySucceeded retryFailed advanceCursor
  split
  · simp
  · split
    · simp [events]
    · simp only
      split <;> simp

@[simp] theorem scheduleRetry_events (a : Authority σ) (p : Projection σ) (source : Source)
    (eventId : String) (failure : Failure) (now : Nat) (s : Source) :
    (a.scheduleRetry p source eventId failure now).events s = a.events s := by
  unfold scheduleRetry
  simp only
  split <;> simp

@[simp] theorem dispatchRow_events (a : Authority σ) (p : Projection σ) (source : Source)
    (e : Event) (fault : Option Failure) (now : Nat) (s : Source) :
    (a.dispatchRow p source e fault now).events s = a.events s := by
  unfold dispatchRow dispatchSucceeded dispatchFailed advanceCursor updateStateMetrics
  split
  · simp [events]
  · simp

theorem retryRow_retryQueue (a : Authority σ) (p : Projection σ) (row : RetryRow)
    (fault : Option Failure) (now : Nat) :
    (a.retryRow p row fault now).retryQueue = (a.deleteRetry row.id).retryQueue ∨
      ∃ nextAt, row.retryCount + 1 ≤ p.retryPolicy.maxRetries ∧
        (a.retryRow p row fault now).retryQueue =
          (a.updateRetry row.id (row.retryCount + 1) nextAt).retryQueue := by
  unfold retryRow
  split
  · exact Or.inl rfl
  · split
    · exact Or.inl rfl
    · unfold retryFailed
      simp only
      split
      next => exact Or.inl (by simp)
      next spare => exact Or.inr ⟨_, by omega, rfl⟩

theorem mem_retryRow_of_ne {a : Authority σ} (p : Projection σ) {row r : RetryRow}
    (fault : Option Failure) (now : Nat) (hr : r ∈ a.retryQueue) (hne : r.id ≠ row.id) :
    r ∈ (a.retryRow p row fault now).retryQueue := by
  rcases a.retryRow_retryQueue p row fault now with h | ⟨nextAt, -, h⟩
  · rw [h]
    simp [hr, hne]
  · rw [h]
    exact Table.mem_update.mpr ⟨r, hr, by simp [hne]⟩

theorem retryRow_ids_unique {a : Authority σ} (h : Table.Unique RetryRow.idKey a.retryQueue)
    (p : Projection σ) (row : RetryRow) (fault : Option Failure) (now : Nat) :
    Table.Unique RetryRow.idKey (a.retryRow p row fault now).retryQueue := by
  rcases a.retryRow_retryQueue p row fault now with hq | ⟨nextAt, -, hq⟩
  · rw [hq]
    exact Table.filter_unique h _
  · rw [hq]
    exact Table.update_unique h fun _ _ => rfl

end Authority

namespace Phase

def projection : Phase σ → Option (Projection σ)
  | .idle => none
  | .raised => none
  | .retrying p _ => some p
  | .dispatching p _ _ _ _ => some p

theorem projection_of_between {phase : Phase σ} {p : Projection σ} {result : ProjectionResult}
    {sources : List Source} (h : phase.between = some (p, result, sources)) :
    phase.projection = some p := by
  unfold between at h
  split at h <;> cases h <;> rfl

end Phase

def Authority.DeadIds (a : Authority σ) : Prop :=
  Table.Unique DeadLetterRow.idKey a.deadLetter ∧ ∀ d ∈ a.deadLetter, d.id ≤ a.deadLetterSeq

/-- What every run from empty tables keeps, whatever fails. -/
structure Config.WellFormed (engine : Engine σ) (c : Config σ) : Prop where
  events : ∀ s, Table.Unique Event.key (c.authority.events s)
  retryIds : Table.Unique RetryRow.idKey c.authority.retryQueue
  retrySeq : ∀ r ∈ c.authority.retryQueue, r.id ≤ c.authority.retryQueueSeq
  deadIds : c.authority.DeadIds
  targets : c.targets ⊆ engine.projections
  current : ∀ p, c.phase.projection = some p → p ∈ engine.projections
  due : ∀ p due, c.phase = .retrying p due → c.authority.Due p due
  rows : ∀ p s rows rest result, c.phase = .dispatching p s rows rest result →
    c.authority.Fetched p s rows

namespace Authority

theorem retryRow_retryQueueSeq (a : Authority σ) (p : Projection σ) (row : RetryRow)
    (fault : Option Failure) (now : Nat) :
    (a.retryRow p row fault now).retryQueueSeq = a.retryQueueSeq := by
  unfold retryRow
  split
  · rfl
  · split
    · rfl
    · unfold retryFailed
      simp only
      split <;> simp

theorem dispatchRow_ids {a : Authority σ} (unique : Table.Unique RetryRow.idKey a.retryQueue)
    (bound : ∀ r ∈ a.retryQueue, r.id ≤ a.retryQueueSeq) (p : Projection σ) (source : Source)
    (e : Event) (fault : Option Failure) (now : Nat) :
    Table.Unique RetryRow.idKey (a.dispatchRow p source e fault now).retryQueue ∧
      ∀ r ∈ (a.dispatchRow p source e fault now).retryQueue,
        r.id ≤ (a.dispatchRow p source e fault now).retryQueueSeq := by
  unfold dispatchRow
  split
  · exact ⟨unique, bound⟩
  · unfold dispatchFailed scheduleRetry
    simp only
    split
    · refine ⟨Table.filter_unique (by simpa using unique) _, fun r hr => ?_⟩
      simp only [updateStateMetrics, updateState_retryQueue, deleteRetriesOf_retryQueue,
        List.mem_filter, addDeadLetter_retryQueue, recordAttempt_retryQueue] at hr
      simpa [updateStateMetrics] using bound r hr.1
    · refine ⟨(Table.append_unique_iff unique _).mpr ?_, ?_⟩
      · intro r hr same
        have fresh : r.id = a.retryQueueSeq + 1 := Option.some.inj same.1
        have := bound r hr
        omega
      · intro r hr
        simp only [updateStateMetrics, updateState_retryQueue, insertRetry_retryQueue,
          recordAttempt_retryQueue, recordAttempt_retryQueueSeq, List.mem_append,
          List.mem_singleton] at hr
        rcases hr with hr | rfl
        · exact Nat.le_succ_of_le (bound r hr)
        · exact Nat.le_refl _

end Authority

theorem Authority.addDeadLetter_deadIds {a : Authority σ} (h : a.DeadIds) (name : String)
    (source : Source) (eventId : String) (failure : Failure) (retryCount now : Nat) :
    (a.addDeadLetter name source eventId failure retryCount now).DeadIds := by
  unfold addDeadLetter
  split
  · refine ⟨Table.update_unique h.1 fun _ _ => rfl, fun d hd => ?_⟩
    obtain ⟨e, he, rfl⟩ := Table.mem_update.mp hd
    split <;> exact h.2 e he
  · refine ⟨(Table.append_unique_iff h.1 _).mpr ?_, ?_⟩
    · intro d hd same
      have fresh : d.id = a.deadLetterSeq + 1 := Option.some.inj same.1
      have := h.2 d hd
      omega
    · intro d hd
      rcases List.mem_append.mp hd with hd | hd
      · exact Nat.le_succ_of_le (h.2 d hd)
      · rw [List.mem_singleton.mp hd]

theorem Authority.retryRow_deadIds {a : Authority σ} (h : a.DeadIds) (p : Projection σ)
    (row : RetryRow) (fault : Option Failure) (now : Nat) :
    (a.retryRow p row fault now).DeadIds := by
  unfold retryRow
  split
  · exact h
  · split
    · exact h
    · unfold retryFailed
      simp only
      split
      · exact addDeadLetter_deadIds (a := a.recordAttempt ..) h ..
      · exact h

theorem Authority.dispatchRow_deadIds {a : Authority σ} (h : a.DeadIds) (p : Projection σ)
    (source : Source) (e : Event) (fault : Option Failure) (now : Nat) :
    (a.dispatchRow p source e fault now).DeadIds := by
  unfold dispatchRow
  split
  · exact h
  · unfold dispatchFailed scheduleRetry
    simp only
    split
    · exact addDeadLetter_deadIds (a := a.recordAttempt ..) h ..
    · exact h

theorem Engine.targets_subset (engine : Engine σ) (projectionName : Option String) :
    engine.targets projectionName ⊆ engine.projections := by
  unfold targets
  split
  · exact List.Subset.refl _
  · split
    · exact List.Subset.refl _
    · split
      next p found => simpa using List.mem_of_find?_eq_some found
      next => exact List.Subset.refl _

theorem step_wellFormed (engine : Engine σ) {c c' : Config σ} {action : Action}
    (h : c.WellFormed engine) (taken : engine.machine.step c action = some c') :
    c'.WellFormed engine := by
  cases engine.step_cases taken with
  | ingest _ source e =>
    have queue : (c.authority.ingest source e).retryQueue = c.authority.retryQueue := by
      cases source <;> rfl
    have seq : (c.authority.ingest source e).retryQueueSeq = c.authority.retryQueueSeq := by
      cases source <;> rfl
    exact {
      events := fun s => Authority.ingest_events_unique (h.events s) source e
      retryIds := queue ▸ h.retryIds
      retrySeq := by rw [queue, seq]; exact h.retrySeq
      deadIds := by cases source <;> exact h.deadIds
      targets := h.targets
      current := h.current
      due := fun p due hp =>
        { h.due p due hp with queued := by rw [queue]; exact (h.due p due hp).queued }
      rows := fun p s rows rest result hp =>
        { h.rows p s rows rest result hp with
          stored := fun f hf =>
            Authority.mem_ingest_events source e ((h.rows p s rows rest result hp).stored hf) } }
  | runCycle a phase targets results name =>
    exact {
      events := h.events
      retryIds := h.retryIds
      retrySeq := h.retrySeq
      deadIds := h.deadIds
      targets := engine.targets_subset name
      current := nofun
      due := nofun
      rows := nofun }
  | processRetries a p rest results now =>
    exact {
      events := h.events
      retryIds := h.retryIds
      retrySeq := h.retrySeq
      deadIds := h.deadIds
      targets := fun _ hq => h.targets (List.mem_cons_of_mem _ hq)
      current := by rintro _ ⟨⟩; exact h.targets List.mem_cons_self
      due := by rintro _ _ ⟨⟩; exact Authority.dueRetries_due h.retryIds p now
      rows := nofun }
  | retry a p row due targets results fault now =>
    have rest := h.due p _ rfl
    exact {
      events := fun s => by rw [Authority.retryRow_events]; exact h.events s
      retryIds := Authority.retryRow_ids_unique h.retryIds ..
      retrySeq := by
        intro r hr
        rw [Authority.retryRow_retryQueueSeq]
        rcases a.retryRow_retryQueue p row fault now with hq | ⟨nextAt, -, hq⟩
        · rw [hq] at hr
          exact h.retrySeq r (List.mem_filter.mp hr).1
        · rw [hq] at hr
          obtain ⟨q, hq, rfl⟩ := Table.mem_update.mp hr
          have := h.retrySeq q hq
          split <;> exact this
      deadIds := Authority.retryRow_deadIds h.deadIds ..
      targets := h.targets
      current := h.current
      due := by
        rintro _ _ ⟨⟩
        exact { rest.tail with
          queued := fun r hr => Authority.mem_retryRow_of_ne p fault now (rest.tail.queued hr)
            (rest.head_ne hr) }
      rows := nofun }
  | returned a phase targets results p result between =>
    exact { h with current := nofun, due := nofun, rows := nofun }
  | undeclared a phase targets results p result source rest between =>
    exact { h with current := nofun, due := nofun, rows := nofun }
  | fetched a phase targets results p result source rest between =>
    exact {
      events := h.events
      retryIds := h.retryIds
      retrySeq := h.retrySeq
      deadIds := h.deadIds
      targets := h.targets
      current := by
        rintro _ ⟨⟩
        exact h.current p (Phase.projection_of_between between)
      due := nofun
      rows := by rintro _ _ _ _ _ ⟨⟩; exact Authority.newEvents_fetched (h.events source) p }
  | dispatch a p source e rows rest result targets results fault now =>
    have ids := Authority.dispatchRow_ids h.retryIds h.retrySeq p source e fault now
    exact {
      events := fun s => by rw [Authority.dispatchRow_events]; exact h.events s
      retryIds := ids.1
      retrySeq := ids.2
      deadIds := Authority.dispatchRow_deadIds h.deadIds ..
      targets := h.targets
      current := h.current
      due := nofun
      rows := by
        rintro _ _ _ _ _ ⟨⟩
        have tail := (h.rows p source _ _ _ rfl).tail
        exact { tail with
          stored := fun f hf => by rw [Authority.dispatchRow_events]; exact tail.stored hf } }

theorem initial_wellFormed (engine : Engine σ) (target : σ) :
    (engine.initial target).WellFormed engine where
  events := fun s => by cases s <;> exact List.Pairwise.nil
  retryIds := List.Pairwise.nil
  retrySeq := by simp [Engine.initial]
  deadIds := by simp [Engine.initial, Authority.DeadIds, Table.Unique]
  targets := List.nil_subset _
  current := nofun
  due := nofun
  rows := nofun

end DreamStudio.Projections
