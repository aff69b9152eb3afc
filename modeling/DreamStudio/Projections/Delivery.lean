import DreamStudio.Projections.Queue
import DreamStudio.Projections.WellFormed

namespace DreamStudio.Projections

open Library

universe u

variable {σ : Type u}

namespace Authority

/-- `handle()` has returned normally on the event at least once. -/
def Handled (a : Authority σ) (name : String) (source : Source) (eventId : String) : Prop :=
  ∃ t ∈ a.attempts,
    t.projectionName = name ∧ t.source = source ∧ t.event.eventId = eventId ∧ t.ok = true

def Queued (a : Authority σ) (name : String) (source : Source) (eventId : String) : Prop :=
  ∃ r ∈ a.retryQueue, r.eventId = eventId ∧ r.eventSource = source ∧ r.projectionName = name

def DeadLettered (a : Authority σ) (name eventId : String) : Prop :=
  ∃ d ∈ a.deadLetter, d.eventId = eventId ∧ d.projectionName = name

/-- The event is done, waits for a retry, or was given up on. -/
def Accounted (a : Authority σ) (name : String) (source : Source) (eventId : String) : Prop :=
  a.Handled name source eventId ∨ a.Queued name source eventId ∨ a.DeadLettered name eventId

instance (a : Authority σ) (name : String) (source : Source) (eventId : String) :
    Decidable (a.Handled name source eventId) := inferInstanceAs (Decidable (∃ t ∈ a.attempts, _))

instance (a : Authority σ) (name : String) (source : Source) (eventId : String) :
    Decidable (a.Accounted name source eventId) :=
  inferInstanceAs (Decidable (_ ∨ (∃ r ∈ a.retryQueue, _) ∨
    ∃ d ∈ a.deadLetter, _))

theorem Handled.of_subset {a b : Authority σ} {name : String} {source : Source} {eventId : String}
    (h : a.Handled name source eventId) (sub : a.attempts ⊆ b.attempts) :
    b.Handled name source eventId := by
  obtain ⟨t, ht, hrest⟩ := h
  exact ⟨t, sub ht, hrest⟩

theorem recordAttempt_handled (a : Authority σ) (name : String) (source : Source) (e : Event) :
    (a.recordAttempt name source e true).Handled name source e.eventId :=
  ⟨_, List.mem_cons_self, rfl, rfl, rfl, rfl⟩

theorem addDeadLetter_deadLettered (a : Authority σ) (name : String) (source : Source)
    (eventId : String) (failure : Failure) (retryCount now : Nat) :
    (a.addDeadLetter name source eventId failure retryCount now).DeadLettered name eventId := by
  unfold addDeadLetter
  split
  next active =>
    obtain ⟨d, hd, hactive⟩ := List.any_eq_true.mp active
    refine ⟨_, Table.mem_update.mpr ⟨d, hd, rfl⟩, ?_⟩
    simp only [isActive, decide_eq_true_eq] at hactive
    simp [isActive, hactive]
  next => exact ⟨_, List.mem_append_right _ (List.mem_singleton.mpr rfl), rfl, rfl⟩

theorem DeadLettered.addDeadLetter {a : Authority σ} {name eventId : String}
    (h : a.DeadLettered name eventId) (name' : String) (source : Source) (eventId' : String)
    (failure : Failure) (retryCount now : Nat) :
    (a.addDeadLetter name' source eventId' failure retryCount now).DeadLettered name eventId := by
  obtain ⟨d, hd, hid, hname⟩ := h
  unfold Authority.addDeadLetter
  split
  · refine ⟨_, Table.mem_update.mpr ⟨d, hd, rfl⟩, ?_⟩
    split <;> exact ⟨hid, hname⟩
  · exact ⟨d, List.mem_append_left _ hd, hid, hname⟩

theorem attempts_subset_retryRow (a : Authority σ) (p : Projection σ) (row : RetryRow)
    (fault : Option Failure) (now : Nat) :
    a.attempts ⊆ (a.retryRow p row fault now).attempts := by
  unfold retryRow
  split
  · exact List.Subset.refl _
  · split
    · exact List.subset_cons_self _ _
    · unfold retryFailed
      simp only
      split <;> simp

theorem attempts_subset_dispatchRow (a : Authority σ) (p : Projection σ) (source : Source)
    (e : Event) (fault : Option Failure) (now : Nat) :
    a.attempts ⊆ (a.dispatchRow p source e fault now).attempts := by
  unfold dispatchRow
  split
  · exact List.subset_cons_self _ _
  · unfold dispatchFailed scheduleRetry updateStateMetrics
    simp only
    split <;> simp

theorem DeadLettered.retryRow {a : Authority σ} {name eventId : String}
    (h : a.DeadLettered name eventId) (p : Projection σ) (row : RetryRow)
    (fault : Option Failure) (now : Nat) :
    (a.retryRow p row fault now).DeadLettered name eventId := by
  unfold Authority.retryRow
  split
  · exact h
  · split
    · exact h
    · unfold retryFailed
      simp only
      split
      · exact DeadLettered.addDeadLetter (a := a.recordAttempt ..) h ..
      · exact h

theorem DeadLettered.dispatchRow {a : Authority σ} {name eventId : String}
    (h : a.DeadLettered name eventId) (p : Projection σ) (source : Source) (e : Event)
    (fault : Option Failure) (now : Nat) :
    (a.dispatchRow p source e fault now).DeadLettered name eventId := by
  unfold Authority.dispatchRow
  split
  · exact h
  · unfold dispatchFailed scheduleRetry
    simp only
    split
    · exact DeadLettered.addDeadLetter (a := a.recordAttempt ..) h ..
    · exact h

theorem retryRow_accounts {a : Authority σ} {p : Projection σ} {row : RetryRow} {e : Event}
    (hrow : row ∈ a.retryQueue) (named : row.projectionName = p.name)
    (found : a.findEvent row.eventSource row.eventId = some e) (fault : Option Failure)
    (now : Nat) : (a.retryRow p row fault now).Accounted p.name row.eventSource row.eventId := by
  have hid : e.eventId = row.eventId := by simpa using List.find?_some found
  unfold retryRow
  rw [found]
  simp only
  split
  next =>
    rw [← hid]
    exact Or.inl (recordAttempt_handled ..)
  next failure _ =>
    unfold retryFailed
    simp only
    split
    next => exact Or.inr (Or.inr (addDeadLetter_deadLettered ..))
    next =>
      refine Or.inr (Or.inl ⟨_, Table.mem_update.mpr ⟨row, hrow, rfl⟩, ?_⟩)
      simp [named]

theorem dispatchRow_accounts (a : Authority σ) (p : Projection σ) (source : Source) (e : Event)
    (fault : Option Failure) (now : Nat) :
    (a.dispatchRow p source e fault now).Accounted p.name source e.eventId := by
  unfold dispatchRow
  split
  next => exact Or.inl (recordAttempt_handled ..)
  next failure _ =>
    unfold dispatchFailed scheduleRetry
    simp only
    split
    next => exact Or.inr (Or.inr (addDeadLetter_deadLettered ..))
    next =>
      exact Or.inr (Or.inl ⟨_, List.mem_append_right _ (List.mem_singleton.mpr rfl), rfl, rfl, rfl⟩)

theorem Accounted.retryRow {a : Authority σ} {p : Projection σ} {row : RetryRow}
    {due : List RetryRow} {name : String} {source : Source} {e : Event}
    (h : a.Accounted name source e.eventId) (events : Table.Unique Event.key (a.events source))
    (ids : Table.Unique RetryRow.idKey a.retryQueue) (isDue : a.Due p (row :: due))
    (stored : e ∈ a.events source) (fault : Option Failure) (now : Nat) :
    (a.retryRow p row fault now).Accounted name source e.eventId := by
  have hrow : row ∈ a.retryQueue := isDue.queued List.mem_cons_self
  have named : row.projectionName = p.name := isDue.named row List.mem_cons_self
  rcases h with handled | ⟨r, hr, hid, hsource, hname⟩ | dead
  · exact Or.inl (handled.of_subset (a.attempts_subset_retryRow ..))
  · by_cases same : r.id = row.id
    · have : r = row :=
        Table.eq_of_key_eq ids hr hrow (congrArg some same) (by simp [RetryRow.idKey])
      subst this
      have found : a.findEvent r.eventSource r.eventId = some e := by
        rw [hid, hsource]
        exact findEvent_eq_some events stored
      rw [← hid, ← hname, ← hsource, named]
      exact retryRow_accounts hrow named found fault now
    · exact Or.inr (Or.inl ⟨r, mem_retryRow_of_ne p fault now hr same, hid, hsource, hname⟩)
  · exact Or.inr (Or.inr (dead.retryRow ..))

theorem Accounted.dispatchRow {a : Authority σ} {name : String} {source : Source}
    {eventId : String} (h : a.Accounted name source eventId) (p : Projection σ) (source' : Source)
    (f : Event) (fault : Option Failure) (now : Nat) :
    (a.dispatchRow p source' f fault now).Accounted name source eventId := by
  rcases h with handled | ⟨r, hr, hid, hsource, hname⟩ | dead
  · exact Or.inl (handled.of_subset (a.attempts_subset_dispatchRow ..))
  · unfold Authority.dispatchRow
    split
    · exact Or.inr (Or.inl ⟨r, hr, hid, hsource, hname⟩)
    · unfold dispatchFailed scheduleRetry
      simp only
      split
      next =>
        by_cases cleared : r.eventId = f.eventId ∧ r.projectionName = p.name
        · refine Or.inr (Or.inr ?_)
          rw [← hid, ← hname, cleared.1, cleared.2]
          exact addDeadLetter_deadLettered ..
        · refine Or.inr
            (Or.inl ⟨r, List.mem_filter.mpr ⟨?_, decide_eq_true cleared⟩, hid, hsource, hname⟩)
          simpa using hr
      next => exact Or.inr (Or.inl ⟨r, List.mem_append_left _ hr, hid, hsource, hname⟩)
  · exact Or.inr (Or.inr (dead.dispatchRow ..))

end Authority

def Phase.Ahead (phase : Phase σ) (p : Projection σ) (source : Source) (e : Event) : Prop :=
  match phase with
  | .retrying q _ => q = p ∧ source ∈ q.sourceCanonical.sources
  | .dispatching q s rows rest _ => q = p ∧ (source ∈ rest ∨ source = s ∧ e ∈ rows)
  | _ => False

theorem Phase.ahead_of_between {phase : Phase σ} {q : Projection σ} {result : ProjectionResult}
    {sources : List Source} (h : phase.between = some (q, result, sources)) {p : Projection σ}
    {source : Source} {e : Event} (ahead : phase.Ahead p source e) : q = p ∧ source ∈ sources := by
  unfold between at h
  split at h <;> cases h
  · exact ahead
  · simpa [Ahead] using ahead

def Config.Pending (c : Config σ) (p : Projection σ) (source : Source) (e : Event) : Prop :=
  p ∈ c.targets ∨ c.phase.Ahead p source e

/-- Of the rows that were there when the cycle began, a query misses only such as are accounted
for: the others lie past the cursor. -/
def Config.FetchReaches (began c : Config σ) (action : Action) : Prop :=
  ∀ q ∈ c.query action, ∀ e ∈ began.authority.events q.2, q.1.consumes e = true →
    c.authority.Accounted q.1.name q.2 e.eventId ∨
      c.authority.getCursorTimestamp q.1.name q.2 < e.eventTimestamp

instance (began c : Config σ) (action : Action) : Decidable (began.FetchReaches c action) :=
  inferInstanceAs (Decidable (∀ q ∈ c.query action, _))

structure Config.Tracked (c : Config σ) (p : Projection σ) (source : Source) (e : Event) :
    Prop where
  stored : e ∈ c.authority.events source
  reached : c.authority.Accounted p.name source e.eventId ∨ c.Pending p source e ∨
    c.phase = .raised

theorem step_tracked (engine : Engine σ) {began c c' : Config σ} {action : Action}
    {p : Projection σ} {source : Source} {e : Event} (wf : c.WellFormed engine)
    (h : c.Tracked p source e) (held : e ∈ began.authority.events source)
    (hsource : source ∈ p.sourceCanonical.sources) (consumed : p.consumes e = true)
    (reaches : began.FetchReaches c action) (same_cycle : ∀ name, action ≠ .runCycle name)
    (taken : engine.machine.step c action = some c') : c'.Tracked p source e := by
  cases engine.step_cases taken with
  | ingest _ s f =>
    refine ⟨Authority.mem_ingest_events s f h.stored, ?_⟩
    rcases h.reached with accounted | pending
    · refine Or.inl ?_
      cases s <;> exact accounted
    · exact Or.inr pending
  | runCycle a phase targets results name => exact absurd rfl (same_cycle name)
  | processRetries a q rest results now =>
    refine ⟨h.stored, ?_⟩
    rcases h.reached with accounted | pending | raised
    · exact Or.inl accounted
    · refine Or.inr (Or.inl ?_)
      rcases pending with later | now
      · rcases List.mem_cons.mp later with rfl | later
        · exact Or.inr ⟨rfl, hsource⟩
        · exact Or.inl later
      · exact now.elim
    · cases raised
  | retry a q row due targets results fault now =>
    refine ⟨by rw [Authority.retryRow_events]; exact h.stored, ?_⟩
    rcases h.reached with accounted | pending | raised
    · exact Or.inl (accounted.retryRow (wf.events source) wf.retryIds (wf.due q _ rfl) h.stored ..)
    · exact Or.inr (Or.inl pending)
    · cases raised
  | returned a phase targets results q result between =>
    refine ⟨h.stored, ?_⟩
    rcases h.reached with accounted | (later | now) | raised
    · exact Or.inl accounted
    · exact Or.inr (Or.inl (Or.inl later))
    · exact absurd (Phase.ahead_of_between between now).2 List.not_mem_nil
    · cases raised
      cases between
  | undeclared => exact ⟨h.stored, Or.inr (Or.inr rfl)⟩
  | fetched a phase targets results q result s rest between =>
    refine ⟨h.stored, ?_⟩
    rcases h.reached with accounted | (later | now) | raised
    · exact Or.inl accounted
    · exact Or.inr (Or.inl (Or.inl later))
    · obtain ⟨rfl, hmem⟩ := Phase.ahead_of_between between now
      rcases List.mem_cons.mp hmem with rfl | hrest
      · have query : (q, source) ∈ Config.query ⟨a, phase, targets, results⟩ .fetch := by
          simp [Config.query, between]
        rcases reaches (q, source) query e held consumed with accounted | past
        · exact Or.inl accounted
        · have fetched := Authority.mem_newEvents.mpr ⟨h.stored, past, consumed⟩
          exact Or.inr (Or.inl (Or.inr ⟨rfl, Or.inr ⟨rfl, fetched⟩⟩))
      · exact Or.inr (Or.inl (Or.inr ⟨rfl, Or.inl hrest⟩))
    · cases raised
      cases between
  | dispatch a q s f rows rest result targets results fault now =>
    refine ⟨by rw [Authority.dispatchRow_events]; exact h.stored, ?_⟩
    rcases h.reached with accounted | (later | ⟨rfl, inRest | ⟨rfl, inRows⟩⟩) | raised
    · exact Or.inl (accounted.dispatchRow ..)
    · exact Or.inr (Or.inl (Or.inl later))
    · exact Or.inr (Or.inl (Or.inr ⟨rfl, Or.inl inRest⟩))
    · rcases List.mem_cons.mp inRows with rfl | inRows
      · exact Or.inl (a.dispatchRow_accounts ..)
      · exact Or.inr (Or.inl (Or.inr ⟨rfl, Or.inr ⟨rfl, inRows⟩⟩))
    · cases raised

/-- A cycle that returns leaves every event accounted for that was in the table when it began,
provided each of its queries reaches what is not. -/
theorem cycle_accounts (engine : Engine σ) (target : σ) (before cycle : List Action)
    (projectionName : Option String) {c₀ c₁ c₂ : Config σ}
    (reached : engine.machine.run (engine.initial target) before = some c₀)
    (begins : engine.machine.step c₀ (.runCycle projectionName) = some c₁)
    (runs : engine.machine.run c₁ cycle = some c₂) (one_cycle : ∀ name, .runCycle name ∉ cycle)
    (returns : c₂.phase = .idle ∧ c₂.targets = [])
    (reaches : ∀ x ∈ engine.machine.transitions c₁ cycle, c₀.FetchReaches x.before x.label) :
    ∀ p ∈ engine.targets projectionName, ∀ source ∈ p.sourceCanonical.sources,
      ∀ e ∈ c₀.authority.events source, p.consumes e = true →
        c₂.authority.Accounted p.name source e.eventId := by
  intro p hp source hsource e stored consumed
  have wf₀ : c₀.WellFormed engine :=
    engine.machine.run_invariant (fun _ _ _ h taken => step_wellFormed engine h taken)
      (initial_wellFormed engine target) reached
  have wf₁ := step_wellFormed engine wf₀ begins
  have tracked₁ : c₁.Tracked p source e := by
    cases engine.step_cases begins with
    | runCycle => exact ⟨stored, Or.inr (Or.inl (Or.inl hp))⟩
  have kept : c₂.WellFormed engine ∧ c₂.Tracked p source e := by
    refine engine.machine.run_invariant_of_guarded
      (J := fun c => c.WellFormed engine ∧ c.Tracked p source e)
      (G := fun c action _ => c₀.FetchReaches c action ∧ ∀ name, action ≠ .runCycle name)
      ?_ ⟨wf₁, tracked₁⟩ ?_ runs
    · intro c action c' h guard taken
      exact ⟨step_wellFormed engine h.1 taken,
        step_tracked engine h.1 h.2 stored hsource consumed guard.1 guard.2 taken⟩
    · intro x hx
      refine ⟨reaches x hx, fun name same => one_cycle name ?_⟩
      exact same ▸ engine.machine.label_mem_of_mem_transitions hx
  rcases kept.2.reached with accounted | (later | now) | raised
  · exact accounted
  · simp [returns.2] at later
  · simp [returns.1, Phase.Ahead] at now
  · simp [returns.1] at raised

theorem cycle_accounts_started :
    ∃ c₂, auditEngine.machine.run (auditEngine.initial ())
        (.ingest .business (startedEvent "e1" "2026-01-01T00:00:00Z") :: cycle 0 [] [none]) =
        some c₂ ∧
      c₂.authority.Accounted "work_order_projection" .business "e1" :=
  ⟨_, rfl, cycle_accounts auditEngine ()
    [.ingest .business (startedEvent "e1" "2026-01-01T00:00:00Z")] (cycle 0 [] [none]).tail none
    rfl rfl rfl (by simp [cycle]) ⟨rfl, rfl⟩ (by decide) auditProjection
      (by simp [Engine.targets, auditEngine])
    .business (by decide) (startedEvent "e1" "2026-01-01T00:00:00Z") List.mem_cons_self (by decide)⟩

/-- An event that arrives with a timestamp the cursor has reached is passed by every query. -/
theorem late_event_not_accounted :
    ¬ ∀ (σ : Type) (engine : Engine σ) (target : σ) (before cycle : List Action)
      (projectionName : Option String) (c₀ c₁ c₂ : Config σ),
      engine.machine.run (engine.initial target) before = some c₀ →
      engine.machine.step c₀ (.runCycle projectionName) = some c₁ →
      engine.machine.run c₁ cycle = some c₂ → (∀ name, .runCycle name ∉ cycle) →
      c₂.phase = .idle ∧ c₂.targets = [] →
      ∀ p ∈ engine.targets projectionName, ∀ source ∈ p.sourceCanonical.sources,
        ∀ e ∈ c₀.authority.events source, p.consumes e = true →
          c₂.authority.Accounted p.name source e.eventId := by
  intro h
  have late := h Unit auditEngine ()
    (.ingest .business (startedEvent "e2" "2026-01-02T00:00:00Z") :: cycle 0 [] [none] ++
      [.ingest .business (startedEvent "e1" "2026-01-01T00:00:00Z")])
    (cycle 0 [] []).tail none _ _ _ rfl rfl rfl
    (by simp [cycle]) ⟨rfl, rfl⟩ auditProjection
    (by simp [Engine.targets, auditEngine]) .business (by decide)
    (startedEvent "e1" "2026-01-01T00:00:00Z")
    (List.mem_cons_of_mem _ List.mem_cons_self) (by decide)
  revert late
  decide

end DreamStudio.Projections
