import DreamStudio.Projections.History

namespace DreamStudio.Projections

open Library WorkOrders

variable {remembers : Bool}

instance Settled.decidable (f : Event) : (applied : List Event) →
    Decidable (Settled remembers f applied)
  | [] => isTrue trivial
  | e :: older =>
    have := Settled.decidable f older
    inferInstanceAs (Decidable (e.eventId = f.eventId ∨
      ¬ (subject e = subject f ∧ (change remembers e).moves = true ∧
        e.eventTimestamp < f.eventTimestamp) ∧ Settled remembers f older))

instance Newer.decidable (u b : Event) : (applied : List Event) → Decidable (Newer u b applied)
  | [] => isFalse id
  | e :: older =>
    have := Newer.decidable u b older
    inferInstanceAs (Decidable (e.eventId = u.eventId ∨ e.eventId ≠ b.eventId ∧ Newer u b older))

instance (events applied : List Event) (x : Event) :
    Decidable (Forgets remembers events applied x) :=
  inferInstanceAs (Decidable (∃ b ∈ events, ∃ u ∈ events, _))

namespace Authority

instance (a : Authority WorkOrderTable) (f : Event) : Decidable (a.Waits remembers f) :=
  inferInstanceAs (Decidable (_ ∨ ∃ r ∈ a.retryQueue, _))

/-- The cursor, set to `g`, passes an applied event that has to be applied again and is not
queued. -/
def Overtakes (remembers : Bool) (a : Authority WorkOrderTable) (g : Event) : Prop :=
  ∃ f ∈ a.okEvents, (change remembers f).moves = true ∧
    a.getCursorTimestamp (workOrderProjection remembers).name .business < f.eventTimestamp ∧
    f.eventTimestamp < g.eventTimestamp ∧ ¬ a.Waits remembers f

instance (a : Authority WorkOrderTable) (g : Event) : Decidable (a.Overtakes remembers g) :=
  inferInstanceAs (Decidable (∃ f ∈ a.okEvents, _))

end Authority

/-- The event whose call of `handle` returns in a step, and whether the call is a retry. -/
def Config.returns (c : Config WorkOrderTable) : Action → Option (Event × Bool)
  | .retry fault now =>
    match c.phase with
    | .retrying p (row :: _) =>
      (c.authority.findEvent row.eventSource row.eventId).bind fun e =>
        if (c.authority.callHandle p e fault now).isOk then some (e, true) else none
    | _ => none
  | .dispatch fault now =>
    match c.phase with
    | .dispatching p _ (e :: _) _ _ =>
      if (c.authority.callHandle p e fault now).isOk then some (e, false) else none
    | _ => none
  | _ => none

/-- The steps that lose no status: a call that returns forgets no phase, and a retry that returns
does not move the cursor past what has to be applied again. -/
def Config.Steady (remembers : Bool) (c : Config WorkOrderTable) (action : Action) : Prop :=
  ∀ call ∈ c.returns action,
    ¬ Forgets remembers (c.authority.events .business) c.authority.okEvents call.1 ∧
    (call.2 = true → ¬ c.authority.Overtakes remembers call.1)

instance (c : Config WorkOrderTable) (action : Action) : Decidable (c.Steady remembers action) :=
  inferInstanceAs (Decidable (∀ call ∈ c.returns action, _))

def Config.Placed (remembers : Bool) (c : Config WorkOrderTable) : Prop :=
  match c.phase with
  | .idle => ∀ f ∈ c.authority.okEvents, (change remembers f).moves = true →
      c.authority.Waits remembers f
  | .raised => False
  | .retrying _ _ => ∀ f ∈ c.authority.okEvents, (change remembers f).moves = true →
      c.authority.Waits remembers f ∨
        c.authority.getCursorTimestamp (workOrderProjection remembers).name .business <
          f.eventTimestamp
  | .dispatching _ source rows rest _ =>
      source = .business ∧ rest = [] ∧
      rows.Pairwise (fun e f => e.eventTimestamp < f.eventTimestamp) ∧
      (∀ e ∈ rows, Authority.epoch < e.eventTimestamp) ∧
      (∀ f ∈ c.authority.okEvents, (change remembers f).moves = true →
        c.authority.Waits remembers f ∨ f ∈ rows) ∧
      ∀ f ∈ c.authority.okEvents, ∀ e ∈ rows, e.eventTimestamp ≤ f.eventTimestamp → f ∈ rows

def Authority.Ordered (a : Authority WorkOrderTable) : Prop :=
  (a.events .business).Pairwise fun e f => e.eventTimestamp < f.eventTimestamp

namespace Authority

variable {a : Authority WorkOrderTable}

theorem Ordered.filter_sorted (h : a.Ordered) (p : Event → Bool) :
    ((a.events .business).filter p).insertionSort (fun e f => e.eventTimestamp ≤ f.eventTimestamp) =
      (a.events .business).filter p :=
  ((List.Pairwise.filter p h).imp le_of_lt).insertionSort_eq

theorem Ordered.newEvents (h : a.Ordered) (p : Projection WorkOrderTable) :
    (a.newEvents p .business).Pairwise fun e f => e.eventTimestamp < f.eventTimestamp := by
  unfold Authority.newEvents
  rw [h.filter_sorted]
  exact List.Pairwise.filter _ h

theorem ingest_cases {e : Event} (source : Source) (ordered : (a.ingest source e).Ordered) :
    (a.ingest source e).events .business = a.events .business ∨
      (a.ingest source e).events .business = a.events .business ++ [e] ∧
        (∀ f ∈ a.events .business, f.eventTimestamp < e.eventTimestamp) ∧
        ∀ f ∈ a.events .business, f.eventId ≠ e.eventId := by
  unfold Ordered at ordered
  rw [ingest_events] at ordered ⊢
  split at ordered
  next business =>
    rw [if_pos business]
    unfold Table.insertOrIgnore at ordered ⊢
    split at ordered
    next fresh =>
      rw [if_pos fresh]
      obtain ⟨-, -, before⟩ := List.pairwise_append.mp ordered
      refine Or.inr ⟨rfl, fun f hf => before f hf e List.mem_cons_self, fun f hf same => ?_⟩
      rw [Bool.and_eq_true, Bool.not_eq_true', List.any_eq_false] at fresh
      exact fresh.2 f hf (decide_eq_true ⟨congrArg some same, by simp [Event.key]⟩)
    next held => exact Or.inl (if_neg held)
  next other => exact Or.inl (if_neg other)

theorem Ordered.eq_of_timestamp (h : a.Ordered) {e f : Event} (he : e ∈ a.events .business)
    (hf : f ∈ a.events .business) (same : e.eventTimestamp = f.eventTimestamp) : e = f := by
  have : Std.Symm fun e f : Event => e.eventTimestamp ≠ f.eventTimestamp := ⟨fun _ _ h => h.symm⟩
  by_contra apart
  exact List.Pairwise.forall (List.Pairwise.imp ne_of_lt h) he hf apart same

theorem History.ingest (h : History remembers a) {e : Event} (source : Source)
    (ordered : (a.ingest source e).Ordered) : History remembers (a.ingest source e) := by
  have rest : (a.ingest source e).okEvents = a.okEvents ∧ (a.ingest source e).target = a.target ∧
      (a.ingest source e).retryQueue = a.retryQueue ∧
      ∀ name s, (a.ingest source e).cursor name s = a.cursor name s := by
    cases source <;> exact ⟨rfl, rfl, rfl, fun _ _ => rfl⟩
  obtain ⟨calls, target, queue, cursor⟩ := rest
  have stored : ∀ {f}, f ∈ a.events .business → f ∈ (a.ingest source e).events .business :=
    fun hf => mem_ingest_events source e hf
  exact {
    applies := by rw [calls, target]; exact h.applies
    stored := by rw [calls]; exact fun f hf => stored (h.stored hf)
    consumed := by rw [calls]; exact h.consumed
    recent := by rw [calls]; exact h.recent
    cursor := by rw [calls, cursor]; exact h.cursor
    queued := by
      rw [queue]
      intro r hr
      obtain ⟨business, f, hf, hrest⟩ := h.queued r hr
      exact ⟨business, f, stored hf, hrest⟩
    kept := by
      rw [calls]
      intro newer x older split forgets
      have sub : x :: older ⊆ a.events .business := fun f hf =>
        h.stored (split ▸ List.mem_append_right _ hf)
      rcases ingest_cases source ordered with same | ⟨grown, newest, fresh⟩
      · exact h.kept newer x older split (same ▸ forgets)
      · rw [grown] at forgets
        exact h.kept newer x older split (forgets.of_append (List.cons_subset.mp sub).2
          (List.cons_subset.mp sub).1 newest fresh) }

theorem getCursorTimestamp_ingest (h : History remembers a)
    (unique : Table.Unique Event.key (a.events .business)) (source : Source) (e : Event) :
    (a.ingest source e).getCursorTimestamp (workOrderProjection remembers).name .business =
      a.getCursorTimestamp (workOrderProjection remembers).name .business := by
  have cursor : (a.ingest source e).cursor (workOrderProjection remembers).name .business =
      a.cursor (workOrderProjection remembers).name .business := by
    cases source <;> rfl
  unfold getCursorTimestamp
  rw [cursor]
  cases hcursor : a.cursor (workOrderProjection remembers).name .business with
  | none => rfl
  | some id =>
    obtain ⟨g, hg, rfl⟩ := h.cursor id hcursor
    have stored := h.stored hg
    simp only
    rw [findEvent_eq_some unique stored, findEvent_eq_some
      (ingest_events_unique unique source e) (mem_ingest_events source e stored)]

theorem Succeeded.placed {b : Authority WorkOrderTable} {g : Event}
    (done : Succeeded remembers a b g) (history : History remembers b)
    (unique : Table.Unique Event.key (b.events .business)) (ordered : b.Ordered)
    (passes : ¬ a.Overtakes remembers g)
    (placed : ∀ f ∈ a.okEvents, (change remembers f).moves = true → a.Waits remembers f ∨
      a.getCursorTimestamp (workOrderProjection remembers).name .business < f.eventTimestamp) :
    ∀ f ∈ b.okEvents, (change remembers f).moves = true → b.Waits remembers f ∨
      b.getCursorTimestamp (workOrderProjection remembers).name .business < f.eventTimestamp := by
  intro f hf moves
  have stored : ∀ {x}, x ∈ b.okEvents → x ∈ b.events .business := fun hx => history.stored hx
  have hg : g ∈ b.okEvents := by rw [done.calls]; exact List.mem_cons_self
  rcases lt_trichotomy g.eventTimestamp f.eventTimestamp with after | same | before
  · exact Or.inr (lt_of_le_of_lt (done.getCursorTimestamp_le history unique) after)
  · have : g = f := ordered.eq_of_timestamp (stored hg) (stored hf) same
    exact Or.inl (this ▸ done.waits)
  · rw [done.calls] at hf
    have hf' : f ∈ a.okEvents := (List.mem_cons.mp hf).resolve_left fun same =>
      lt_irrefl _ (same ▸ before)
    have waits : a.Waits remembers f := by
      rcases placed f hf' moves with waits | ahead
      · exact waits
      · by_contra lost
        exact passes ⟨f, hf', moves, ahead, before, lost⟩
    exact Or.inl (waits.succeeded done fun precedes => lt_asymm before precedes.2.2)

theorem Succeeded.dispatched {b : Authority WorkOrderTable} {e : Event} {rows : List Event}
    (done : Succeeded remembers a b e)
    (placed : ∀ f ∈ a.okEvents, (change remembers f).moves = true →
      a.Waits remembers f ∨ f ∈ e :: rows)
    (later : ∀ f ∈ a.okEvents, ∀ g ∈ e :: rows, g.eventTimestamp ≤ f.eventTimestamp →
      f ∈ e :: rows) :
    ∀ f ∈ b.okEvents, (change remembers f).moves = true → b.Waits remembers f ∨ f ∈ rows := by
  intro f hf moves
  by_cases same : f = e
  · exact Or.inl (same ▸ done.waits)
  rw [done.calls] at hf
  have hf' : f ∈ a.okEvents := (List.mem_cons.mp hf).resolve_left same
  by_cases precedes : Precedes remembers e f
  · have ahead := later f hf' e List.mem_cons_self precedes.2.2.le
    exact Or.inr ((List.mem_cons.mp ahead).resolve_left same)
  · rcases placed f hf' moves with waits | ahead
    · exact Or.inl (waits.succeeded done precedes)
    · exact Or.inr ((List.mem_cons.mp ahead).resolve_left same)

end Authority

structure Config.OnCourse (remembers : Bool) (c : Config WorkOrderTable) : Prop where
  wellFormed : c.WellFormed (workOrderEngine remembers)
  history : c.authority.History remembers
  placed : c.Placed remembers

def Config.GaveUp (c : Config WorkOrderTable) : Prop :=
  ∃ name eventId, c.authority.DeadLettered name eventId

theorem workOrderEngine_projection {c : Config WorkOrderTable}
    (h : c.WellFormed (workOrderEngine remembers)) {p : Projection WorkOrderTable}
    (current : c.phase.projection = some p) : p = workOrderProjection remembers :=
  List.mem_singleton.mp (h.current p current)

namespace Config.OnCourse

variable {c' : Config WorkOrderTable}

theorem ingest {c : Config WorkOrderTable} (h : c.OnCourse remembers) {source : Source} {e : Event}
    (ordered : (c.authority.ingest source e).Ordered)
    (wf : Config.WellFormed (workOrderEngine remembers)
      { c with authority := c.authority.ingest source e }) :
    Config.OnCourse remembers { c with authority := c.authority.ingest source e } where
  wellFormed := wf
  history := h.history.ingest source ordered
  placed := by
    have calls : (c.authority.ingest source e).okEvents = c.authority.okEvents := by
      cases source <;> rfl
    have waits : ∀ f, c.authority.Waits remembers f →
        (c.authority.ingest source e).Waits remembers f := by
      cases source <;> exact fun _ => id
    have cursor := Authority.getCursorTimestamp_ingest h.history (h.wellFormed.events _) source e
    obtain ⟨a, phase, targets, results⟩ := c
    have placed := h.placed
    cases phase with
    | idle =>
      intro f hf moves
      exact waits f (placed f (calls ▸ hf) moves)
    | raised => exact placed
    | retrying p due =>
      intro f hf moves
      simp only at cursor
      rw [cursor]
      exact (placed f (calls ▸ hf) moves).imp_left (waits f)
    | dispatching p s rows rest result =>
      obtain ⟨business, last, sorted, recent, placed, later⟩ := placed
      refine ⟨business, last, sorted, recent, fun f hf moves => ?_, fun f hf => ?_⟩
      · exact (placed f (calls ▸ hf) moves).imp_left (waits f)
      · exact later f (calls ▸ hf)

theorem retry {a : Authority WorkOrderTable} {p : Projection WorkOrderTable} {row : RetryRow}
    {due : List RetryRow} {targets : List (Projection WorkOrderTable)}
    {results : List ProjectionResult} {fault : Option Failure} {now : Nat}
    (h : Config.OnCourse remembers ⟨a, .retrying p (row :: due), targets, results⟩)
    (steady : Config.Steady remembers ⟨a, .retrying p (row :: due), targets, results⟩
      (.retry fault now))
    (ordered : (a.retryRow p row fault now).Ordered)
    (wf : Config.WellFormed (workOrderEngine remembers)
      ⟨a.retryRow p row fault now, .retrying p due, targets, results⟩) :
    Config.OnCourse remembers ⟨a.retryRow p row fault now, .retrying p due, targets, results⟩ ∨
      Config.GaveUp ⟨a.retryRow p row fault now, .retrying p due, targets, results⟩ := by
  obtain rfl := workOrderEngine_projection h.wellFormed rfl
  have isDue := h.wellFormed.due _ _ rfl
  have hrow := isDue.queued List.mem_cons_self
  obtain ⟨business, e, stored, hid, consumed, recent⟩ := h.history.queued row hrow
  have found : a.findEvent row.eventSource row.eventId = some e := by
    rw [business, ← hid]
    exact Authority.findEvent_eq_some (h.wellFormed.events _) stored
  have outcome := Authority.retryRow_outcome h.wellFormed.retryIds hrow
    (isDue.named row List.mem_cons_self) business found fault now
  rcases outcome with ⟨ok, done⟩ | failed | dead
  · have call : (e, true) ∈ Config.returns
        ⟨a, .retrying (workOrderProjection remembers) (row :: due), targets, results⟩
        (.retry fault now) := by
      simp [Config.returns, found, ok]
    obtain ⟨keeps, passes⟩ := steady _ call
    have history := h.history.succeeded (h.wellFormed.events _) done stored consumed recent keeps
    exact Or.inl {
      wellFormed := wf
      history := history
      placed := done.placed history (wf.events _) ordered (passes rfl) h.placed }
  · refine Or.inl {
      wellFormed := wf
      history := h.history.failed failed stored consumed recent
      placed := ?_ }
    intro f hf moves
    have same : (a.retryRow (workOrderProjection remembers) row fault now).getCursorTimestamp
        (workOrderProjection remembers).name .business =
        a.getCursorTimestamp (workOrderProjection remembers).name .business :=
      failed.getCursorTimestamp
    simp only
    rw [same]
    exact (h.placed f (failed.calls ▸ hf) moves).imp_left fun waits => waits.failed failed
  · exact Or.inr ⟨_, _, dead⟩

theorem dispatch {a : Authority WorkOrderTable} {p : Projection WorkOrderTable} {source : Source}
    {e : Event} {rows : List Event} {rest : List Source} {result result' : ProjectionResult}
    {targets : List (Projection WorkOrderTable)} {results : List ProjectionResult}
    {fault : Option Failure} {now : Nat}
    (h : Config.OnCourse remembers ⟨a, .dispatching p source (e :: rows) rest result,
      targets, results⟩)
    (steady : Config.Steady remembers
      ⟨a, .dispatching p source (e :: rows) rest result, targets, results⟩ (.dispatch fault now))
    (wf : Config.WellFormed (workOrderEngine remembers)
      ⟨a.dispatchRow p source e fault now, .dispatching p source rows rest result',
        targets, results⟩) :
    Config.OnCourse remembers
        ⟨a.dispatchRow p source e fault now, .dispatching p source rows rest result', targets,
          results⟩ ∨
      Config.GaveUp
        ⟨a.dispatchRow p source e fault now, .dispatching p source rows rest result', targets,
          results⟩ := by
  obtain rfl := workOrderEngine_projection h.wellFormed rfl
  obtain ⟨rfl, rfl, sorted, recent, placed, later⟩ := h.placed
  have fetched := h.wellFormed.rows _ _ _ _ _ rfl
  have stored := fetched.stored List.mem_cons_self
  have consumed := fetched.consumed e List.mem_cons_self
  have first : ∀ g ∈ rows, e.eventTimestamp < g.eventTimestamp := (List.pairwise_cons.mp sorted).1
  have tail := (List.pairwise_cons.mp sorted).2
  have recent_tail : ∀ g ∈ rows, Authority.epoch < g.eventTimestamp := fun g hg =>
    recent g (List.mem_cons_of_mem _ hg)
  have later_tail : ∀ f, f ≠ e → f ∈ a.okEvents → ∀ g ∈ rows,
      g.eventTimestamp ≤ f.eventTimestamp → f ∈ rows := fun f hne hf g hg hle =>
    (List.mem_cons.mp (later f hf g (List.mem_cons_of_mem _ hg) hle)).resolve_left hne
  have outcome : Authority.Outcome remembers a _ e _ := Authority.dispatchRow_outcome a e fault now
  rcases outcome with ⟨ok, done⟩ | failed | dead
  · have call : (e, false) ∈ Config.returns
        ⟨a, .dispatching (workOrderProjection remembers) .business (e :: rows) [] result, targets,
          results⟩ (.dispatch fault now) := by
      simp [Config.returns, ok]
    have history := h.history.succeeded (h.wellFormed.events _) done stored consumed
      (recent e List.mem_cons_self) (steady _ call).1
    refine Or.inl {
      wellFormed := wf
      history := history
      placed := ⟨rfl, rfl, tail, recent_tail, done.dispatched placed later, ?_⟩ }
    intro f hf g hg hle
    have hne : f ≠ e := fun same => absurd (same ▸ hle) (not_le.mpr (first g hg))
    rw [done.calls] at hf
    exact later_tail f hne ((List.mem_cons.mp hf).resolve_left hne) g hg hle
  · refine Or.inl {
      wellFormed := wf
      history := h.history.failed failed stored consumed (recent e List.mem_cons_self)
      placed := ⟨rfl, rfl, tail, recent_tail, ?_, ?_⟩ }
    · intro f hf moves
      rcases placed f (failed.calls ▸ hf) moves with waits | ahead
      · exact Or.inl (waits.failed failed)
      · rcases List.mem_cons.mp ahead with rfl | ahead
        · exact Or.inl (Or.inr failed.queued)
        · exact Or.inr ahead
    · intro f hf g hg hle
      have hne : f ≠ e := fun same => absurd (same ▸ hle) (not_le.mpr (first g hg))
      exact later_tail f hne (failed.calls ▸ hf) g hg hle
  · exact Or.inr ⟨_, _, dead⟩

theorem processRetries {a : Authority WorkOrderTable} {p : Projection WorkOrderTable}
    {rest : List (Projection WorkOrderTable)} {results : List ProjectionResult} {now : Nat}
    (h : Config.OnCourse remembers ⟨a, .idle, p :: rest, results⟩)
    (wf : Config.WellFormed (workOrderEngine remembers)
      ⟨a, .retrying p (a.dueRetries p.name now), rest, results⟩) :
    Config.OnCourse remembers ⟨a, .retrying p (a.dueRetries p.name now), rest, results⟩ where
  wellFormed := wf
  history := h.history
  placed := fun f hf moves => Or.inl (h.placed f hf moves)

theorem returned {a : Authority WorkOrderTable} {phase : Phase WorkOrderTable}
    {targets : List (Projection WorkOrderTable)} {results : List ProjectionResult}
    {p : Projection WorkOrderTable} {result : ProjectionResult}
    (h : Config.OnCourse remembers ⟨a, phase, targets, results⟩)
    (between : phase.between = some (p, result, []))
    (wf : Config.WellFormed (workOrderEngine remembers) ⟨a, .idle, targets, results ++ [result]⟩) :
    Config.OnCourse remembers ⟨a, .idle, targets, results ++ [result]⟩ where
  wellFormed := wf
  history := h.history
  placed := by
    obtain rfl := workOrderEngine_projection h.wellFormed (Phase.projection_of_between between)
    unfold Phase.between at between
    split at between
    next => cases between
    next =>
      obtain ⟨-, -, -, -, placed, -⟩ := h.placed
      exact fun f hf moves => (placed f hf moves).resolve_right List.not_mem_nil
    next => cases between

theorem fetched {a : Authority WorkOrderTable} {phase : Phase WorkOrderTable}
    {targets : List (Projection WorkOrderTable)} {results : List ProjectionResult}
    {p : Projection WorkOrderTable} {result : ProjectionResult} {source : Source}
    {rest : List Source} (h : Config.OnCourse remembers ⟨a, phase, targets, results⟩)
    (between : phase.between = some (p, result, source :: rest)) (ordered : a.Ordered)
    (wf : Config.WellFormed (workOrderEngine remembers)
      ⟨a, .dispatching p source (a.newEvents p source) rest result, targets, results⟩) :
    Config.OnCourse remembers
      ⟨a, .dispatching p source (a.newEvents p source) rest result, targets, results⟩ where
  wellFormed := wf
  history := h.history
  placed := by
    obtain rfl := workOrderEngine_projection h.wellFormed (Phase.projection_of_between between)
    have reached : ∀ f ∈ a.okEvents,
        a.getCursorTimestamp (workOrderProjection remembers).name .business < f.eventTimestamp →
        f ∈ a.newEvents (workOrderProjection remembers) .business := fun f hf ahead =>
      Authority.mem_newEvents.mpr ⟨h.history.stored hf, ahead, h.history.consumed f hf⟩
    unfold Phase.between at between
    split at between
    next =>
      cases between
      refine ⟨rfl, rfl, ordered.newEvents _, fun e he => ?_, fun f hf moves => ?_,
        fun f hf e he hle => ?_⟩
      · exact lt_of_le_of_lt (Authority.epoch_le_getCursorTimestamp h.history (wf.events _))
          (Authority.mem_newEvents.mp he).2.1
      · exact (h.placed f hf moves).imp_right (reached f hf)
      · exact reached f hf (lt_of_lt_of_le (Authority.mem_newEvents.mp he).2.1 hle)
    next =>
      obtain ⟨-, last, -⟩ := h.placed
      cases last
      cases between
    next => cases between

theorem step {c : Config WorkOrderTable} {action : Action} (h : c.OnCourse remembers)
    (steady : c.Steady remembers action) (ordered : c'.authority.Ordered)
    (taken : (workOrderEngine remembers).machine.step c action = some c') :
    c'.OnCourse remembers ∨ c'.GaveUp := by
  have wf := step_wellFormed _ h.wellFormed taken
  cases Engine.step_cases _ taken with
  | ingest _ source e => exact Or.inl (h.ingest ordered wf)
  | runCycle a phase targets results name ready =>
    rcases ready with ⟨rfl, rfl⟩ | rfl
    · exact Or.inl ⟨wf, h.history, h.placed⟩
    · exact h.placed.elim
  | processRetries a p rest results now => exact Or.inl (h.processRetries wf)
  | retry a p row due targets results fault now => exact h.retry steady ordered wf
  | returned a phase targets results p result between => exact Or.inl (h.returned between wf)
  | undeclared a phase targets results p result source rest between empty =>
    obtain rfl := workOrderEngine_projection h.wellFormed (Phase.projection_of_between between)
    cases empty
  | fetched a phase targets results p result source rest between =>
    exact Or.inl (h.fetched between ordered wf)
  | dispatch a p source e rows rest result targets results fault now => exact h.dispatch steady wf

end Config.OnCourse

theorem step_gaveUp (engine : Engine WorkOrderTable) {c c' : Config WorkOrderTable}
    {action : Action} (h : c.GaveUp) (taken : engine.machine.step c action = some c') :
    c'.GaveUp := by
  obtain ⟨name, eventId, dead⟩ := h
  refine ⟨name, eventId, ?_⟩
  cases engine.step_cases taken with
  | ingest _ source e => cases source <;> exact dead
  | runCycle => exact dead
  | processRetries => exact dead
  | retry => exact dead.retryRow ..
  | returned => exact dead
  | undeclared => exact dead
  | fetched => exact dead
  | dispatch => exact dead.dispatchRow ..

theorem step_events (engine : Engine WorkOrderTable) {c c' : Config WorkOrderTable}
    {action : Action} (taken : engine.machine.step c action = some c') (s : Source) :
    c.authority.events s <+: c'.authority.events s := by
  cases engine.step_cases taken with
  | ingest _ source e =>
    simp only [Authority.ingest_events]
    split
    · unfold Table.insertOrIgnore
      split
      · exact List.prefix_append _ _
      · exact List.prefix_refl _
    · exact List.prefix_refl _
  | runCycle => exact List.prefix_refl _
  | processRetries => exact List.prefix_refl _
  | retry => simp
  | returned => exact List.prefix_refl _
  | undeclared => exact List.prefix_refl _
  | fetched => exact List.prefix_refl _
  | dispatch => simp

theorem initial_onCourse (remembers : Bool) :
    ((workOrderEngine remembers).initial []).OnCourse remembers where
  wellFormed := initial_wellFormed _ _
  history := {
    applies := Applies.nil
    stored := List.nil_subset _
    consumed := nofun
    recent := nofun
    cursor := nofun
    queued := nofun
    kept := by simp [Engine.initial, Authority.okEvents] }
  placed := nofun

theorem Authority.rebuild_target (a : Authority WorkOrderTable) (ordered : a.Ordered) (now : Nat) :
    (a.rebuild (workOrderProjection remembers) (fun _ => none) now).target =
      (((a.events .business).filter (workOrderProjection remembers).consumes).foldl
        (replayEvent (workOrderProjection remembers) (fun _ => none) now) ([], none)).1 := by
  have rows :
      Authority.allEvents { a with target := (workOrderProjection remembers).preRebuild a.target }
      (workOrderProjection remembers) .business =
      (a.events .business).filter (workOrderProjection remembers).consumes :=
    ordered.filter_sorted _
  unfold rebuild
  change (rebuildSource _ _ _ _ .business).target = _
  unfold rebuildSource
  rw [rows]
  unfold replayEvents
  split
  next replayed => exact (congrArg Prod.fst replayed).symm
  next replayed =>
    refine Eq.trans ?_ (congrArg Prod.fst replayed).symm
    simp only
    split <;> rfl

def WorkOrderTable.statusOf (t : WorkOrderTable) (workOrderId : String) : Option WorkOrderStatus :=
  (Table.lookup WorkOrderRow.key workOrderId t).map (·.status)

theorem WorkOrderTable.statusOf_eq (remembers : Bool) (t : WorkOrderTable) (workOrderId : String) :
    t.statusOf workOrderId = (t.lifeOf remembers workOrderId).map (·.status) := by
  unfold statusOf lifeOf
  rw [Option.map_map]
  rfl

theorem Config.OnCourse.caughtUp {c : Config WorkOrderTable} (h : c.OnCourse remembers)
    (idle : c.phase = .idle) (ordered : c.authority.Ordered) (queue : c.authority.retryQueue = [])
    (handled : ∀ e ∈ c.authority.events .business,
      (workOrderProjection remembers).consumes e = true →
        c.authority.Handled (workOrderProjection remembers).name .business e.eventId) :
    CaughtUp remembers
      ((c.authority.events .business).filter (workOrderProjection remembers).consumes)
      c.authority.okEvents := by
  have ids : ∀ e ∈ c.authority.events .business, ∀ f ∈ c.authority.events .business,
      e.eventId = f.eventId → e = f := fun e he f hf same =>
    Table.eq_of_key_eq (h.wellFormed.events _) he hf (congrArg some same) (by simp [Event.key])
  have all : (c.authority.events .business).filter (workOrderProjection remembers).consumes ⊆
      c.authority.okEvents := by
    intro e he
    obtain ⟨stored, consumed⟩ := List.mem_filter.mp he
    obtain ⟨t, ht, -, -, hid, ok⟩ := handled e stored consumed
    have called : t.event ∈ c.authority.okEvents :=
      List.mem_map_of_mem (List.mem_filter.mpr ⟨ht, ok⟩)
    exact ids t.event (h.history.stored called) e stored hid ▸ called
  have placed := h.placed
  unfold Config.Placed at placed
  rw [idle] at placed
  exact {
    ids := fun e he f hf => ids e (List.mem_filter.mp he).1 f (List.mem_filter.mp hf).1
    sorted := List.Pairwise.filter _ ordered
    sub := fun e he => List.mem_filter.mpr ⟨h.history.stored he, h.history.consumed e he⟩
    all := all
    settled := by
      intro f hf moves
      refine (placed f (all hf) moves).resolve_right ?_
      rintro ⟨r, hr, -⟩
      rw [queue] at hr
      exact List.not_mem_nil hr
    kept := by
      intro newer x older split forgets
      refine h.history.kept newer x older split (forgets.of_filter fun v pairs => ?_)
      rw [consumes_iff]
      cases type : WorkOrderEventType.ofText v.eventType with
      | some type => rfl
      | none => simp [change, type, Change.pairs] at pairs }

/-- A run whose steps are all steady, through with its events, leaves every work order at the
status a rebuild gives it. -/
theorem statusOf_rebuild (remembers : Bool) (actions : List Action) {c : Config WorkOrderTable}
    (reached : (workOrderEngine remembers).machine.run ((workOrderEngine remembers).initial [])
      actions = some c)
    (idle : c.phase = .idle)
    (ordered : (c.authority.events .business).Pairwise fun e f => e.eventTimestamp <
      f.eventTimestamp)
    (queue : c.authority.retryQueue = []) (dead : c.authority.deadLetter = [])
    (handled : ∀ e ∈ c.authority.events .business,
      (workOrderProjection remembers).consumes e = true →
        c.authority.Handled (workOrderProjection remembers).name .business e.eventId)
    (steady : ∀ x ∈ (workOrderEngine remembers).machine.transitions
      ((workOrderEngine remembers).initial []) actions, x.before.Steady remembers x.label)
    (now : Nat) (workOrderId : String) :
    c.authority.target.statusOf workOrderId =
      (c.authority.rebuild (workOrderProjection remembers) (fun _ => none) now).target.statusOf
        workOrderId := by
  have kept : c.OnCourse remembers ∨ c.GaveUp := by
    refine (workOrderEngine remembers).machine.run_invariant_of_guarded
      (J := fun c => c.OnCourse remembers ∨ c.GaveUp)
      (G := fun c action c' => c.Steady remembers action ∧ c'.authority.Ordered)
      ?_ (Or.inl (initial_onCourse remembers)) (fun x hx => ⟨steady x hx, ?_⟩) reached
    · rintro c action c' (onCourse | gaveUp) guard taken
      · exact onCourse.step guard.1 guard.2 taken
      · exact Or.inr (step_gaveUp _ gaveUp taken)
    · have grown := ((workOrderEngine remembers).machine.rel_of_mem_transitions
        (R := fun c c' => c.authority.events .business <+: c'.authority.events .business)
        (fun _ => List.prefix_refl _) (fun _ _ _ => List.IsPrefix.trans)
        (fun _ _ _ taken => step_events _ taken .business) reached).2 x hx
      exact ordered.sublist grown.sublist
  have onCourse := kept.resolve_right (by rintro ⟨_, _, d, hd, -⟩; simp [dead] at hd)
  have caughtUp := onCourse.caughtUp idle ordered queue handled
  have rebuilt : Applies remembers
      (((c.authority.events .business).filter (workOrderProjection remembers).consumes).reverse ++
        [])
      (c.authority.rebuild (workOrderProjection remembers) (fun _ => none) now).target := by
    rw [Authority.rebuild_target c.authority ordered now]
    exact Applies.nil.foldl (s := ([], none)) caughtUp.ids (List.nil_subset _)
      (List.Subset.refl _) (fun e he => onCourse.history.applies.accepted e (caughtUp.all he)) now
  rw [WorkOrderTable.statusOf_eq remembers, WorkOrderTable.statusOf_eq remembers,
    onCourse.history.applies.lives, rebuilt.lives, List.append_nil]
  exact caughtUp.status_agrees workOrderId

def workEvent (type : WorkOrderEventType) (workOrderId eventId eventTimestamp : String) : Event :=
  { eventId := eventId, eventType := type.text, eventTimestamp := eventTimestamp
    payload := .obj [], workOrderId := some workOrderId }

/-- A started event fails once and is retried; the closed event after it is applied again. -/
def retriedRun : List Action :=
  [Action.ingest .business (workEvent .created "w1" "e1" "2026-01-01T00:00:00Z"),
    .ingest .business (workEvent .started "w1" "e2" "2026-01-02T00:00:00Z"),
    .ingest .business (workEvent .closed "w1" "e3" "2026-01-03T00:00:00Z")] ++
    cycle 0 [] [none, locked, none] ++ cycle 2000000 [none] [none]

theorem statusOf_rebuild_retriedRun :
    ∃ c, (workOrderEngine true).machine.run ((workOrderEngine true).initial []) retriedRun =
        some c ∧
      c.authority.target.statusOf "w1" =
        (c.authority.rebuild (workOrderProjection true) (fun _ => none) 0).target.statusOf "w1" :=
  ⟨_, rfl, statusOf_rebuild true retriedRun rfl rfl (by decide) rfl rfl (by decide) (by decide) 0
    "w1"⟩

/-- Two events fail and their retries return in one pass: the second moves the cursor past the
closed event that lies between them and would have to be applied again. -/
def overtakenRun : List Action :=
  [Action.ingest .business (workEvent .created "w1" "e1" "2026-01-01T00:00:00Z"),
    .ingest .business (workEvent .started "w1" "e2" "2026-01-02T00:00:00Z"),
    .ingest .business (workEvent .closed "w1" "e3" "2026-01-03T00:00:00Z"),
    .ingest .business (workEvent .created "w2" "e4" "2026-01-04T00:00:00Z")] ++
    cycle 0 [] [none, locked, none, locked] ++ cycle 2000000 [none, none] []

theorem statusOf_overtakenRun :
    ¬ ∀ (remembers : Bool) (actions : List Action) (c : Config WorkOrderTable),
      (workOrderEngine remembers).machine.run ((workOrderEngine remembers).initial []) actions =
        some c →
      c.phase = .idle →
      ((c.authority.events .business).Pairwise fun e f => e.eventTimestamp < f.eventTimestamp) →
      c.authority.retryQueue = [] → c.authority.deadLetter = [] →
      (∀ e ∈ c.authority.events .business, (workOrderProjection remembers).consumes e = true →
        c.authority.Handled (workOrderProjection remembers).name .business e.eventId) →
      ∀ now workOrderId, c.authority.target.statusOf workOrderId =
        (c.authority.rebuild (workOrderProjection remembers) (fun _ => none) now).target.statusOf
          workOrderId := by
  intro h
  have agrees := h true overtakenRun _ rfl rfl (by decide) rfl rfl (by decide) 0 "w1"
  revert agrees
  decide

end DreamStudio.Projections
