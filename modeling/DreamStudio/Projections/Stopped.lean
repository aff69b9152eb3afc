import DreamStudio.Projections.Passes

namespace DreamStudio.Projections

open Library

universe u

variable {σ : Type u}

/-- What `rebuild` commits after the truncation, one transaction at a time. -/
inductive RebuildStep
  | replay (source : Source) (e : Event)
  | advance (source : Source)

def RebuildStep.advances (source : Source) : RebuildStep → Bool
  | .advance s => s = source
  | .replay _ _ => false

/-- A rebuild under way: the tables, and its `last_event_id`. -/
structure Rebuilding (σ : Type u) where
  authority : Authority σ
  last : Option String := none

def Rebuilding.step (p : Projection σ) (fault : Source → Event → Option Failure) (now : Nat)
    (r : Rebuilding σ) : RebuildStep → Rebuilding σ
  | .replay source e =>
    match r.authority.callHandle p e (fault source e) now with
    | .ok (_, target) =>
      { authority :=
          ({ r.authority with target := target } : Authority σ).recordAttempt p.name source e true
        last := some e.eventId }
    | .error _ => { r with authority := r.authority.recordAttempt p.name source e false }
  | .advance source =>
    match r.last with
    | none => r
    | some last =>
      { authority :=
          if last = "" then r.authority else r.authority.advanceCursor p.name source last now }

def sourceSteps (source : Source) (events : List Event) : List RebuildStep :=
  events.map (.replay source) ++ [.advance source]

namespace Authority

def rebuildSteps (a : Authority σ) (p : Projection σ) : List RebuildStep :=
  p.sourceCanonical.sources.flatMap fun source => sourceSteps source (a.allEvents p source)

def truncated (a : Authority σ) (p : Projection σ) : Authority σ :=
  { a with target := p.preRebuild a.target, attempts := [] }

/-- A rebuild that stops after so many steps. -/
def stopped (a : Authority σ) (p : Projection σ) (fault : Source → Event → Option Failure)
    (now stop : Nat) :
    Authority σ :=
  (((a.rebuildSteps p).take stop).foldl (Rebuilding.step p fault now)
    { authority := a.truncated p }).authority

section Stop

variable {a b : Authority σ} {p : Projection σ}
    {fault : Source → Event → Option Failure} {now : Nat}

structure Keeps (a b : Authority σ) (name : String) : Prop where
  events : b.events = a.events
  queue : b.retryQueue = a.retryQueue
  seq : b.retryQueueSeq = a.retryQueueSeq
  registered : (b.view name).registered = (a.view name).registered

theorem Keeps.step {r : Rebuilding σ} (keeps : a.Keeps r.authority p.name)
    (registered : (a.view p.name).registered = true) (s : RebuildStep) :
    a.Keeps (r.step p fault now s).authority p.name := by
  cases s with
  | replay source e =>
    unfold Rebuilding.step
    simp only
    split <;> exact ⟨keeps.events, keeps.queue, keeps.seq, keeps.registered⟩
  | advance source =>
    cases last : r.last with
    | none => simpa [Rebuilding.step, last] using keeps
    | some id =>
      simp only [Rebuilding.step, last]
      split
      · exact keeps
      · have held := keeps.registered.trans registered
        refine ⟨keeps.events, keeps.queue, keeps.seq, ?_⟩
        rw [own_advanceCursor _ _ held]
        exact keeps.registered

theorem Keeps.foldl (registered : (a.view p.name).registered = true) (steps : List RebuildStep)
    {r : Rebuilding σ} (keeps : a.Keeps r.authority p.name) :
    a.Keeps (steps.foldl (Rebuilding.step p fault now) r).authority p.name := by
  induction steps generalizing r with
  | nil => exact keeps
  | cons s steps ih => exact ih (keeps.step registered s)

variable (fault now) in
theorem stopped_keeps (registered : (a.view p.name).registered = true) (stop : Nat) :
    a.Keeps (a.stopped p fault now stop) p.name :=
  Keeps.foldl registered _ ⟨rfl, rfl, rfl, rfl⟩

variable (fault) in
theorem step_replay {r : Rebuilding σ} (source : Source) {e : Event}
    (sure : ∀ t, ∃ result, p.handle e now t = .ok result) :
    ((r.step p fault now (.replay source e)).authority.projectionState =
      r.authority.projectionState) ∧
      (r.step p fault now (.replay source e)).authority.attempts =
        { projectionName := p.name, source := source, event := e, ok := (fault source e).isNone } ::
          r.authority.attempts ∧
      (r.step p fault now (.replay source e)).last =
        if (fault source e).isNone then some e.eventId else r.last := by
  obtain ⟨⟨written, target⟩, handled⟩ := sure r.authority.target
  unfold Rebuilding.step callHandle
  cases raised : fault source e with
  | some failure =>
    simp only [raised]
    exact ⟨rfl, rfl, rfl⟩
  | none =>
    simp only [raised, handled]
    exact ⟨rfl, rfl, rfl⟩

theorem step_advance_attempts (r : Rebuilding σ) (source : Source) :
    (r.step p fault now (.advance source)).authority.attempts = r.authority.attempts := by
  unfold Rebuilding.step
  simp only
  split
  · rfl
  · split <;> rfl

theorem foldl_handled {steps : List RebuildStep}
    (sure : ∀ source e, .replay source e ∈ steps → ∀ t, ∃ result, p.handle e now t = .ok result)
    (r : Rebuilding σ) (source : Source) (eventId : String) :
    (steps.foldl (Rebuilding.step p fault now) r).authority.Handled p.name source eventId ↔
      r.authority.Handled p.name source eventId ∨
        ∃ e, .replay source e ∈ steps ∧ fault source e = none ∧ e.eventId = eventId := by
  induction steps generalizing r with
  | nil => simp
  | cons s steps ih =>
    rw [List.foldl_cons, ih fun source e he => sure source e (List.mem_cons_of_mem _ he)]
    cases s with
    | replay s e =>
      obtain ⟨-, attempts, -⟩ := step_replay (r := r) fault s (sure s e List.mem_cons_self)
      have here : (r.step p fault now (.replay s e)).authority.Handled p.name source eventId ↔
          r.authority.Handled p.name source eventId ∨
            s = source ∧ fault s e = none ∧ e.eventId = eventId := by
        constructor
        · rintro ⟨t, ht, named, from_, same, ok⟩
          rw [attempts] at ht
          rcases List.mem_cons.mp ht with rfl | ht
          · exact Or.inr ⟨from_, Option.isNone_iff_eq_none.mp ok, same⟩
          · exact Or.inl ⟨t, ht, named, from_, same, ok⟩
        · rintro (⟨t, ht, rest⟩ | ⟨from_, calm, same⟩)
          · exact ⟨t, attempts ▸ List.mem_cons_of_mem _ ht, rest⟩
          · exact ⟨_, attempts ▸ List.mem_cons_self, rfl, from_, same, by rw [calm]; rfl⟩
      rw [here, or_assoc]
      refine or_congr Iff.rfl ?_
      constructor
      · rintro (⟨rfl, calm, same⟩ | ⟨f, hf, rest⟩)
        · exact ⟨e, List.mem_cons_self, calm, same⟩
        · exact ⟨f, List.mem_cons_of_mem _ hf, rest⟩
      · rintro ⟨f, hf, rest⟩
        rcases List.mem_cons.mp hf with same | later
        · cases same
          exact Or.inl ⟨rfl, rest⟩
        · exact Or.inr ⟨f, later, rest⟩
    | advance s =>
      have here : (r.step p fault now (.advance s)).authority.Handled p.name source eventId ↔
          r.authority.Handled p.name source eventId := by
        unfold Handled
        rw [step_advance_attempts]
      rw [here]
      simp

variable (fault) in
theorem foldl_replays (source : Source) {rows : List Event}
    (sure : ∀ e ∈ rows, ∀ t, ∃ result, p.handle e now t = .ok result) (r : Rebuilding σ) :
    ((rows.map (.replay source)).foldl (Rebuilding.step p fault now) r).authority.projectionState =
        r.authority.projectionState ∧
      ((rows.map (.replay source)).foldl (Rebuilding.step p fault now) r).last =
        ((rows.filter fun e => (fault source e).isNone).getLast?.map (·.eventId)).or r.last := by
  induction rows generalizing r with
  | nil => exact ⟨rfl, rfl⟩
  | cons e rows ih =>
    obtain ⟨here, rest⟩ := List.forall_mem_cons.mp sure
    obtain ⟨state, -, last⟩ := step_replay (r := r) fault source here
    obtain ⟨state', last'⟩ := ih rest (r.step p fault now (.replay source e))
    rw [List.map_cons, List.foldl_cons]
    refine ⟨state'.trans state, last'.trans ?_⟩
    rw [last, List.filter_cons]
    split
    · rw [List.getLast?_cons]
      cases (rows.filter fun e => (fault source e).isNone).getLast? <;> rfl
    · rfl

theorem cursor_congr (state : b.projectionState = a.projectionState) (name : String)
    (source : Source) :
    b.cursor name source = a.cursor name source := by
  unfold cursor
  rw [state]

variable (fault) in
theorem foldl_source (source : Source) {rows : List Event}
    (registered : (b.view p.name).registered = true)
    (sure : ∀ e ∈ rows, ∀ t, ∃ result, p.handle e now t = .ok result)
    (named : ∀ e ∈ rows, e.eventId ≠ "") :
    ∃ b', (sourceSteps source rows).foldl (Rebuilding.step p fault now) { authority := b } =
        { authority := b' } ∧
      (b'.view p.name).registered = true ∧
      ∀ s, b'.cursor p.name s =
        if s = source then
          ((rows.filter fun e => (fault source e).isNone).getLast?.map (·.eventId)).or
            (b.cursor p.name source)
        else b.cursor p.name s := by
  obtain ⟨state, last⟩ := foldl_replays fault source sure { authority := b }
  have keeps : b.Keeps ((rows.map (.replay source)).foldl (Rebuilding.step p fault now)
      { authority := b }).authority p.name := Keeps.foldl registered _ ⟨rfl, rfl, rfl, rfl⟩
  rw [sourceSteps, List.foldl_append]
  generalize (rows.map (.replay source)).foldl (Rebuilding.step p fault now) { authority := b } =
    r at state last keeps
  have held := keeps.registered.trans registered
  rw [List.foldl_cons, List.foldl_nil]
  rw [Option.or_none] at last
  cases found : (rows.filter fun e => (fault source e).isNone).getLast? with
  | none =>
    rw [found] at last
    have none_ : r.last = none := last
    refine ⟨r.authority, ?_, held, fun s => ?_⟩
    · unfold Rebuilding.step
      simp only [none_]
      exact congrArg (Rebuilding.mk r.authority) none_
    · rw [cursor_congr state, Option.map_none, Option.none_or]
      split
      next at_ => rw [at_]
      next => rfl
  | some e =>
    rw [found] at last
    have some_ : r.last = some e.eventId := last
    have stored : e ∈ rows := (List.mem_filter.mp (List.mem_of_getLast? found)).1
    refine ⟨r.authority.advanceCursor p.name source e.eventId now, ?_, ?_, fun s => ?_⟩
    · unfold Rebuilding.step
      simp only [some_, if_neg (named e stored)]
    · rw [own_advanceCursor _ _ held]
      exact held
    · have moved := congrFun (congrArg View.cursor (own_advanceCursor source now held e.eventId)) s
      refine moved.trans ?_
      change Function.update (r.authority.cursor p.name) source _ s = _
      by_cases at_ : s = source
      · rw [if_pos at_, at_, Function.update_self]
        rfl
      · rw [if_neg at_, Function.update_of_ne at_, cursor_congr state]

variable (fault now) in
theorem foldl_cursor {sources : List Source} (once : sources.Nodup) (rows : Source → List Event)
    (sure : ∀ s, ∀ e ∈ rows s, ∀ t, ∃ result, p.handle e now t = .ok result)
    (named : ∀ s, ∀ e ∈ rows s, e.eventId ≠ "") (registered : (b.view p.name).registered = true)
    (stop : Nat) (source : Source) :
    (((sources.flatMap fun s => sourceSteps s (rows s)).take stop).foldl
        (Rebuilding.step p fault now) { authority := b }).authority.cursor p.name source =
      if ((sources.flatMap fun s => sourceSteps s (rows s)).take stop).any
        (RebuildStep.advances source) then
        (((rows source).filter fun e => (fault source e).isNone).getLast?.map (·.eventId)).or
          (b.cursor p.name source)
      else b.cursor p.name source := by
  have silent : ∀ (s : Source) (events : List Event),
      (events.map (RebuildStep.replay s)).any (RebuildStep.advances source) = false :=
        fun s events => by
    rw [List.any_map]
    exact List.any_eq_false.mpr fun _ _ => nofun
  induction sources generalizing b stop with
  | nil => simp
  | cons s sources ih =>
    obtain ⟨first, once⟩ := List.nodup_cons.mp once
    rw [List.flatMap_cons, List.take_append]
    by_cases early : stop ≤ (rows s).length
    · have cut : (sourceSteps s (rows s)).take stop = ((rows s).take stop).map (.replay s) := by
        rw [sourceSteps, List.take_append_of_le_length (by simpa using early), List.map_take]
      have none_ : stop - (sourceSteps s (rows s)).length = 0 := by simp [sourceSteps]; omega
      rw [cut, none_, List.take_zero, List.append_nil, silent]
      obtain ⟨state, -⟩ := foldl_replays fault s
        (fun e he => sure s e (List.mem_of_mem_take he)) { authority := b }
      exact cursor_congr state _ _
    · rw [List.take_of_length_le (by simp [sourceSteps]; omega)]
      obtain ⟨b', same, held, cursor⟩ := foldl_source fault s registered (sure s) (named s)
      have here : (sourceSteps s (rows s)).any (RebuildStep.advances source) =
          decide (s = source) := by
        rw [sourceSteps, List.any_append, silent]
        simp [RebuildStep.advances]
      rw [List.foldl_append, same, ih once held, List.any_append, here, cursor]
      by_cases at_ : source = s
      · subst at_
        have later : ((sources.flatMap fun s => sourceSteps s (rows s)).take
            (stop - (sourceSteps source (rows source)).length)).any (RebuildStep.advances source) =
              false := by
          refine List.any_eq_false.mpr fun x hx advances => ?_
          obtain ⟨s', hs', hx⟩ := List.mem_flatMap.mp (List.mem_of_mem_take hx)
          rcases List.mem_append.mp hx with hx | hx
          · obtain ⟨e, -, rfl⟩ := List.mem_map.mp hx
            cases advances
          · rw [List.mem_singleton.mp hx] at advances
            exact first (of_decide_eq_true advances ▸ hs')
        simp [later]
      · simp [at_, Ne.symm at_]

end Stop

/-- The moment from which a call reads a source that it retries nothing of: that of the last event
handled, once the source was through, else that of the cursor there was. -/
def resume (a : Authority σ) (p : Projection σ)
    (fault : Source → Event → Option Failure) (stop : Nat) (source : Source) : String :=
  if ((a.rebuildSteps p).take stop).any (RebuildStep.advances source) then
    match ((a.allEvents p source).filter fun e => (fault source e).isNone).getLast? with
    | some e => e.eventTimestamp
    | none => a.getCursorTimestamp p.name source
  else a.getCursorTimestamp p.name source

/-- An event that the calls after the rebuild, at their moments, leave handled: the rebuild has
handled it, or it is queued for a retry, or the first call retries nothing of its source and resumes
before it, or the last event a call retries is before it. -/
def Survives (a : Authority σ) (p : Projection σ)
    (fault : Source → Event → Option Failure) (stop : Nat) (now : Nat → Nat) (source : Source)
    (e : Event) : Prop :=
  (.replay source e ∈ (a.rebuildSteps p).take stop ∧ fault source e = none) ∨
    a.Queued p.name source e.eventId ∨
    (a.view p.name).jump now source 0 = none ∧ a.resume p fault stop source < e.eventTimestamp ∨
    ∃ n, ∃ t ∈ (a.view p.name).jump now source n, t < e.eventTimestamp

/-- What a rebuild of a registered projection starts from: tables with their keys, events with ids,
and a `handle` that raises only what the environment raises. -/
structure Fit (a : Authority σ) (p : Projection σ) : Prop where
  intact : a.Intact
  registered : (a.view p.name).registered = true
  named : ∀ source, ∀ e ∈ a.events source, e.eventId ≠ ""
  sure : (a.view p.name).Sure p

end Authority

/-- Calls that come to the projection, without end, and in which its `handle` meets no failure. -/
structure Engine.Serves (engine : Engine σ) (p : Projection σ) (calls : Nat → Call) : Prop where
  reaches : ∀ n, engine.Reaches p (calls n)
  calm : ∀ n source eventId, (calls n).fault p.name source eventId = none
  grows : ∀ t, ∃ n, t ≤ (calls n).now

section Calls

variable {engine : Engine σ} {p : Projection σ} {a : Authority σ} {calls : Nat → Call}

theorem Engine.targets_nodup (engine : Engine σ) (projectionName : Option String) :
    ((engine.targets projectionName).map (·.name)).Nodup := by
  unfold Engine.targets
  split
  · exact engine.names_nodup
  · split
    · exact engine.names_nodup
    · split
      · exact List.nodup_singleton _
      · exact engine.names_nodup

theorem after_view (intact : a.Intact) (registered : (a.view p.name).registered = true)
    (sure : (a.view p.name).Sure p) (serves : engine.Serves p calls) (n : Nat) :
    (engine.after a calls n).Intact ∧ (engine.after a calls n).view p.name =
      (a.view p.name).afterPasses p (fun n => (calls n).now) n := by
  induction n with
  | zero => exact ⟨intact, rfl⟩
  | succ n ih =>
    obtain ⟨kept, same⟩ := ih
    refine ⟨kept.runTargets, ?_⟩
    have ids : Table.Unique RetryRow.idKey (a.view p.name).queue := Table.filter_unique intact.ids _
    obtain ⟨events, still, queue⟩ := View.afterPasses_same ids p (fun n => (calls n).now) n
    have passed := own_runTargets kept (engine.targets_nodup _) (serves.reaches n)
      (by rw [same, still, registered])
      (by
        rw [same]
        refine sure.mono events fun r hr => ?_
        rw [queue] at hr
        exact (List.mem_filter.mp hr).1)
      (serves.calm n)
    exact passed.trans (by rw [same]; rfl)

theorem View.jump_congr {v w : View} (events : w.events = v.events) (queue : w.queue = v.queue)
    (now : Nat → Nat) (source : Source) (n : Nat) : w.jump now source n = v.jump now source n := by
  unfold View.jump View.dueAt View.lastRetried
  rw [queue, View.known_congr events]
  refine Option.map_congr fun eventId _ => View.timeOf_congr events source (some eventId)

end Calls

namespace Authority

section Survival

variable {engine : Engine σ} {p : Projection σ} {a : Authority σ} {calls : Nat → Call}
  {fault : Source → Event → Option Failure} {clock stop : Nat} {source : Source} {e : Event}

theorem stopped_resume (fit : a.Fit p) (clock : Nat) :
    ((a.stopped p fault clock stop).view p.name).timeOf source
      (((a.stopped p fault clock stop).view p.name).cursor source) =
        a.resume p fault stop source := by
  have stored : ∀ s, ∀ e ∈ a.allEvents p s, e ∈ a.events s ∧ p.consumes e = true := fun s e he =>
    List.mem_filter.mp ((List.mem_insertionSort _).mp he)
  have keeps := stopped_keeps fault clock fit.registered stop
  have cursor := foldl_cursor (b := a.truncated p) fault clock
    (View.sources_nodup p.sourceCanonical) (a.allEvents p)
    (fun s e he t => fit.sure s e (stored s e he).1 (Or.inl (stored s e he).2) clock t)
    (fun s e he => fit.named s e (stored s e he).1) fit.registered stop source
  have whole : (a.view p.name).Whole := ⟨fit.intact.events, fit.named⟩
  rw [View.timeOf_congr (v := a.view p.name) (keeps.events)]
  change (a.view p.name).timeOf source ((a.stopped p fault clock stop).cursor p.name source) = _
  rw [stopped, rebuildSteps, cursor]
  unfold resume
  have before : (a.truncated p).cursor p.name source = a.cursor p.name source := rfl
  have old : (a.view p.name).timeOf source (a.cursor p.name source) =
      a.getCursorTimestamp p.name source := rfl
  rw [before]
  change (a.view p.name).timeOf source (if ((a.rebuildSteps p).take stop).any _ then _ else _) = _
  split
  · cases found : ((a.allEvents p source).filter fun e => (fault source e).isNone).getLast? with
    | none => exact old
    | some e =>
      have mine := (List.mem_filter.mp (List.mem_of_getLast? found)).1
      exact whole.timeOf (stored source e mine).1
  · exact old

theorem stopped_handled (fit : a.Fit p) (clock : Nat) (he : e ∈ a.events source) :
    (a.stopped p fault clock stop).Handled p.name source e.eventId ↔
      .replay source e ∈ (a.rebuildSteps p).take stop ∧ fault source e = none := by
  have stored : ∀ s f, .replay s f ∈ (a.rebuildSteps p).take stop →
      f ∈ a.events s ∧ p.consumes f = true := by
    intro s f hf
    obtain ⟨s', -, hf⟩ := List.mem_flatMap.mp (List.mem_of_mem_take hf)
    rcases List.mem_append.mp hf with hf | hf
    · obtain ⟨f', hf', same⟩ := List.mem_map.mp hf
      cases same
      exact List.mem_filter.mp ((List.mem_insertionSort _).mp hf')
    · cases List.mem_singleton.mp hf
  refine (foldl_handled (fun s f hf t => fit.sure s f (stored s f hf).1
    (Or.inl (stored s f hf).2) clock t) _
    source e.eventId).trans ?_
  have nothing : ¬(a.truncated p).Handled p.name source e.eventId := fun ⟨_, ht, _⟩ => by cases ht
  rw [or_iff_right nothing]
  constructor
  · rintro ⟨f, hf, calm, same⟩
    have one : f = e :=
      Table.eq_of_key_eq (fit.intact.events source) (stored source f hf).1 he
        (congrArg some same) nofun
    exact one ▸ ⟨hf, calm⟩
  · exact fun ⟨hf, calm⟩ => ⟨e, hf, calm, rfl⟩

theorem stopped_queue (fit : a.Fit p) (fault : Source → Event → Option Failure) (clock stop : Nat) :
    ((a.stopped p fault clock stop).view p.name).queue = (a.view p.name).queue :=
  congrArg (List.filter fun r : RetryRow => r.projectionName = p.name)
    (stopped_keeps fault clock fit.registered stop).queue

theorem stopped_after (fit : a.Fit p) (serves : engine.Serves p calls)
    (fault : Source → Event → Option Failure) (clock stop : Nat) :
    ((a.stopped p fault clock stop).view p.name).Whole ∧
      Table.Unique RetryRow.idKey ((a.stopped p fault clock stop).view p.name).queue ∧
      ∀ n source eventId, (engine.after (a.stopped p fault clock stop) calls n).Handled p.name
        source eventId ↔
        (((a.stopped p fault clock stop).view p.name).afterPasses p
          (fun n => (calls n).now) n).Handled
          source eventId := by
  have keeps := stopped_keeps fault clock fit.registered stop
  have queue := stopped_queue fit fault clock stop
  have intact : (a.stopped p fault clock stop).Intact :=
    ⟨keeps.events ▸ fit.intact.events, keeps.queue ▸ fit.intact.ids,
      by rw [keeps.queue, keeps.seq]; exact fit.intact.seq⟩
  have sure : ((a.stopped p fault clock stop).view p.name).Sure p :=
    fit.sure.mono keeps.events fun r hr => queue ▸ hr
  refine ⟨⟨intact.events, fun s e he => fit.named s e (keeps.events ▸ he)⟩,
    Table.filter_unique intact.ids _,
    fun n source eventId => ?_⟩
  rw [← view_handled, (after_view intact (keeps.registered.trans fit.registered) sure serves n).2]

theorem exists_handled_iff (fit : a.Fit p) (serves : engine.Serves p calls)
    (mine : source ∈ p.sourceCanonical.sources) (he : e ∈ a.events source)
    (consumed : p.consumes e = true) :
    (∃ n, (engine.after (a.stopped p fault clock stop) calls n).Handled p.name source e.eventId) ↔
      a.Survives p fault stop (fun n => (calls n).now) source e := by
  obtain ⟨whole, ids, handled⟩ := stopped_after fit serves fault clock stop
  have keeps := stopped_keeps fault clock fit.registered stop
  have queue := stopped_queue fit fault clock stop
  have he' : e ∈ ((a.stopped p fault clock stop).view p.name).events source := by
    change e ∈ (a.stopped p fault clock stop).events source
    rwa [keeps.events]
  simp only [handled]
  refine (whole.exists_handled_iff ids mine serves.grows he' consumed).trans ?_
  unfold View.Recovers Survives
  simp only [View.jump_congr (v := a.view p.name) keeps.events queue, stopped_resume fit,
    queue, view_handled]
  refine or_congr (stopped_handled fit clock he) (or_congr ?_ Iff.rfl)
  constructor
  · rintro ⟨r, hr, rest⟩
    obtain ⟨hr, own⟩ := List.mem_filter.mp hr
    exact ⟨r, hr, rest.2, rest.1, of_decide_eq_true own⟩
  · rintro ⟨r, hr, same, from_, own⟩
    exact ⟨r, List.mem_filter.mpr ⟨hr, decide_eq_true own⟩, from_, same⟩

theorem exists_bound {α : Type*} {P : α → Nat → Prop} {xs : List α}
    (grows : ∀ x ∈ xs, ∀ n m, n ≤ m → P x n → P x m) (each : ∀ x ∈ xs, ∃ n, P x n) :
    ∃ n, ∀ x ∈ xs, P x n := by
  induction xs with
  | nil => exact ⟨0, nofun⟩
  | cons x xs ih =>
    obtain ⟨keeps, grows⟩ := List.forall_mem_cons.mp grows
    obtain ⟨⟨n, hn⟩, rest⟩ := List.forall_mem_cons.mp each
    obtain ⟨m, hm⟩ := ih grows rest
    exact ⟨max n m, List.forall_mem_cons.mpr ⟨keeps n _ (le_max_left n m) hn,
      fun y hy => grows y hy m _ (le_max_right n m) (hm y hy)⟩⟩

def twoStarted (cursor : Option String) : Authority Unit where
  businessEvents :=
    [startedEvent "e1" "2026-01-01T00:00:00Z", startedEvent "e2" "2026-01-02T00:00:00Z"]
  projectionState :=
    [{ projectionName := auditProjection.name, lastProcessedBusinessEventId := cursor }]
  target := ()

def everySecond (n : Nat) : Call where
  projectionName := none
  now := 1000000 * n
  fault := fun _ _ _ => none

theorem twoStarted_fit (cursor : Option String) : (twoStarted cursor).Fit auditProjection where
  intact := by
    refine ⟨fun source => ?_, List.Pairwise.nil, nofun⟩
    cases source <;> simp [twoStarted, Authority.events, startedEvent, Table.Unique,
      Table.SameKey, Event.key]
  registered := by simp [Authority.view, twoStarted]
  named := by
    intro source
    cases source <;> simp [twoStarted, Authority.events, startedEvent]
  sure := fun _ _ _ _ _ _ => ⟨_, rfl⟩

theorem everySecond_serves : auditEngine.Serves auditProjection everySecond where
  reaches := fun _ => by simp [Engine.Reaches, everySecond, Engine.targets, auditEngine,
    auditProjection]
  calm := fun _ _ _ => rfl
  grows := fun t => ⟨t, by simp only [everySecond]; omega⟩

/-- A rebuild, whatever fails in it and wherever it stops, is made good by the calls after it
exactly if every event survives. -/
theorem rebuild_recovers_iff (fit : a.Fit p) (serves : engine.Serves p calls)
    (fault : Source → Event → Option Failure) (clock stop : Nat) :
    (∃ n, ∀ source ∈ p.sourceCanonical.sources, ∀ e ∈ a.events source, p.consumes e = true →
        (engine.after (a.stopped p fault clock stop) calls n).Handled p.name source e.eventId) ↔
      ∀ source ∈ p.sourceCanonical.sources, ∀ e ∈ a.events source, p.consumes e = true →
        a.Survives p fault stop (fun n => (calls n).now) source e := by
  obtain ⟨whole, ids, handled⟩ := stopped_after fit serves fault clock stop
  constructor
  · rintro ⟨n, all⟩ source mine e he consumed
    exact (exists_handled_iff fit serves mine he consumed).mp ⟨n, all source mine e he consumed⟩
  · intro survive
    have each : ∀ source ∈ p.sourceCanonical.sources, ∃ n, ∀ e ∈
        (a.events source).filter p.consumes,
        (engine.after (a.stopped p fault clock stop) calls n).Handled p.name source e.eventId := by
      intro source mine
      refine exists_bound (fun e _ n m le now => ?_) fun e he => ?_
      · exact (handled m source _).mpr
          (whole.handled_mono ids mine le ((handled n source _).mp now))
      · obtain ⟨stored, consumed⟩ := List.mem_filter.mp he
        exact (exists_handled_iff fit serves mine stored consumed).mpr
          (survive source mine e stored consumed)
    obtain ⟨n, all⟩ := exists_bound (fun source mine n m le now e he =>
      (handled m source _).mpr (whole.handled_mono ids mine le
        ((handled n source _).mp (now e he)))) each
    exact ⟨n, fun source mine e he consumed =>
      all source mine e (List.mem_filter.mpr ⟨he, consumed⟩)⟩

theorem rebuild_recovers_calm :
    ∃ n, ∀ source ∈ auditProjection.sourceCanonical.sources, ∀ e ∈ (twoStarted none).events source,
      auditProjection.consumes e = true →
        (auditEngine.after ((twoStarted none).stopped auditProjection (fun _ _ => none) 0 3)
          everySecond
          n).Handled auditProjection.name source e.eventId := by
  refine (rebuild_recovers_iff (twoStarted_fit none) everySecond_serves (fun _ _ => none) 0 3).mpr
    fun source mine e he _ => Or.inl ⟨?_, rfl⟩
  have steps : ((twoStarted none).rebuildSteps auditProjection).take 3 =
      sourceSteps .business ((twoStarted none).events .business) := rfl
  rw [steps, List.mem_singleton.mp mine] at *
  exact List.mem_append_left _ (List.mem_map.mpr ⟨e, he, rfl⟩)

theorem jump_nil {v : View} (empty : v.queue = []) (now : Nat → Nat) (source : Source) (n : Nat) :
    v.jump now source n = none := by
  unfold View.jump View.dueAt
  rw [empty]
  rfl

/-- The first event fails in a rebuild that then handles the second one; and a rebuild of a
projection that had handled both stops right after the truncation. No later call handles the first
event. -/
theorem rebuild_loses :
    (¬∃ n, (auditEngine.after ((twoStarted none).stopped auditProjection
        (fun _ e => if e.eventId = "e1" then locked else none) 0 3) everySecond n).Handled
          auditProjection.name .business "e1") ∧
    ¬∃ n,
      (auditEngine.after ((twoStarted (some "e2")).stopped auditProjection (fun _ _ => none) 0 0)
        everySecond n).Handled auditProjection.name .business "e1" := by
  have none_ : ∀ cursor, ((twoStarted cursor).view auditProjection.name).queue = [] := fun _ => rfl
  constructor
  · refine (not_congr (exists_handled_iff (e := startedEvent "e1" "2026-01-01T00:00:00Z")
      (twoStarted_fit none)
      everySecond_serves List.mem_cons_self List.mem_cons_self (by decide))).mpr ?_
    rintro (⟨-, calm⟩ | ⟨r, hr, -⟩ | ⟨-, past⟩ | ⟨n, t, ht, -⟩)
    · cases calm
    · cases hr
    · exact absurd past (by decide)
    · rw [jump_nil (none_ none)] at ht
      cases ht
  · refine (not_congr (exists_handled_iff (e := startedEvent "e1" "2026-01-01T00:00:00Z")
      (twoStarted_fit (some "e2"))
      everySecond_serves List.mem_cons_self List.mem_cons_self (by decide))).mpr ?_
    rintro (⟨hr, -⟩ | ⟨r, hr, -⟩ | ⟨-, past⟩ | ⟨n, t, ht, -⟩)
    · cases hr
    · cases hr
    · exact absurd past (by decide)
    · rw [jump_nil (none_ (some "e2"))] at ht
      cases ht

end Survival

end Authority

end DreamStudio.Projections
