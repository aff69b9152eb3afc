import DreamStudio.Projections.Cycles

namespace DreamStudio.Projections

open Library

universe u

variable {σ : Type u}

namespace View

def known (v : View) (source : Source) (row : RetryRow) : Bool :=
  row.eventSource = source ∧ (v.findEvent source row.eventId).isSome

def lastRetried (v : View) (source : Source) (rows : List RetryRow) : Option String :=
  ((rows.filter (v.known source)).getLast?).map (·.eventId)

/-- The events have names of their own. -/
structure Whole (v : View) : Prop where
  unique : ∀ source, Table.Unique Event.key (v.events source)
  named : ∀ source, ∀ e ∈ v.events source, e.eventId ≠ ""

variable {v : View} {name : String} {source : Source}

theorem Whole.findEvent (whole : v.Whole) {e : Event} (he : e ∈ v.events source) :
    v.findEvent source e.eventId = some e := by
  cases found : v.findEvent source e.eventId with
  | none => exact absurd (List.find?_eq_none.mp found e he) (by simp)
  | some f =>
    have same : f.eventId = e.eventId := by simpa using List.find?_some found
    rw [Table.eq_of_key_eq (whole.unique source) (List.mem_of_find?_eq_some found) he
      (congrArg some same) nofun]

theorem Whole.timeOf (whole : v.Whole) {e : Event} (he : e ∈ v.events source) :
    v.timeOf source (some e.eventId) = e.eventTimestamp := by
  unfold View.timeOf
  simp only [whole.named source e he, if_false, whole.findEvent he]

theorem timeOf_congr {w : View} (events : w.events = v.events) (source : Source)
    (cursor : Option String) :
    w.timeOf source cursor = v.timeOf source cursor := by
  unfold timeOf findEvent
  rw [events]

section Retries

variable (name) in
theorem retried_of_known {row : RetryRow} (known : v.known source row = true) :
    ∃ e ∈ v.events source, e.eventId = row.eventId ∧
      v.retried name row = (v.dequeued row.id).succeeded name source e := by
  obtain ⟨rfl, stored⟩ := of_decide_eq_true known
  obtain ⟨e, found⟩ := Option.isSome_iff_exists.mp stored
  refine ⟨e, List.mem_of_find?_eq_some found, by simpa using List.find?_some found, ?_⟩
  unfold retried
  rw [found]

theorem succeeded_handled (s : Source) (e : Event) (eventId : String) :
    (v.succeeded name s e).Handled source eventId ↔
      v.Handled source eventId ∨ s = source ∧ e.eventId = eventId := by
  unfold Handled succeeded
  simp [or_comm]

theorem retried_handled (row : RetryRow) (eventId : String) :
    (v.retried name row).Handled source eventId ↔
      v.Handled source eventId ∨ v.known source row = true ∧ row.eventId = eventId := by
  cases found : v.findEvent row.eventSource row.eventId with
  | none =>
    have same : v.retried name row = v.dequeued row.id := by
      unfold retried
      rw [found]
    have unknown : ¬(v.known source row = true) := fun known => by
      obtain ⟨rfl, stored⟩ := of_decide_eq_true known
      rw [found] at stored
      cases stored
    rw [same, or_iff_left fun both => unknown both.1]
    rfl
  | some e =>
    have known : v.known row.eventSource row = true := decide_eq_true ⟨rfl, by rw [found]; rfl⟩
    obtain ⟨f, -, same, retried⟩ := retried_of_known name known
    rw [retried, succeeded_handled, same]
    refine or_congr Iff.rfl (and_congr_left fun _ => ?_)
    exact ⟨fun at_ => at_ ▸ known, fun known => (of_decide_eq_true known).1⟩

theorem retried_cursor (row : RetryRow) :
    (v.retried name row).cursor source =
      if v.known source row = true then some row.eventId else v.cursor source := by
  split
  next known =>
    obtain ⟨e, -, same, retried⟩ := retried_of_known name known
    rw [retried, ← same]
    exact Function.update_self ..
  next unknown =>
    unfold retried
    cases found : v.findEvent row.eventSource row.eventId with
    | none => rfl
    | some e =>
      have other : source ≠ row.eventSource := fun same =>
        unknown (decide_eq_true ⟨same.symm, by rw [same, found]; rfl⟩)
      exact Function.update_of_ne other ..

theorem known_congr {w : View} (events : w.events = v.events) : w.known = v.known := by
  funext source row
  unfold known findEvent
  rw [events]

theorem foldl_retried_handled (rows : List RetryRow) (eventId : String) :
    (rows.foldl (·.retried name ·) v).Handled source eventId ↔
      v.Handled source eventId ∨ ∃ row ∈ rows, v.known source row = true ∧
        row.eventId = eventId := by
  induction rows generalizing v with
  | nil => simp
  | cons row rows ih =>
    rw [List.foldl_cons, ih, retried_handled, known_congr (retried_events row)]
    simp [or_assoc]

theorem foldl_retried_cursor (rows : List RetryRow) :
    (rows.foldl (·.retried name ·) v).cursor source =
      (v.lastRetried source rows).or (v.cursor source) := by
  induction rows generalizing v with
  | nil => rfl
  | cons row rows ih =>
    unfold lastRetried at ih ⊢
    rw [List.foldl_cons, ih, retried_cursor, known_congr (retried_events row)]
    cases known : v.known source row with
    | false => simp [known]
    | true =>
      rw [List.filter_cons_of_pos known, List.getLast?_cons]
      cases (rows.filter (v.known source)).getLast? <;> rfl

end Retries

section Dispatch

variable {p : Projection σ}

theorem mem_newEvents {e : Event} : e ∈ v.newEvents p source ↔
    e ∈ v.events source ∧ v.timeOf source (v.cursor source) < e.eventTimestamp ∧
      p.consumes e = true := by
  simp [newEvents]

theorem foldl_succeeded_handled (s : Source) (events : List Event) (eventId : String) :
    (events.foldl (·.succeeded name s ·) v).Handled source eventId ↔
      v.Handled source eventId ∨ s = source ∧ ∃ e ∈ events, e.eventId = eventId := by
  induction events generalizing v with
  | nil => simp
  | cons e events ih =>
    rw [List.foldl_cons, ih, succeeded_handled, List.exists_mem_cons_iff, or_assoc, and_or_left]

theorem foldl_succeeded_cursor (s : Source) (events : List Event) :
    (events.foldl (·.succeeded name s ·) v).cursor source =
      if source = s then (events.getLast?.map (·.eventId)).or (v.cursor source) else
        v.cursor source := by
  induction events generalizing v with
  | nil => simp
  | cons e events ih =>
    rw [List.foldl_cons, ih, List.getLast?_cons]
    split
    next at_ =>
      subst at_
      cases events.getLast? with
      | none => exact Function.update_self ..
      | some f => rfl
    next other => exact Function.update_of_ne other ..

def Spent (v : View) (p : Projection σ) (source : Source) : Prop :=
  ∀ e ∈ v.events source, p.consumes e = true → e.eventTimestamp ≤ v.timeOf source (v.cursor source)

theorem dispatched_same (p : Projection σ) (s : Source) :
    (v.dispatched p s).events = v.events ∧ (v.dispatched p s).registered = v.registered ∧
      (v.dispatched p s).queue = v.queue := foldl_succeeded p.name s _

theorem dispatched_other {s : Source} (other : source ≠ s) (eventId : String) :
    (v.dispatched p s).cursor source = v.cursor source ∧
      ((v.dispatched p s).Handled source eventId ↔ v.Handled source eventId) := by
  unfold dispatched
  rw [foldl_succeeded_cursor, if_neg other, foldl_succeeded_handled]
  exact ⟨rfl, or_iff_left fun both => other both.1.symm⟩

theorem dispatched_handled (eventId : String) : (v.dispatched p source).Handled source eventId ↔
    v.Handled source eventId ∨ ∃ e ∈ v.events source, e.eventId = eventId ∧ p.consumes e = true ∧
      v.timeOf source (v.cursor source) < e.eventTimestamp := by
  unfold dispatched
  rw [foldl_succeeded_handled]
  simp only [true_and, mem_newEvents]
  refine or_congr Iff.rfl (exists_congr fun e => ?_)
  tauto

theorem Whole.dispatched_spent (whole : v.Whole) : (v.dispatched p source).Spent p source := by
  intro e he consumed
  obtain ⟨events, -, -⟩ := v.dispatched_same p source
  rw [events] at he
  have cursor : (v.dispatched p source).cursor source =
      ((v.newEvents p source).getLast?.map (·.eventId)).or (v.cursor source) := by
    unfold dispatched
    rw [foldl_succeeded_cursor, if_pos rfl]
  rw [timeOf_congr events, cursor]
  cases last : (v.newEvents p source).getLast? with
  | none =>
    have nothing : v.newEvents p source = [] := List.getLast?_eq_none_iff.mp last
    refine not_lt.mp fun past => ?_
    have new : e ∈ v.newEvents p source := mem_newEvents.mpr ⟨he, past, consumed⟩
    rw [nothing] at new
    cases new
  | some l =>
    have stored : l ∈ v.newEvents p source := List.mem_of_getLast? last
    obtain ⟨hl, past, -⟩ := mem_newEvents.mp stored
    change e.eventTimestamp ≤ v.timeOf source (some l.eventId)
    rw [whole.timeOf hl]
    by_cases new : e ∈ v.newEvents p source
    · have sorted : (v.newEvents p source).Pairwise fun e f => e.eventTimestamp ≤
          f.eventTimestamp :=
        List.pairwise_insertionSort _ _
      obtain ⟨front, split⟩ := List.getLast?_eq_some_iff.mp last
      rw [split] at new sorted
      rcases List.mem_append.mp new with before | here
      · exact (List.pairwise_append.mp sorted).2.2 e before l List.mem_cons_self
      · rw [List.mem_singleton.mp here]
    · have old := not_and.mp (mt mem_newEvents.mpr new) he
      exact (not_lt.mp fun past => old ⟨past, consumed⟩).trans past.le

theorem foldl_dispatched_other {sources : List Source} (other : source ∉ sources)
    (eventId : String) :
    (sources.foldl (·.dispatched p ·) v).cursor source = v.cursor source ∧
      ((sources.foldl (·.dispatched p ·) v).Handled source eventId ↔ v.Handled source eventId) := by
  induction sources generalizing v with
  | nil => exact ⟨rfl, Iff.rfl⟩
  | cons s sources ih =>
    obtain ⟨ne, rest⟩ := not_or.mp (mt List.mem_cons.mpr other)
    obtain ⟨cursor, handled⟩ := ih (v := v.dispatched p s) rest
    obtain ⟨cursor', handled'⟩ := v.dispatched_other (p := p) ne eventId
    exact ⟨cursor.trans cursor', handled.trans handled'⟩

theorem foldl_dispatched_same (sources : List Source) :
    (sources.foldl (·.dispatched p ·) v).events = v.events ∧
      (sources.foldl (·.dispatched p ·) v).registered = v.registered ∧
        (sources.foldl (·.dispatched p ·) v).queue = v.queue := by
  induction sources generalizing v with
  | nil => exact ⟨rfl, rfl, rfl⟩
  | cons s sources ih =>
    obtain ⟨events, registered, queue⟩ := ih (v := v.dispatched p s)
    obtain ⟨events', registered', queue'⟩ := v.dispatched_same p s
    exact ⟨events.trans events', registered.trans registered', queue.trans queue'⟩

theorem Whole.of_events {w : View} (whole : v.Whole) (events : w.events = v.events) : w.Whole where
  unique := events ▸ whole.unique
  named := events ▸ whole.named

theorem Whole.foldl_dispatched (whole : v.Whole) {sources : List Source} (once : sources.Nodup)
    (mine : source ∈ sources) :
    (sources.foldl (·.dispatched p ·) v).Spent p source ∧
      ∀ eventId, (sources.foldl (·.dispatched p ·) v).Handled source eventId ↔
        v.Handled source eventId ∨ ∃ e ∈ v.events source, e.eventId = eventId ∧
          p.consumes e = true ∧
          v.timeOf source (v.cursor source) < e.eventTimestamp := by
  induction sources generalizing v with
  | nil => cases mine
  | cons s sources ih =>
    obtain ⟨first, once⟩ := List.nodup_cons.mp once
    obtain ⟨events, -, -⟩ := v.dispatched_same p s
    by_cases at_ : source = s
    · subst at_
      have kept := fun eventId => (v.dispatched p source).foldl_dispatched_other
        (p := p) first eventId
      refine ⟨fun e he consumed => ?_, fun eventId =>
        (kept eventId).2.trans (dispatched_handled eventId)⟩
      obtain ⟨same, -, -⟩ := (v.dispatched p source).foldl_dispatched_same (p := p) sources
      rw [List.foldl_cons] at he ⊢
      rw [same] at he
      rw [timeOf_congr same, (kept "").1]
      exact whole.dispatched_spent e he consumed
    · obtain ⟨spent, handled⟩ := ih (whole.of_events events) once (List.mem_of_ne_of_mem at_ mine)
      refine ⟨spent, fun eventId => (handled eventId).trans ?_⟩
      obtain ⟨cursor, same⟩ := v.dispatched_other (p := p) at_ eventId
      rw [same, events, timeOf_congr events, cursor]

end Dispatch

section Pass

variable {p : Projection σ}

theorem sources_nodup (c : CanonicalSource) : c.sources.Nodup := by
  cases c <;> decide

theorem pass_same (ids : Table.Unique RetryRow.idKey v.queue) (p : Projection σ) (now : Nat) :
    (v.pass p now).events = v.events ∧ (v.pass p now).registered = v.registered ∧
      (v.pass p now).queue = v.queue.filter (now < ·.nextRetryAt) := by
  obtain ⟨events, registered, queue⟩ := v.foldl_retried p.name (v.dueRetries now)
  obtain ⟨events', registered', queue'⟩ :=
    ((v.dueRetries now).foldl (·.retried p.name ·) v).foldl_dispatched_same (p := p)
      p.sourceCanonical.sources
  refine ⟨events'.trans events, registered'.trans registered, (queue'.trans queue).trans ?_⟩
  refine List.filter_congr fun r hr => ?_
  rw [Bool.eq_iff_iff, decide_eq_true_iff, decide_eq_true_iff, ← not_le, not_iff_not, List.mem_map]
  simp only [dueRetries, List.mem_insertionSort, List.mem_filter, decide_eq_true_eq]
  constructor
  · rintro ⟨r', ⟨hr', due⟩, same⟩
    rwa [← Table.eq_of_key_eq ids hr' hr (congrArg some same) nofun]
  · exact fun due => ⟨r, ⟨hr, due⟩, rfl⟩

/-- The moment from which a call reads the source. -/
def start (v : View) (now : Nat) (source : Source) : String :=
  v.timeOf source ((v.lastRetried source (v.dueRetries now)).or (v.cursor source))

theorem Whole.pass (whole : v.Whole) (now : Nat) (mine : source ∈ p.sourceCanonical.sources) :
    (v.pass p now).Spent p source ∧ ∀ eventId, (v.pass p now).Handled source eventId ↔
      (v.Handled source eventId ∨ ∃ r ∈ v.dueRetries now, v.known source r = true ∧
        r.eventId = eventId) ∨
        ∃ e ∈ v.events source, e.eventId = eventId ∧ p.consumes e = true ∧
          v.start now source < e.eventTimestamp := by
  obtain ⟨events, -, -⟩ := v.foldl_retried p.name (v.dueRetries now)
  obtain ⟨spent, handled⟩ :=
    (whole.of_events events).foldl_dispatched (p := p) (sources_nodup _) mine
  refine ⟨spent, fun eventId => (handled eventId).trans ?_⟩
  rw [foldl_retried_handled, events, timeOf_congr events, foldl_retried_cursor]
  rfl

end Pass

section Run

variable {p : Projection σ} {now : Nat → Nat}

def afterPasses (v : View) (p : Projection σ) (now : Nat → Nat) : Nat → View
  | 0 => v
  | n + 1 => (v.afterPasses p now n).pass p (now n)

def dueAt (v : View) (now : Nat → Nat) (n : Nat) : List RetryRow :=
  (v.queue.filter fun r => (∀ j < n, now j < r.nextRetryAt) ∧ r.nextRetryAt ≤ now n).insertionSort
    fun r s => r.nextRetryAt ≤ s.nextRetryAt

def jump (v : View) (now : Nat → Nat) (source : Source) (n : Nat) : Option String :=
  (v.lastRetried source (v.dueAt now n)).map fun eventId => v.timeOf source (some eventId)

theorem afterPasses_same (ids : Table.Unique RetryRow.idKey v.queue) (p : Projection σ)
    (now : Nat → Nat) (n : Nat) :
    (v.afterPasses p now n).events = v.events ∧ (v.afterPasses p now n).registered = v.registered ∧
      (v.afterPasses p now n).queue = v.queue.filter (fun r => ∀ j < n, now j < r.nextRetryAt) := by
  induction n with
  | zero => exact ⟨rfl, rfl, (List.filter_eq_self.mpr fun _ _ => by simp).symm⟩
  | succ n ih =>
    obtain ⟨events, registered, queue⟩ := ih
    have ids' : Table.Unique RetryRow.idKey (v.afterPasses p now n).queue :=
      queue ▸ Table.filter_unique ids _
    obtain ⟨events', registered', queue'⟩ := pass_same ids' p (now n)
    refine ⟨events'.trans events, registered'.trans registered, queue'.trans ?_⟩
    rw [queue, List.filter_filter]
    refine List.filter_congr fun r _ => ?_
    rw [← Bool.decide_and, decide_eq_decide, Nat.forall_lt_succ_right, and_comm]

theorem dueRetries_afterPasses (ids : Table.Unique RetryRow.idKey v.queue) (p : Projection σ)
    (now : Nat → Nat) (n : Nat) : (v.afterPasses p now n).dueRetries (now n) = v.dueAt now n := by
  unfold dueRetries dueAt
  rw [(afterPasses_same ids p now n).2.2, List.filter_filter]
  congr 1
  refine List.filter_congr fun r _ => ?_
  simp [and_comm]

theorem exists_dueAt {r : RetryRow} (hr : r ∈ v.queue) (due : ∃ n, r.nextRetryAt ≤ now n) :
    ∃ n, r ∈ v.dueAt now n := by
  refine ⟨Nat.find due, ?_⟩
  simp only [dueAt, List.mem_insertionSort, List.mem_filter, decide_eq_true_eq]
  exact ⟨hr, fun j hj => not_le.mp (Nat.find_min due hj), Nat.find_spec due⟩

/-- An event comes to be handled: it was, or it is queued, or a call reads from before it. -/
def Recovers (v : View) (now : Nat → Nat) (source : Source) (e : Event) : Prop :=
  v.Handled source e.eventId ∨
    (∃ r ∈ v.queue, r.eventSource = source ∧ r.eventId = e.eventId) ∨
    v.jump now source 0 = none ∧ v.timeOf source (v.cursor source) < e.eventTimestamp ∨
    ∃ n, ∃ t ∈ v.jump now source n, t < e.eventTimestamp

variable (now) in
theorem Whole.afterPasses_handled (whole : v.Whole) (ids : Table.Unique RetryRow.idKey v.queue)
    (mine : source ∈ p.sourceCanonical.sources) {e : Event} (he : e ∈ v.events source)
    (consumed : p.consumes e = true) (n : Nat) :
    (v.afterPasses p now (n + 1)).Handled source e.eventId ↔
      ((v.afterPasses p now n).Handled source e.eventId ∨
        ∃ r ∈ v.dueAt now n, v.known source r = true ∧ r.eventId = e.eventId) ∨
      (v.afterPasses p now n).start (now n) source < e.eventTimestamp := by
  obtain ⟨events, -, -⟩ := afterPasses_same ids p now n
  have handled := ((whole.of_events events).pass (now n) mine).2 e.eventId
  rw [dueRetries_afterPasses ids, known_congr events, events] at handled
  refine handled.trans (or_congr Iff.rfl ⟨?_, fun past => ⟨e, he, rfl, consumed, past⟩⟩)
  rintro ⟨f, hf, same, -, past⟩
  rwa [← Table.eq_of_key_eq (whole.unique source) hf he (congrArg some same) nofun]

variable (now) in
theorem Whole.start_lt_iff (whole : v.Whole) (ids : Table.Unique RetryRow.idKey v.queue)
    (mine : source ∈ p.sourceCanonical.sources) {e : Event} (he : e ∈ v.events source)
    (consumed : p.consumes e = true) (n : Nat) :
    (v.afterPasses p now n).start (now n) source < e.eventTimestamp ↔
      (n = 0 ∧ v.jump now source 0 = none ∧ v.timeOf source (v.cursor source) < e.eventTimestamp) ∨
        ∃ t ∈ v.jump now source n, t < e.eventTimestamp := by
  obtain ⟨events, -, -⟩ := afterPasses_same ids p now n
  have last :
      (v.afterPasses p now n).lastRetried source ((v.afterPasses p now n).dueRetries (now n)) =
      v.lastRetried source (v.dueAt now n) := by
    unfold lastRetried
    rw [dueRetries_afterPasses ids, known_congr events]
  unfold start
  rw [last, timeOf_congr events]
  unfold jump
  cases retried : v.lastRetried source (v.dueAt now n) with
  | some eventId =>
    refine ⟨fun past => Or.inr ⟨_, rfl, past⟩, ?_⟩
    rintro (⟨rfl, none_, -⟩ | ⟨t, ht, past⟩)
    · rw [retried] at none_
      cases none_
    · cases ht
      exact past
  | none =>
    simp only [Option.none_or, Option.map_none, Option.not_mem_none, false_and,
      exists_false, or_false]
    cases n with
    | zero =>
      rw [retried]
      exact ⟨fun past => ⟨rfl, rfl, past⟩, fun past => past.2.2⟩
    | succ n =>
      refine iff_of_false (not_lt.mpr ?_) nofun
      obtain ⟨before, -, -⟩ := afterPasses_same ids p now n
      have spent : (v.afterPasses p now (n + 1)).Spent p source :=
        ((whole.of_events before).pass (now n) mine).1
      have spent := spent e (events ▸ he) consumed
      rwa [timeOf_congr events] at spent

theorem Whole.exists_handled_iff (whole : v.Whole) (ids : Table.Unique RetryRow.idKey v.queue)
    (mine : source ∈ p.sourceCanonical.sources) (grows : ∀ t, ∃ n, t ≤ now n) {e : Event}
    (he : e ∈ v.events source) (consumed : p.consumes e = true) :
    (∃ n, (v.afterPasses p now n).Handled source e.eventId) ↔ v.Recovers now source e := by
  have step := whole.afterPasses_handled now ids mine he consumed
  have reads := whole.start_lt_iff now ids mine he consumed
  constructor
  · rintro ⟨n, handled⟩
    induction n with
    | zero => exact Or.inl handled
    | succ n ih =>
      rcases (step n).mp handled with (before | ⟨r, hr, known, same⟩) | past
      · exact ih before
      · simp only [dueAt, List.mem_insertionSort, List.mem_filter] at hr
        exact Or.inr (Or.inl ⟨r, hr.1, (of_decide_eq_true known).1, same⟩)
      · rcases (reads n).mp past with ⟨-, first⟩ | later
        · exact Or.inr (Or.inr (Or.inl first))
        · exact Or.inr (Or.inr (Or.inr ⟨n, later⟩))
  · rintro (handled | ⟨r, hr, from_, same⟩ | first | ⟨n, later⟩)
    · exact ⟨0, handled⟩
    · obtain ⟨n, due⟩ := exists_dueAt hr (grows r.nextRetryAt)
      have known : v.known source r = true :=
        decide_eq_true ⟨from_, by rw [same, whole.findEvent he]; rfl⟩
      exact ⟨n + 1, (step n).mpr (Or.inl (Or.inr ⟨r, due, known, same⟩))⟩
    · exact ⟨1, (step 0).mpr (Or.inr ((reads 0).mpr (Or.inl ⟨rfl, first⟩)))⟩
    · exact ⟨n + 1, (step n).mpr (Or.inr ((reads n).mpr (Or.inr later)))⟩

theorem Whole.handled_mono (whole : v.Whole) (ids : Table.Unique RetryRow.idKey v.queue)
    (mine : source ∈ p.sourceCanonical.sources) {eventId : String} {n m : Nat} (le : n ≤ m)
    (handled : (v.afterPasses p now n).Handled source eventId) :
    (v.afterPasses p now m).Handled source eventId := by
  induction m, le using Nat.le_induction with
  | base => exact handled
  | succ m _ ih =>
    obtain ⟨events, -, -⟩ := afterPasses_same ids p now m
    exact (((whole.of_events events).pass (now m) mine).2 eventId).mpr (Or.inl (Or.inl ih))

end Run

end View

end DreamStudio.Projections
