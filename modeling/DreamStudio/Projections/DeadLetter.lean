import DreamStudio.Projections.Queue
import DreamStudio.Projections.WellFormed

namespace DreamStudio.Projections

open Library

universe u

variable {σ : Type u}

/-- `ds projection dead-letter retry` and `resolve`. -/
inductive OperatorAction
  | retry (eventId : String) (now : Nat)
  | resolve (eventId : String)

def OperatorAction.eventId : OperatorAction → String
  | .retry eventId _ => eventId
  | .resolve eventId => eventId

namespace Authority

def setStatus (a : Authority σ) (p : DeadLetterRow → Bool) (status : DeadLetterStatus) :
    Authority σ :=
  { a with deadLetter := Table.update p (fun d => { d with status := status }) a.deadLetter }

/-- `_cmd_dl_retry` and `_cmd_dl_resolve`. -/
def operate (a : Authority σ) : OperatorAction → Authority σ
  | .retry eventId now =>
    match Table.newest (·.id) (a.deadLetter.filter (·.eventId = eventId)) with
    | none => a
    | some d =>
      (a.setStatus (·.id = d.id) .active).insertRetry d.projectionName d.eventSource d.eventId now
        d.retryCount
  | .resolve eventId => a.setStatus (·.eventId = eventId) .resolved

/-- The calls of `handle()` on one event, of either table. -/
def attemptsOf (a : Authority σ) (name eventId : String) : List Attempt :=
  a.attempts.filter fun t => t.projectionName = name ∧ t.event.eventId = eventId

def KeepsFailing (a : Authority σ) (name eventId : String) : Prop :=
  ∀ t ∈ a.attemptsOf name eventId, t.ok = false

def isDead (a : Authority σ) (name eventId : String) : Bool :=
  a.deadLetter.any (isActive name eventId)

/-- What an authority says about one event of one projection. -/
structure Agrees (a b : Authority σ) (name eventId : String) : Prop where
  rows : b.retriesOf name eventId = a.retriesOf name eventId
  dead : b.isDead name eventId = a.isDead name eventId
  attempts : b.attemptsOf name eventId = a.attemptsOf name eventId

/-- The event is queued at most once, and not at all when it is dead; the count in its row is
never behind the number of failed calls. -/
structure Bounded (a : Authority σ) (p : Projection σ) (eventId : String) : Prop where
  single : (a.retriesOf p.name eventId).length ≤ 1
  gone : a.isDead p.name eventId = true → a.retriesOf p.name eventId = []
  stored : ∀ r ∈ a.retriesOf p.name eventId, ∃ e ∈ a.events r.eventSource, e.eventId = eventId
  capped : a.currentRetries p.name eventId ≤ p.retryPolicy.maxRetries
  counted : a.KeepsFailing p.name eventId →
    (a.attemptsOf p.name eventId).length ≤
      if a.isDead p.name eventId then p.retryPolicy.maxRetries + 1
      else a.currentRetries p.name eventId

theorem Bounded.of_agrees {a b : Authority σ} {p : Projection σ} {eventId : String}
    (h : a.Bounded p eventId) (same : a.Agrees b p.name eventId)
    (grows : ∀ s, a.events s ⊆ b.events s) : b.Bounded p eventId := by
  have retries : b.currentRetries p.name eventId = a.currentRetries p.name eventId := by
    simp only [currentRetries, same.rows]
  exact {
    single := by rw [same.rows]; exact h.single
    gone := by rw [same.rows, same.dead]; exact h.gone
    stored := by
      rw [same.rows]
      intro r hr
      obtain ⟨e, he, hid⟩ := h.stored r hr
      exact ⟨e, grows _ he, hid⟩
    capped := by rw [retries]; exact h.capped
    counted := by
      rw [KeepsFailing, same.attempts, same.dead, retries]
      exact h.counted }

theorem Bounded.calls_le {a : Authority σ} {p : Projection σ} {eventId : String}
    (h : a.Bounded p eventId) (failing : a.KeepsFailing p.name eventId) :
    (a.attemptsOf p.name eventId).length ≤ p.retryPolicy.maxRetries + 1 := by
  have counted := h.counted failing
  have capped := h.capped
  split at counted <;> omega

theorem insertRetry_retriesOf_of_ne {a : Authority σ} {name eventId name' eventId' : String}
    (other : ¬ (eventId' = eventId ∧ name' = name)) (source : Source) (nextAt count : Nat) :
    (a.insertRetry name' source eventId' nextAt count).retriesOf name eventId =
      a.retriesOf name eventId := by
  simp [retriesOf, List.filter_append, other]

theorem insertRetry_retriesOf (a : Authority σ) (name : String) (source : Source)
    (eventId : String) (nextAt count : Nat) :
    (a.insertRetry name source eventId nextAt count).retriesOf name eventId =
      a.retriesOf name eventId ++
        [⟨a.retryQueueSeq + 1, eventId, source, name, nextAt, count⟩] := by
  simp [retriesOf]

theorem deleteRetriesOf_retriesOf_of_ne {a : Authority σ} {name eventId name' eventId' : String}
    (other : ¬ (eventId' = eventId ∧ name' = name)) :
    (a.deleteRetriesOf name' eventId').retriesOf name eventId = a.retriesOf name eventId := by
  simp only [retriesOf, deleteRetriesOf_retryQueue, List.filter_filter]
  refine List.filter_congr fun r _ => ?_
  by_cases hr : r.eventId = eventId ∧ r.projectionName = name
  · have kept : ¬ (r.eventId = eventId' ∧ r.projectionName = name') :=
      fun h => other ⟨h.1.symm.trans hr.1, h.2.symm.trans hr.2⟩
    simp [kept]
  · simp [hr]

theorem deleteRetriesOf_retriesOf (a : Authority σ) (name eventId : String) :
    (a.deleteRetriesOf name eventId).retriesOf name eventId = [] := by
  simp only [retriesOf, deleteRetriesOf_retryQueue, List.filter_filter, List.filter_eq_nil_iff]
  simp

theorem deleteRetry_retriesOf (a : Authority σ) (id : Nat) (name eventId : String) :
    (a.deleteRetry id).retriesOf name eventId =
      (a.retriesOf name eventId).filter (·.id ≠ id) := by
  simp only [retriesOf, deleteRetry_retryQueue, List.filter_filter, Bool.and_comm]

theorem updateRetry_retriesOf (a : Authority σ) (id count nextAt : Nat) (name eventId : String) :
    (a.updateRetry id count nextAt).retriesOf name eventId =
      Table.update (·.id = id) (fun r => { r with retryCount := count, nextRetryAt := nextAt })
        (a.retriesOf name eventId) := by
  apply Table.filter_update
  intro r
  rfl

theorem ne_of_mem_retriesOf {a : Authority σ} (ids : Table.Unique RetryRow.idKey a.retryQueue)
    {row r : RetryRow} {name eventId : String} (hrow : row ∈ a.retryQueue)
    (other : ¬ (row.eventId = eventId ∧ row.projectionName = name))
    (hr : r ∈ a.retriesOf name eventId) : r.id ≠ row.id := by
  intro same
  obtain ⟨stored, hid, hname⟩ := mem_retriesOf.mp hr
  have : r = row :=
    Table.eq_of_key_eq ids stored hrow (congrArg some same) (by simp [RetryRow.idKey])
  exact other ⟨this ▸ hid, this ▸ hname⟩

theorem addDeadLetter_isDead (a : Authority σ) (name : String) (source : Source)
    (eventId : String) (failure : Failure) (retryCount now : Nat) :
    (a.addDeadLetter name source eventId failure retryCount now).isDead name eventId = true := by
  unfold addDeadLetter isDead
  split
  next active =>
    rw [Table.any_update]
    · exact active
    · intro d _ _
      rfl
  next => simp [isActive]

theorem addDeadLetter_isDead_of_ne {a : Authority σ} {name eventId name' eventId' : String}
    (other : ¬ (eventId' = eventId ∧ name' = name)) (source : Source) (failure : Failure)
    (retryCount now : Nat) :
    (a.addDeadLetter name' source eventId' failure retryCount now).isDead name eventId =
      a.isDead name eventId := by
  unfold addDeadLetter isDead
  split
  next =>
    apply Table.any_update
    intro d _ _
    rfl
  next =>
    have silent : isActive name eventId
        { id := a.deadLetterSeq + 1, eventId := eventId', eventSource := source,
          projectionName := name', errorMessage := failure.message,
          errorTraceback := failure.traceback, failedAt := now, retryCount := retryCount,
          lastRetryAt := now, status := .active } = false := by
      simpa [isActive] using other
    simp [silent]

@[simp] theorem recordAttempt_attemptsOf (a : Authority σ) (name : String) (source : Source)
    (e : Event) (ok : Bool) :
    (a.recordAttempt name source e ok).attemptsOf name e.eventId =
      { projectionName := name, source := source, event := e, ok := ok } ::
        a.attemptsOf name e.eventId := by
  simp [attemptsOf]

theorem recordAttempt_attemptsOf_of_ne {a : Authority σ} {name eventId name' : String} {e : Event}
    (other : ¬ (e.eventId = eventId ∧ name' = name)) (source : Source) (ok : Bool) :
    (a.recordAttempt name' source e ok).attemptsOf name eventId = a.attemptsOf name eventId := by
  have other' : ¬ (name' = name ∧ e.eventId = eventId) := fun h => other h.symm
  simp [attemptsOf, other']

theorem retryRow_agrees {a : Authority σ} {q : Projection σ} {row : RetryRow}
    {name eventId : String} (ids : Table.Unique RetryRow.idKey a.retryQueue)
    (hrow : row ∈ a.retryQueue) (named : row.projectionName = q.name)
    (other : ¬ (row.eventId = eventId ∧ q.name = name)) (fault : Option Failure) (now : Nat) :
    a.Agrees (a.retryRow q row fault now) name eventId := by
  have apart : ∀ r ∈ a.retriesOf name eventId, r.id ≠ row.id := fun r hr =>
    ne_of_mem_retriesOf ids hrow (named ▸ other) hr
  have deleted : (a.deleteRetry row.id).retriesOf name eventId = a.retriesOf name eventId := by
    rw [deleteRetry_retriesOf, List.filter_eq_self]
    simpa using apart
  have updated : ∀ count nextAt,
      (a.updateRetry row.id count nextAt).retriesOf name eventId = a.retriesOf name eventId := by
    intro count nextAt
    rw [updateRetry_retriesOf, Table.update_eq_self]
    simpa using apart
  unfold retryRow
  split
  next => exact ⟨deleted, rfl, rfl⟩
  next e found =>
    have hid : e.eventId = row.eventId := by simpa using List.find?_some found
    have logged : ∀ ok, (a.recordAttempt q.name row.eventSource e ok).attemptsOf name eventId =
        a.attemptsOf name eventId :=
      recordAttempt_attemptsOf_of_ne (hid ▸ other) row.eventSource
    split
    next => exact ⟨deleted, rfl, logged true⟩
    next failure _ =>
      unfold retryFailed
      simp only
      split
      next =>
        refine ⟨?_, addDeadLetter_isDead_of_ne other .., ?_⟩
        · rw [← deleted]
          simp [retriesOf]
        · rw [← logged false]
          simp [attemptsOf]
      next => exact ⟨updated .., rfl, logged false⟩

theorem dispatchRow_agrees {a : Authority σ} {q : Projection σ} {e : Event} {name eventId : String}
    (other : ¬ (e.eventId = eventId ∧ q.name = name)) (source : Source) (fault : Option Failure)
    (now : Nat) : a.Agrees (a.dispatchRow q source e fault now) name eventId := by
  have logged : ∀ ok, (a.recordAttempt q.name source e ok).attemptsOf name eventId =
      a.attemptsOf name eventId := recordAttempt_attemptsOf_of_ne other source
  unfold dispatchRow
  split
  next => exact ⟨rfl, rfl, logged true⟩
  next failure _ =>
    unfold dispatchFailed scheduleRetry
    simp only
    split
    next =>
      refine ⟨?_, addDeadLetter_isDead_of_ne other .., ?_⟩
      · rw [← deleteRetriesOf_retriesOf_of_ne (a := a) other]
        simp [retriesOf, updateStateMetrics]
      · rw [← logged false]
        simp [attemptsOf, updateStateMetrics]
    next => exact ⟨insertRetry_retriesOf_of_ne other .., rfl, logged false⟩

theorem setStatus_isDead {a : Authority σ} {p : DeadLetterRow → Bool} {eventId : String}
    (other : ∀ d ∈ a.deadLetter, p d = true → d.eventId ≠ eventId) (status : DeadLetterStatus)
    (name : String) : (a.setStatus p status).isDead name eventId = a.isDead name eventId := by
  apply Table.any_update
  intro d hd hp
  simp [isActive, other d hd hp]

theorem operate_agrees {a : Authority σ} (ids : a.DeadIds) (op : OperatorAction) {eventId : String}
    (other : op.eventId ≠ eventId) (name : String) : a.Agrees (a.operate op) name eventId := by
  cases op with
  | resolve id =>
    refine ⟨rfl, setStatus_isDead ?_ .resolved name, rfl⟩
    intro d _ hd
    rw [of_decide_eq_true hd]
    exact other
  | retry id now =>
    unfold operate
    simp only
    split
    next => exact ⟨rfl, rfl, rfl⟩
    next d newest =>
      obtain ⟨stored, hid⟩ := List.mem_filter.mp (Table.mem_of_newest newest)
      have apart : d.eventId ≠ eventId := by
        rw [of_decide_eq_true hid]
        exact other
      refine ⟨insertRetry_retriesOf_of_ne (fun h => apart h.1) .., ?_, rfl⟩
      apply setStatus_isDead (a := a)
      intro d' hd' same
      have : d' = d := Table.eq_of_key_eq ids.1 hd' stored
        (congrArg some (of_decide_eq_true same)) (by simp [DeadLetterRow.idKey])
      exact this ▸ apart

theorem currentRetries_of_nil {a : Authority σ} {name eventId : String}
    (h : a.retriesOf name eventId = []) : a.currentRetries name eventId = 0 := by
  simp [currentRetries, h]

theorem currentRetries_of_singleton {a : Authority σ} {name eventId : String} {row : RetryRow}
    (h : a.retriesOf name eventId = [row]) : a.currentRetries name eventId = row.retryCount := by
  simp [currentRetries, h]

theorem Bounded.rows_eq {a : Authority σ} {p : Projection σ} {eventId : String} {row : RetryRow}
    (h : a.Bounded p eventId) (hrow : row ∈ a.retriesOf p.name eventId) :
    a.retriesOf p.name eventId = [row] := by
  have single := h.single
  cases rows : a.retriesOf p.name eventId with
  | nil => simp [rows] at hrow
  | cons r rest =>
    rw [rows, List.length_cons] at single
    have : rest = [] := List.length_eq_zero_iff.mp (by omega)
    subst this
    rw [rows] at hrow
    rw [List.mem_singleton.mp hrow]

theorem Bounded.handled {b : Authority σ} {p : Projection σ} {eventId : String} {t : Attempt}
    (ht : t ∈ b.attemptsOf p.name eventId) (ok : t.ok = true)
    (single : (b.retriesOf p.name eventId).length ≤ 1)
    (gone : b.isDead p.name eventId = true → b.retriesOf p.name eventId = [])
    (stored : ∀ r ∈ b.retriesOf p.name eventId, ∃ e ∈ b.events r.eventSource, e.eventId = eventId)
    (capped : b.currentRetries p.name eventId ≤ p.retryPolicy.maxRetries) :
    b.Bounded p eventId where
  single := single
  gone := gone
  stored := stored
  capped := capped
  counted := fun failing => by simp [failing t ht] at ok

theorem Bounded.dead {b : Authority σ} {p : Projection σ} {eventId : String}
    (dead : b.isDead p.name eventId = true) (rows : b.retriesOf p.name eventId = [])
    (counted : b.KeepsFailing p.name eventId →
      (b.attemptsOf p.name eventId).length ≤ p.retryPolicy.maxRetries + 1) :
    b.Bounded p eventId where
  single := by simp [rows]
  gone := fun _ => rows
  stored := by simp [rows]
  capped := by simp [currentRetries_of_nil rows]
  counted := fun failing => by
    rw [dead]
    exact counted failing

theorem Bounded.waiting {b : Authority σ} {p : Projection σ} {eventId : String} {r : RetryRow}
    (alive : b.isDead p.name eventId = false) (rows : b.retriesOf p.name eventId = [r])
    (stored : ∃ e ∈ b.events r.eventSource, e.eventId = eventId)
    (capped : r.retryCount ≤ p.retryPolicy.maxRetries)
    (counted : b.KeepsFailing p.name eventId →
      (b.attemptsOf p.name eventId).length ≤ r.retryCount) : b.Bounded p eventId where
  single := by simp [rows]
  gone := by simp [alive]
  stored := by simpa [rows] using stored
  capped := by rw [currentRetries_of_singleton rows]; exact capped
  counted := fun failing => by
    rw [alive, currentRetries_of_singleton rows]
    exact counted failing

theorem counted_of_recordAttempt {a b : Authority σ} {name : String} {e : Event} {n : Nat}
    (source : Source) (logged : b.attempts = (a.recordAttempt name source e false).attempts)
    (counted : a.KeepsFailing name e.eventId → (a.attemptsOf name e.eventId).length ≤ n) :
    b.KeepsFailing name e.eventId → (b.attemptsOf name e.eventId).length ≤ n + 1 := by
  have calls : b.attemptsOf name e.eventId = _ :=
    (congrArg _ logged).trans (a.recordAttempt_attemptsOf name source e false)
  intro failing
  rw [KeepsFailing, calls] at failing
  rw [calls, List.length_cons]
  exact Nat.succ_le_succ (counted fun t ht => failing t (List.mem_cons_of_mem _ ht))

theorem retryRow_bounded {a : Authority σ} {p : Projection σ} {row : RetryRow} {eventId : String}
    (h : a.Bounded p eventId) (events : ∀ s, Table.Unique Event.key (a.events s))
    (hrow : row ∈ a.retriesOf p.name eventId) (fault : Option Failure) (now : Nat) :
    (a.retryRow p row fault now).Bounded p eventId := by
  have rows : a.retriesOf p.name eventId = [row] := h.rows_eq hrow
  have alive : a.isDead p.name eventId = false := by
    cases dead : a.isDead p.name eventId with
    | false => rfl
    | true => simp [h.gone dead] at rows
  have capped := h.capped
  have counted := h.counted
  rw [alive, currentRetries_of_singleton rows] at counted
  rw [currentRetries_of_singleton rows] at capped
  obtain ⟨e, stored, rfl⟩ := h.stored row hrow
  have hid : row.eventId = e.eventId := (mem_retriesOf.mp hrow).2.1
  have found : a.findEvent row.eventSource row.eventId = some e := by
    rw [hid]
    exact findEvent_eq_some (events _) stored
  have deleted : (a.deleteRetry row.id).retriesOf p.name e.eventId = [] := by
    rw [deleteRetry_retriesOf, rows]
    simp
  unfold retryRow
  rw [found]
  simp only
  split
  next =>
    apply Bounded.handled (t := ⟨p.name, row.eventSource, e, true⟩)
    · exact List.mem_filter.mpr ⟨List.mem_cons_self, by simp⟩
    · rfl
    · exact deleted ▸ Nat.zero_le _
    · exact fun _ => deleted
    · intro r hr
      exact absurd (deleted ▸ hr) List.not_mem_nil
    · exact (currentRetries_of_nil deleted) ▸ Nat.zero_le _
  next failure _ =>
    unfold retryFailed
    simp only
    split
    next exhausted =>
      apply Bounded.dead
      · rw [hid]
        exact addDeadLetter_isDead ..
      · rw [← deleted]
        simp [retriesOf]
      · intro failing
        have := counted_of_recordAttempt row.eventSource (by simp) counted failing
        simp at this
        omega
    next spare =>
      apply Bounded.waiting (r := { row with
        retryCount := row.retryCount + 1
        nextRetryAt := p.retryPolicy.nextRetryAt now (row.retryCount + 1) })
      · exact alive
      · refine (updateRetry_retriesOf ..).trans ?_
        rw [show (a.recordAttempt p.name row.eventSource e false).retriesOf _ _ = _ from rows]
        simp [Table.update]
      · exact ⟨e, stored, rfl⟩
      · simp only
        omega
      · exact counted_of_recordAttempt row.eventSource rfl counted

theorem dispatchRow_bounded {a : Authority σ} {p : Projection σ} {e : Event} {source : Source}
    (h : a.Bounded p e.eventId) (stored : e ∈ a.events source)
    (alive : a.isDead p.name e.eventId = false) (fault : Option Failure) (now : Nat)
    (first : a.requeues p e fault now = false) :
    (a.dispatchRow p source e fault now).Bounded p e.eventId := by
  have counted := h.counted
  rw [alive] at counted
  unfold dispatchRow
  split
  next =>
    exact Bounded.handled (t := ⟨p.name, source, e, true⟩)
      (List.mem_filter.mpr ⟨List.mem_cons_self, by simp⟩) rfl h.single h.gone h.stored h.capped
  next failure fails =>
    have count : (a.recordAttempt p.name source e false).currentRetries p.name e.eventId =
        a.currentRetries p.name e.eventId := rfl
    unfold dispatchFailed scheduleRetry
    simp only [count]
    split
    next exhausted =>
      apply Bounded.dead
      · exact addDeadLetter_isDead ..
      · rw [← deleteRetriesOf_retriesOf a p.name e.eventId]
        simp [retriesOf, updateStateMetrics]
      · intro failing
        have := counted_of_recordAttempt source (by simp [updateStateMetrics]) counted failing
        have := h.capped
        simp at *
        omega
    next spare =>
      have none_queued : a.retriesOf p.name e.eventId = [] := by
        have spare' : a.currentRetries p.name e.eventId < p.retryPolicy.maxRetries := by omega
        simpa [requeues, fails, Except.isOk, Except.toBool, spare'] using first
      rw [currentRetries_of_nil none_queued] at counted spare ⊢
      apply Bounded.waiting (r := ⟨a.retryQueueSeq + 1, e.eventId, source, p.name,
        p.retryPolicy.nextRetryAt now 0, 0 + 1⟩)
      · exact alive
      · refine (insertRetry_retriesOf ..).trans ?_
        rw [show (a.recordAttempt p.name source e false).retriesOf _ _ = _ from none_queued]
        rfl
      · exact ⟨e, stored, rfl⟩
      · simp only
        omega
      · exact counted_of_recordAttempt source rfl counted

end Authority

namespace Authority

@[simp] theorem operate_events (a : Authority σ) (op : OperatorAction) (s : Source) :
    (a.operate op).events s = a.events s := by
  unfold operate
  split
  · split <;> rfl
  · rfl

theorem operate_retryQueue (a : Authority σ) (op : OperatorAction) :
    ((a.operate op).retryQueue = a.retryQueue ∧ (a.operate op).retryQueueSeq = a.retryQueueSeq) ∨
      ∃ name source eventId nextAt count,
        (a.operate op).retryQueue =
            (a.insertRetry name source eventId nextAt count).retryQueue ∧
          (a.operate op).retryQueueSeq = a.retryQueueSeq + 1 := by
  unfold operate
  split
  · split
    · exact Or.inl ⟨rfl, rfl⟩
    · exact Or.inr ⟨_, _, _, _, _, rfl, rfl⟩
  · exact Or.inl ⟨rfl, rfl⟩

theorem operate_deadIds {a : Authority σ} (h : a.DeadIds) (op : OperatorAction) :
    (a.operate op).DeadIds := by
  have status : ∀ p s, (a.setStatus p s).DeadIds := by
    refine fun p s => ⟨Table.update_unique h.1 fun _ _ => rfl, fun d hd => ?_⟩
    obtain ⟨e, he, rfl⟩ := Table.mem_update.mp hd
    split <;> exact h.2 e he
  unfold operate
  split
  · split
    · exact h
    · exact status _ _
  · exact status _ _

end Authority

/-- The engine and an operator on the same tables. -/
def Engine.operated (engine : Engine σ) : Machine (Config σ) (Action ⊕ OperatorAction) where
  step c
    | .inl action => engine.step c action
    | .inr op => some { c with authority := c.authority.operate op }

theorem operate_wellFormed {engine : Engine σ} {c : Config σ} (h : c.WellFormed engine)
    (op : OperatorAction) : Config.WellFormed engine { c with authority := c.authority.operate op } :=
  have kept : c.authority.retryQueue ⊆ (c.authority.operate op).retryQueue := by
    rcases c.authority.operate_retryQueue op with hq | ⟨_, _, _, _, _, hq, -⟩
    · rw [hq.1]
      exact List.Subset.refl _
    · rw [hq]
      exact List.subset_append_left _ _
  { events := fun s => by rw [Authority.operate_events]; exact h.events s
    retryIds := by
      rcases c.authority.operate_retryQueue op with hq | ⟨_, _, _, _, _, hq, -⟩
      · rw [hq.1]
        exact h.retryIds
      · rw [hq]
        exact (Table.append_unique_iff h.retryIds _).mpr fun r hr same => by
          have fresh : r.id = c.authority.retryQueueSeq + 1 := Option.some.inj same.1
          have := h.retrySeq r hr
          omega
    retrySeq := by
      intro r hr
      rcases c.authority.operate_retryQueue op with hq | ⟨_, _, _, _, _, hq, seq⟩
      · rw [hq.1] at hr
        rw [hq.2]
        exact h.retrySeq r hr
      · rw [hq] at hr
        rw [seq]
        rcases List.mem_append.mp hr with hr | hr
        · exact Nat.le_succ_of_le (h.retrySeq r hr)
        · rw [List.mem_singleton.mp hr]
    deadIds := Authority.operate_deadIds h.deadIds op
    targets := h.targets
    current := h.current
    due := fun p due hp =>
      { h.due p due hp with queued := fun _ hr => kept ((h.due p due hp).queued hr) }
    rows := fun p s rows rest result hp =>
      { h.rows p s rows rest result hp with
        stored := by
          rw [Authority.operate_events]
          exact (h.rows p s rows rest result hp).stored } }

theorem operated_wellFormed (engine : Engine σ) {c c' : Config σ}
    {label : Action ⊕ OperatorAction} (h : c.WellFormed engine)
    (taken : engine.operated.step c label = some c') : c'.WellFormed engine := by
  cases label with
  | inl action => exact step_wellFormed engine h taken
  | inr op =>
    cases taken
    exact operate_wellFormed h op

theorem Engine.eq_of_name_eq (engine : Engine σ) {p q : Projection σ} (hp : p ∈ engine.projections)
    (hq : q ∈ engine.projections) (same : q.name = p.name) : q = p :=
  List.inj_on_of_nodup_map engine.names_nodup hq hp same

def Config.PastDead (c : Config σ) (action : Action) : Prop :=
  ∀ q ∈ c.query action, ∀ e ∈ c.authority.events q.2, q.1.consumes e = true →
    c.authority.isDead q.1.name e.eventId = true →
      ¬ c.authority.getCursorTimestamp q.1.name q.2 < e.eventTimestamp

instance (c : Config σ) (action : Action) : Decidable (c.PastDead action) :=
  inferInstanceAs (Decidable (∀ q ∈ c.query action, _))

/-- The step does not set out to call `handle()` again where the queue or an operator should. -/
def Config.Orderly (c : Config σ) : Action ⊕ OperatorAction → Prop
  | .inl action => c.requeues action = false ∧ c.PastDead action
  | .inr _ => True

instance (c : Config σ) : (label : Action ⊕ OperatorAction) → Decidable (c.Orderly label)
  | .inl action => inferInstanceAs (Decidable (c.requeues action = false ∧ c.PastDead action))
  | .inr _ => inferInstanceAs (Decidable True)

/-- What an orderly run keeps of one event. -/
structure Config.Final (c : Config σ) (p : Projection σ) (eventId : String) : Prop where
  bounded : c.authority.Bounded p eventId
  ahead : ∀ q s rows rest result, c.phase = .dispatching q s rows rest result → q.name = p.name →
    (∃ e ∈ rows, e.eventId = eventId) → c.authority.isDead p.name eventId = false

theorem Config.Final.of_agrees {c : Config σ} {b : Authority σ} {p : Projection σ}
    {eventId : String} (h : c.Final p eventId) (same : c.authority.Agrees b p.name eventId)
    (grows : ∀ s, c.authority.events s ⊆ b.events s) :
    Config.Final { c with authority := b } p eventId where
  bounded := h.bounded.of_agrees same grows
  ahead := by rw [same.dead]; exact h.ahead

/-- The event stays dead, and nobody calls `handle()` on it. -/
def Config.StaysDead (c c' : Config σ) (name eventId : String) : Prop :=
  c.authority.isDead name eventId = true →
    c'.authority.isDead name eventId = true ∧
      c'.authority.attemptsOf name eventId = c.authority.attemptsOf name eventId

theorem staysDead_of_agrees {c c' : Config σ} {name eventId : String}
    (same : c.authority.Agrees c'.authority name eventId) : c.StaysDead c' name eventId :=
  fun dead => ⟨same.dead.trans dead, same.attempts⟩

theorem Config.StaysDead.trans {c d c' : Config σ} {name eventId : String}
    (h : c.StaysDead d name eventId) (h' : d.StaysDead c' name eventId) :
    c.StaysDead c' name eventId := fun dead =>
  have there := h dead
  have next := h' there.1
  ⟨next.1, next.2.trans there.2⟩

theorem step_final (engine : Engine σ) {c c' : Config σ} {action : Action} {p : Projection σ}
    {eventId : String} (wf : c.WellFormed engine) (hp : p ∈ engine.projections)
    (h : c.Final p eventId) (orderly : c.Orderly (.inl action))
    (taken : engine.machine.step c action = some c') :
    c'.Final p eventId ∧ c.StaysDead c' p.name eventId := by
  cases engine.step_cases taken with
  | ingest _ source e =>
    have same : c.authority.Agrees (c.authority.ingest source e) p.name eventId := by
      cases source <;> exact ⟨rfl, rfl, rfl⟩
    exact ⟨h.of_agrees same fun s _ hf => Authority.mem_ingest_events source e hf,
      staysDead_of_agrees same⟩
  | runCycle => exact ⟨⟨h.bounded, nofun⟩, staysDead_of_agrees ⟨rfl, rfl, rfl⟩⟩
  | processRetries => exact ⟨⟨h.bounded, nofun⟩, staysDead_of_agrees ⟨rfl, rfl, rfl⟩⟩
  | returned => exact ⟨⟨h.bounded, nofun⟩, staysDead_of_agrees ⟨rfl, rfl, rfl⟩⟩
  | undeclared => exact ⟨⟨h.bounded, nofun⟩, staysDead_of_agrees ⟨rfl, rfl, rfl⟩⟩
  | retry a q row due targets results fault now =>
    have isDue := wf.due q _ rfl
    have hrow : row ∈ a.retryQueue := isDue.queued List.mem_cons_self
    have named : row.projectionName = q.name := isDue.named row List.mem_cons_self
    by_cases own : row.eventId = eventId ∧ q.name = p.name
    · obtain rfl : q = p := engine.eq_of_name_eq hp (wf.current q rfl) own.2
      have mine : row ∈ a.retriesOf q.name eventId :=
        Authority.mem_retriesOf.mpr ⟨hrow, own.1, named⟩
      refine ⟨⟨Authority.retryRow_bounded h.bounded wf.events mine fault now, nofun⟩,
        fun dead => ?_⟩
      rw [h.bounded.gone dead] at mine
      exact absurd mine List.not_mem_nil
    · have same := Authority.retryRow_agrees wf.retryIds hrow named own fault now
      exact ⟨⟨h.bounded.of_agrees same fun s => by simp, nofun⟩, staysDead_of_agrees same⟩
  | fetched a phase targets results q result source rest between =>
    refine ⟨⟨h.bounded, ?_⟩, staysDead_of_agrees ⟨rfl, rfl, rfl⟩⟩
    rintro _ _ _ _ _ ⟨⟩ same ⟨e, he, rfl⟩
    obtain ⟨stored, past, consumed⟩ := Authority.mem_newEvents.mp he
    have query : (q, source) ∈ Config.query ⟨a, phase, targets, results⟩ .fetch := by
      simp [Config.query, between]
    have alive := fun dead => orderly.2 (q, source) query e stored consumed dead past
    rw [same] at alive
    exact Bool.eq_false_iff.mpr alive
  | dispatch a q source e rows rest result targets results fault now =>
    have fetched := wf.rows q source _ _ _ rfl
    by_cases own : e.eventId = eventId ∧ q.name = p.name
    · obtain rfl : q = p := engine.eq_of_name_eq hp (wf.current q rfl) own.2
      obtain rfl : e.eventId = eventId := own.1
      have alive := h.ahead q source _ _ _ rfl rfl ⟨e, List.mem_cons_self, rfl⟩
      refine ⟨⟨Authority.dispatchRow_bounded h.bounded (fetched.stored List.mem_cons_self) alive
        fault now orderly.1, ?_⟩, fun dead => by simp [alive] at dead⟩
      rintro _ _ _ _ _ ⟨⟩ - ⟨f, hf, same⟩
      exact absurd same (fetched.head_ne hf)
    · have same := Authority.dispatchRow_agrees (a := a) own source fault now
      refine ⟨⟨h.bounded.of_agrees same fun s => by simp, ?_⟩, staysDead_of_agrees same⟩
      rintro _ _ _ _ _ ⟨⟩ hname ⟨f, hf, hid⟩
      rw [same.dead]
      exact h.ahead q source _ _ _ rfl hname ⟨f, List.mem_cons_of_mem _ hf, hid⟩

theorem operated_final (engine : Engine σ) {c c' : Config σ} {label : Action ⊕ OperatorAction}
    {p : Projection σ} {eventId : String} (wf : c.WellFormed engine) (hp : p ∈ engine.projections)
    (h : c.Final p eventId) (orderly : c.Orderly label)
    (untouched : ∀ op, label = .inr op → op.eventId ≠ eventId)
    (taken : engine.operated.step c label = some c') :
    c'.Final p eventId ∧ c.StaysDead c' p.name eventId := by
  cases label with
  | inl action => exact step_final engine wf hp h orderly taken
  | inr op =>
    cases taken
    have same := Authority.operate_agrees wf.deadIds op (untouched op rfl) p.name
    exact ⟨h.of_agrees same fun s => by simp, staysDead_of_agrees same⟩

theorem initial_final (engine : Engine σ) (target : σ) (p : Projection σ) (eventId : String) :
    (engine.initial target).Final p eventId where
  bounded :=
    { single := Nat.zero_le _, gone := fun _ => rfl, stored := nofun, capped := Nat.zero_le _
      counted := fun _ => Nat.zero_le _ }
  ahead := nofun

/-- In an orderly run an event that keeps failing is tried once more than the policy has retries,
at most, and once it is dead nobody tries it again unless an operator says so. -/
theorem deadLetter_final (engine : Engine σ) (target : σ)
    (labels later : List (Action ⊕ OperatorAction)) {c c' : Config σ}
    (reached : engine.operated.run (engine.initial target) labels = some c)
    (goesOn : engine.operated.run c later = some c')
    (orderly : ∀ x ∈ engine.operated.transitions (engine.initial target) (labels ++ later),
      x.before.Orderly x.label)
    (p : Projection σ) (hp : p ∈ engine.projections) (eventId : String)
    (untouched : ∀ op, .inr op ∈ labels ++ later → op.eventId ≠ eventId) :
    (c'.authority.KeepsFailing p.name eventId →
        (c'.authority.attemptsOf p.name eventId).length ≤ p.retryPolicy.maxRetries + 1) ∧
      (c.authority.isDead p.name eventId = true →
        c'.authority.attemptsOf p.name eventId = c.authority.attemptsOf p.name eventId) := by
  rw [engine.operated.transitions_append_of_run reached] at orderly
  have guard : ∀ {s : Config σ} {ls : List (Action ⊕ OperatorAction)}, ls ⊆ labels ++ later →
      (∀ x ∈ engine.operated.transitions s ls, x.before.Orderly x.label) →
      ∀ x ∈ engine.operated.transitions s ls,
        x.before.Orderly x.label ∧ ∀ op, x.label = .inr op → op.eventId ≠ eventId := by
    intro s ls sub meets x hx
    refine ⟨meets x hx, fun op hop => untouched op (sub ?_)⟩
    exact hop ▸ engine.operated.label_mem_of_mem_transitions hx
  have first : c.WellFormed engine ∧ c.Final p eventId :=
    engine.operated.run_invariant_of_guarded
      (J := fun c => c.WellFormed engine ∧ c.Final p eventId)
      (G := fun c label _ => c.Orderly label ∧ ∀ op, label = .inr op → op.eventId ≠ eventId)
      (fun _ _ _ h meets taken => ⟨operated_wellFormed engine h.1 taken,
        (operated_final engine h.1 hp h.2 meets.1 meets.2 taken).1⟩)
      ⟨initial_wellFormed engine target, initial_final engine target p eventId⟩
      (guard (List.subset_append_left _ _) fun x hx => orderly x (List.mem_append_left _ hx))
        reached
  have second : (c'.WellFormed engine ∧ c'.Final p eventId) ∧ c.StaysDead c' p.name eventId :=
    engine.operated.run_invariant_of_guarded
      (J := fun d => (d.WellFormed engine ∧ d.Final p eventId) ∧ c.StaysDead d p.name eventId)
      (G := fun c label _ => c.Orderly label ∧ ∀ op, label = .inr op → op.eventId ≠ eventId)
      (fun d label d' h meets taken => by
        have next := operated_final engine h.1.1 hp h.1.2 meets.1 meets.2 taken
        exact ⟨⟨operated_wellFormed engine h.1.1 taken, next.1⟩, h.2.trans next.2⟩)
      ⟨first, fun dead => ⟨dead, rfl⟩⟩
      (guard (List.subset_append_right _ _) fun x hx => orderly x (List.mem_append_right _ hx))
        goesOn
  exact ⟨second.1.2.bounded.calls_le, fun dead => (second.2 dead).2⟩

/-- `e1` fails, `e2` moves the cursor past it, and the three retries fail. -/
def failingBehind : List (Action ⊕ OperatorAction) :=
  List.map .inl
    ([Action.ingest .business (startedEvent "e1" "2026-01-01T00:00:00Z"),
        Action.ingest .business (startedEvent "e2" "2026-01-02T00:00:00Z")] ++
      cycle 0 [] [locked, none] ++ cycle 10000000 [locked] [] ++ cycle 20000000 [locked] [] ++
      cycle 40000000 [locked] [])

/-- `e1` fails in four cycles with no event behind it. -/
def failingTail : List (Action ⊕ OperatorAction) :=
  List.map .inl
    (Action.ingest .business (startedEvent "e1" "2026-01-01T00:00:00Z") ::
      (cycle 0 [] [locked] ++ cycle 0 [] [locked] ++ cycle 0 [] [locked] ++ cycle 0 [] [locked]))

/-- The bound is met with equality. -/
theorem deadLetter_final_failingBehind :
    ∃ c c', auditEngine.operated.run (auditEngine.initial ()) failingBehind = some c ∧
      auditEngine.operated.run c (.inr (.resolve "e2") :: (cycle 50000000 [] []).map .inl) =
        some c' ∧
      (c'.authority.attemptsOf "work_order_projection" "e1").length = 3 + 1 ∧
      c'.authority.attemptsOf "work_order_projection" "e1" =
        c.authority.attemptsOf "work_order_projection" "e1" := by
  have final := deadLetter_final auditEngine () failingBehind
    (.inr (.resolve "e2") :: (cycle 50000000 [] []).map .inl) rfl rfl (by decide) auditProjection
    (by simp [auditEngine]) "e1" (by simp [failingBehind, cycle, OperatorAction.eventId])
  exact ⟨_, _, rfl, rfl, by decide, final.2 (by decide)⟩

/-- An event that fails at the tail of the table is fetched, and tried, again after it was given
up on. -/
theorem dead_event_tried_again :
    ¬ ∃ bound : Nat → Nat, ∀ (σ : Type) (engine : Engine σ) (target : σ)
      (labels later : List (Action ⊕ OperatorAction)) (c c' : Config σ),
      engine.operated.run (engine.initial target) labels = some c →
      engine.operated.run c later = some c' →
      ∀ p ∈ engine.projections, ∀ eventId,
        (∀ op, .inr op ∈ labels ++ later → op.eventId ≠ eventId) →
        (c'.authority.KeepsFailing p.name eventId →
            (c'.authority.attemptsOf p.name eventId).length ≤ bound p.retryPolicy.maxRetries) ∧
          (c.authority.isDead p.name eventId = true →
            c'.authority.attemptsOf p.name eventId = c.authority.attemptsOf p.name eventId) := by
  rintro ⟨bound, h⟩
  have tried := (h Unit auditEngine () failingTail ((cycle 0 [] [locked]).map .inl) _ _ rfl rfl
    auditProjection (by simp [auditEngine]) "e1" (by simp [failingTail, cycle])).2 (by decide)
  have counts := congrArg List.length tried
  revert counts
  decide

end DreamStudio.Projections
