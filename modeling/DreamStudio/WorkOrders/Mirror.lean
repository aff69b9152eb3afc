import DreamStudio.Library.Machine
import DreamStudio.WorkOrders.Columns

namespace DreamStudio.WorkOrders

open Library Projections

/-- A work order, the events about it and the moment of the last one. -/
structure Mirror where
  replica : Replica WorkOrderTable Event
  latest : String

namespace Mirror

/-- A created work order: one a pass has projected, or one a spawn has inserted. -/
inductive Opening
  | projected (priority : String) (clock : Nat)
  | inserted

def created (remembers : Bool) (c : Creation) : Opening → Mirror
  | .projected priority clock =>
    let e := c.emit priority
    let projected := (workOrderHandler remembers c.workOrderId).project clock [e] []
    { replica := { live := projected.toOption.getD [], log := [e] }, latest := c.now.iso }
  | .inserted =>
    let e := c.emit none
    { replica := { live := [c.inserted], log := [e], pending := [e] }, latest := c.now.iso }

/-- An UPDATE of the row and the event it emits. -/
def record (workOrderId : String) (write : WorkOrderRow → WorkOrderRow) (e : Event) (s : Mirror) :
    Replica WorkOrderTable Event :=
  s.replica.record (Table.update (fun r => r.workOrderId = some workOrderId) write s.replica.live) e

def row (workOrderId : String) (s : Mirror) : Option WorkOrderRow :=
  Table.lookup WorkOrderRow.key workOrderId s.replica.live

def Follows (s : Mirror) (now : Now) (eventId : String) : Prop :=
  s.latest < now.iso ∧ ∀ e ∈ s.replica.log, e.eventId ≠ eventId

instance (s : Mirror) (now : Now) (eventId : String) : Decidable (s.Follows now eventId) :=
  inferInstanceAs (Decidable (_ ∧ _))

end Mirror

def Update.syncs : Update → Bool
  | reopen _ | close _ _ => true
  | _ => false

/-- `synced` is the clock of the pass a call makes of its own, where that pass lands. -/
inductive Operation
  | call (c : Call) (now : Now) (eventId : String) (synced : Option Nat)
  | drain (note reason : String) (now : Now) (eventId : String)
  | tick (clock : Nat)

/-- The writers of one work order, one after another. A refused call is no step. -/
def writers (remembers : Bool) (workOrderId : String) : Machine Mirror Operation where
  step s
    | .call c now eventId synced => do
      let r ← s.row workOrderId
      guard (s.Follows now eventId)
      match c.check workOrderId r.status with
      | .proceeds f =>
        let u := f.update remembers r
        guard (u.finds r.status)
        let after ← (workOrderHandler remembers workOrderId).sync (if u.syncs then synced else none)
          (s.record workOrderId (u.write remembers now) (u.emit r eventId now))
        some ⟨after, now.iso⟩
      | .already => some s
      | .refused _ => none
    | .drain note reason now eventId => do
      let r ← s.row workOrderId
      guard (s.Follows now eventId)
      guard (r.status = .created ∨ r.status = .inProgress)
      guard (contains (r.description.getD "") "[gap-key: ")
      some ⟨s.record workOrderId (drainWrite note) (drainEmit r reason eventId now), now.iso⟩
    | .tick clock => do
      let after ← (workOrderHandler remembers workOrderId).tick clock s.replica
      some { s with replica := after }

/-- The live columns are those of the replay. -/
def Mirror.Mirrored (remembers : Bool) (workOrderId : String) (clock : Nat) (s : Mirror) : Prop :=
  ∃ t, (workOrderHandler remembers workOrderId).project clock s.replica.log [] = .ok t ∧
    s.replica.live.map columns = t.map columns

/-- A step after which the live row is still what its events say: no drain, no block for an empty
reason, and no reopen whose own pass does not land. -/
def Agrees : Operation → Prop
  | .call (.block reason) _ _ _ => reason ≠ ""
  | .call (.reopen _) _ _ synced => synced ≠ none
  | .drain _ _ _ _ => False
  | _ => True

/-- A mirror whose live row is `r` and whose events replay to `q`. What is pending changes nothing
of `q`, and `q` was closed when its phase says so, no later than the last event. -/
structure Tracked (remembers : Bool) (clock : Nat) (workOrderId : String) (s : Mirror)
    (r q : WorkOrderRow) (p : Patch) : Prop where
  tracks : (workOrderHandler remembers workOrderId).Tracks columns clock [] s.replica r q p.apply
  absorbed : p.apply (columns q) = columns q
  closed : q.status = .closed → q.closedAt ≠ none
  closedAt : ∀ c ∈ q.closedAt, c ≤ s.latest

section Tracking

variable {remembers : Bool} {clock : Nat} {workOrderId : String} {s t : Mirror} {r q : WorkOrderRow}
  {p : Patch}

theorem Tracked.row (h : Tracked remembers clock workOrderId s r q p) :
    s.row workOrderId = some r := by
  have own : r.workOrderId = some workOrderId := h.tracks.own
  simp [Mirror.row, Table.lookup, h.tracks.live, workOrderHandler, WorkOrderRow.key, own]

theorem Tracked.mirrored_iff (h : Tracked remembers clock workOrderId s r q p) :
    s.Mirrored remembers workOrderId clock ↔ columns r = columns q := by
  constructor
  · rintro ⟨t, replay, same⟩
    rw [h.tracks.replay] at replay
    cases replay
    rw [h.tracks.live] at same
    exact List.head_eq_of_cons_eq same
  · intro same
    exact ⟨[q], h.tracks.replay, by simp [h.tracks.live, workOrderHandler, same]⟩

theorem created_tracked (remembers : Bool) (clock : Nat) (c : Creation) (o : Mirror.Opening) :
    ∃ r q p, Tracked remembers clock c.workOrderId (.created remembers c o) r q p ∧
      columns r = columns q := by
  have open_ : ∀ {q : WorkOrderRow} {priority : Option String}, columns q = blank priority →
      q.status = creationStatus ∧ q.closedAt = none := fun columns_q =>
    ⟨congrArg Columns.status columns_q, congrArg Columns.closedAt columns_q⟩
  cases o with
  | projected priority pass =>
    obtain ⟨r, live, columns_r, own, known⟩ := created_projected remembers c (some priority) pass
    obtain ⟨q, replay, columns_q, ownReplay, knownReplay⟩ :=
      created_projected remembers c (some priority) clock
    obtain ⟨status, closedAt⟩ := open_ columns_q
    refine ⟨r, q, {}, ⟨?_, rfl, fun closed => (nomatch status.symm.trans closed),
      fun at_ h => (nomatch closedAt.symm.trans h)⟩, columns_r.trans columns_q.symm⟩
    exact {
      live := by simp only [Mirror.created, live]; rfl
      own := own
      known := fun id seen => ⟨_, List.mem_cons_self, (known id seen).symm⟩
      fresh := fun e he => nomatch he
      logged := List.nil_suffix, nodup := List.nodup_singleton _, pends := .nil, replay := replay
      ownReplay := ownReplay
      knownReplay := fun id seen => ⟨_, List.mem_cons_self, (knownReplay id seen).symm⟩ }
  | inserted =>
    obtain ⟨q, replay, columns_q, ownReplay, knownReplay⟩ :=
      created_projected remembers c none clock
    obtain ⟨status, closedAt⟩ := open_ columns_q
    refine ⟨c.inserted, q, {}, ⟨?_, rfl, fun closed => (nomatch status.symm.trans closed),
      fun at_ h => (nomatch closedAt.symm.trans h)⟩, columns_q.symm⟩
    exact {
      live := rfl, own := rfl
      known := fun id seen => nomatch seen
      fresh := fun e _ seen => nomatch seen
      logged := List.suffix_rfl, nodup := List.nodup_singleton _
      pends := Handler.Pends.nil.append (created_acts remembers c), replay := replay
      ownReplay := ownReplay
      knownReplay := fun id seen => ⟨_, List.mem_cons_self, (knownReplay id seen).symm⟩ }

/-- A write and an event that the projection turns into `p'`. -/
theorem Tracked.record (h : Tracked remembers clock workOrderId s r q p)
    {write : WorkOrderRow → WorkOrderRow} {e : Event} {now : Now} {p' : Patch}
    (own : (write r).workOrderId = r.workOrderId)
    (source : (write r).sourceEventId = r.sourceEventId)
    (last : (write r).lastEventId = r.lastEventId)
    (acts : (workOrderHandler remembers workOrderId).Acts columns e p'.apply)
    (timely : p'.Timely now.iso) (later : s.latest < now.iso)
    (new : ∀ e' ∈ s.replica.log, e'.eventId ≠ e.eventId) :
    ∃ q', Tracked remembers clock workOrderId ⟨s.record workOrderId write e, now.iso⟩ (write r) q'
        (p'.after p) ∧ columns q' = p'.apply (columns q) := by
  have mine : r.workOrderId = some workOrderId := h.tracks.own
  have ids : ∀ id, (workOrderHandler remembers workOrderId).seen (write r) id ↔
      (workOrderHandler remembers workOrderId).seen r id := by
    simp only [workOrderHandler, source, last, implies_true]
  obtain ⟨q', tracks, acted⟩ := h.tracks.record (own.trans mine) ids acts new
  have live : Table.update (fun r => r.workOrderId = some workOrderId) write s.replica.live =
      [write r] := by
    simp [h.tracks.live, workOrderHandler, Table.update, mine]
  have status : q'.status = p'.status.getD q.status := congrArg Columns.status acted
  have stamp : q'.closedAt = p'.closedAt.getD q.closedAt := congrArg Columns.closedAt acted
  refine ⟨q', ⟨?_, ?_, fun closed => ?_, fun c hc => ?_⟩, acted⟩
  · have both : (p'.after p).apply = p'.apply ∘ p.apply := funext fun c => Patch.apply_after p' p c
    rw [both, Mirror.record, live]
    exact tracks
  · rw [Patch.apply_after, acted]
    exact Patch.apply_absorbed h.absorbed (Patch.apply_apply _ _)
  · obtain ⟨target, moves⟩ := Option.ne_none_iff_exists'.mp timely.moves
    rw [moves, Option.getD_some, closed] at status
    rw [stamp, timely.closes (moves.trans (congrArg some status.symm))]
    exact Option.some_ne_none _
  · change c ≤ now.iso
    rw [stamp] at hc
    cases set : p'.closedAt with
    | none =>
      rw [set] at hc
      exact (h.closedAt c hc).trans later.le
    | some stamped =>
      rw [set] at hc
      exact (timely.stamps c (set.trans (congrArg some hc))).le

theorem Tracked.wrote (named : workOrderId ≠ "") (h : Tracked remembers clock workOrderId s r q p)
    {u : Update} (sound : u.Sound) {now : Now} {eventId : String}
    (follows : s.Follows now eventId) :
    ∃ q', Tracked remembers clock workOrderId
        ⟨s.record workOrderId (u.write remembers now) (u.emit r eventId now), now.iso⟩
        (u.write remembers now r) q' ((u.replays remembers now).after p) ∧
      columns q' = (u.replays remembers now).apply (columns q) :=
  h.record (Update.write_workOrderId ..) (by cases u <;> rfl) (by cases u <;> rfl)
    (emit_acts named h.tracks.own eventId now sound) (replays_timely sound) follows.1 follows.2

theorem Tracked.drained (named : workOrderId ≠ "") (h : Tracked remembers clock workOrderId s r q p)
    {now : Now} {eventId : String} (follows : s.Follows now eventId) (note reason : String) :
    ∃ q', Tracked remembers clock workOrderId
        ⟨s.record workOrderId (drainWrite note) (drainEmit r reason eventId now), now.iso⟩
        (drainWrite note r) q' ((drainReplays now).after p) ∧
      columns q' = (drainReplays now).apply (columns q) :=
  h.record rfl rfl rfl (drain_acts named h.tracks.own reason eventId now)
    ⟨nofun, nofun, fun _ h => (Option.some.inj (Option.some.inj h)).symm⟩ follows.1 follows.2

theorem Tracked.sync (h : Tracked remembers clock workOrderId s r q p) {pass : Option Nat}
    {after : Replica WorkOrderTable Event}
    (synced : (workOrderHandler remembers workOrderId).sync pass s.replica = some after) :
    ∃ r' p', Tracked remembers clock workOrderId { s with replica := after } r' q p' ∧
      (pass = none ∧ r' = r ∨ pass ≠ none ∧ columns r' = p.apply (columns r)) := by
  obtain ⟨r', f', tracks, ⟨none, rfl, rfl⟩ | ⟨some, acted, rfl⟩⟩ := h.tracks.sync synced
  · exact ⟨r', p, { h with tracks := tracks }, Or.inl ⟨none, rfl⟩⟩
  · exact ⟨r', {}, { h with tracks := tracks, absorbed := rfl }, Or.inr ⟨some, acted⟩⟩

end Tracking

section Steps

variable {remembers : Bool} {clock : Nat} {workOrderId : String} {s t : Mirror} {r q : WorkOrderRow}
  {p : Patch}

theorem call_cases {c : Call} {now : Now} {eventId : String} {synced : Option Nat}
    (row : s.row workOrderId = some r)
    (h : (writers remembers workOrderId).step s (.call c now eventId synced) = some t) :
    s.Follows now eventId ∧
      ((c.check workOrderId r.status = .already ∧ t = s) ∨
        ∃ f, c.check workOrderId r.status = .proceeds f ∧
        let u := f.update remembers r
        ∃ after, (workOrderHandler remembers workOrderId).sync (if u.syncs then synced else none)
            (s.record workOrderId (u.write remembers now) (u.emit r eventId now)) = some after ∧
          t = ⟨after, now.iso⟩) := by
  simp only [writers, row, Option.bind_eq_bind, Option.bind_some, Option.bind_eq_some_iff,
    Option.guard_eq_some'] at h
  obtain ⟨-, follows, h⟩ := h
  refine ⟨follows, ?_⟩
  cases checked : c.check workOrderId r.status with
  | proceeds f =>
    simp only [checked, Option.bind_eq_some_iff, Option.some.injEq] at h
    obtain ⟨-, -, after, synced, h⟩ := h
    exact Or.inr ⟨f, rfl, after, synced, h.symm⟩
  | already =>
    simp only [checked, Option.some.injEq] at h
    exact Or.inl ⟨rfl, h.symm⟩
  | refused error => simp [checked] at h

theorem drain_cases {note reason : String} {now : Now} {eventId : String}
    (row : s.row workOrderId = some r)
    (h : (writers remembers workOrderId).step s (.drain note reason now eventId) = some t) :
    s.Follows now eventId ∧
      t = ⟨s.record workOrderId (drainWrite note) (drainEmit r reason eventId now), now.iso⟩ := by
  simp only [writers, row, Option.bind_eq_bind, Option.bind_some, Option.bind_eq_some_iff,
    Option.guard_eq_some'] at h
  obtain ⟨-, follows, -, -, -, -, h⟩ := h
  exact ⟨follows, (Option.some.inj h).symm⟩

theorem tick_cases {pass : Nat} (h : (writers remembers workOrderId).step s (.tick pass) = some t) :
    ∃ after, (workOrderHandler remembers workOrderId).sync (some pass) s.replica = some after ∧
      t = { s with replica := after } := by
  simp only [writers, Option.bind_eq_bind, Option.bind_eq_some_iff] at h
  obtain ⟨after, ticked, h⟩ := h
  exact ⟨after, ticked, (Option.some.inj h).symm⟩

theorem agrees_of_already {c : Call} {current : WorkOrderStatus} {now : Now} {eventId : String}
    {synced : Option Nat} (h : c.check workOrderId current = .already) :
    Agrees (.call c now eventId synced) := by
  cases c with
  | block reason =>
    simp only [Call.check, checkBlock] at h
    split at h <;> cases h
  | reopen reason =>
    simp only [Call.check, checkReopen] at h
    split at h <;> cases h
  | _ => trivial

theorem agrees_iff {c : Call} {f : Flight} {now : Now} {eventId : String} {synced : Option Nat}
    (checked : c.check workOrderId r.status = .proceeds f)
    (closed : r.status = .closed → q.closedAt ≠ none) :
    Agrees (.call c now eventId synced) ↔
      (if (f.update remembers r).syncs then synced else none) ≠ none ∨
        (f.update remembers r).Agrees (columns q) := by
  cases c with
  | start brief later =>
    obtain ⟨_, proceeds, rfl⟩ := Checked.map_eq_proceeds.mp checked
    obtain ⟨rfl, -⟩ := checkStart_proceeds proceeds
    exact iff_of_true trivial (Or.inr trivial)
  | advance target review note =>
    obtain ⟨_, proceeds, rfl⟩ := Checked.map_eq_proceeds.mp checked
    obtain ⟨event, -, rfl, -⟩ := checkAdvance_proceeds proceeds
    exact iff_of_true trivial (Or.inr trivial)
  | block reason =>
    obtain ⟨_, proceeds, rfl⟩ := Checked.map_eq_proceeds.mp checked
    obtain ⟨rfl, -⟩ := checkBlock_proceeds proceeds
    exact (or_iff_right (fun h => h rfl)).symm
  | unblock =>
    obtain ⟨_, -, rfl⟩ := Checked.map_eq_proceeds.mp checked
    exact iff_of_true trivial (Or.inr trivial)
  | reopen reason =>
    obtain ⟨_, proceeds, rfl⟩ := Checked.map_eq_proceeds.mp checked
    obtain ⟨rfl, was⟩ := checkReopen_proceeds proceeds
    exact (or_iff_left (closed was)).symm
  | close held laneReview forced =>
    obtain ⟨_, proceeds, rfl⟩ := Checked.map_eq_proceeds.mp checked
    obtain ⟨rfl, -⟩ := checkClose_proceeds proceeds
    exact iff_of_true trivial (Or.inr trivial)

theorem step_tracked (named : workOrderId ≠ "") (l : Operation)
    (hs : ∃ r q p, Tracked remembers clock workOrderId s r q p)
    (h : (writers remembers workOrderId).step s l = some t) :
    ∃ r q p, Tracked remembers clock workOrderId t r q p := by
  obtain ⟨r, q, p, tracked⟩ := hs
  cases l with
  | call c now eventId synced =>
    obtain ⟨follows, ⟨-, rfl⟩ | ⟨f, proceeds, after, synced, rfl⟩⟩ := call_cases tracked.row h
    · exact ⟨r, q, p, tracked⟩
    · obtain ⟨q', wrote, -⟩ := tracked.wrote named (update_sound proceeds) follows
      obtain ⟨r', p', passed, -⟩ := wrote.sync synced
      exact ⟨r', q', p', passed⟩
  | drain note reason now eventId =>
    obtain ⟨follows, rfl⟩ := drain_cases tracked.row h
    obtain ⟨q', drained, -⟩ := tracked.drained named follows note reason
    exact ⟨_, q', _, drained⟩
  | tick pass =>
    obtain ⟨after, synced, rfl⟩ := tick_cases h
    obtain ⟨r', p', passed, -⟩ := tracked.sync synced
    exact ⟨r', q, p', passed⟩

theorem step_mirrored_iff (named : workOrderId ≠ "") (l : Operation)
    (hs : ∃ r q p, Tracked remembers clock workOrderId s r q p)
    (mirrored : s.Mirrored remembers workOrderId clock)
    (h : (writers remembers workOrderId).step s l = some t) :
    t.Mirrored remembers workOrderId clock ↔ Agrees l := by
  obtain ⟨r, q, p, tracked⟩ := hs
  have same := tracked.mirrored_iff.mp mirrored
  have status : r.status = q.status := congrArg Columns.status same
  cases l with
  | call c now eventId synced =>
    obtain ⟨follows, ⟨already, rfl⟩ | ⟨f, proceeds, after, done, rfl⟩⟩ := call_cases tracked.row h
    · exact iff_of_true mirrored (agrees_of_already already)
    · obtain ⟨q', wrote, replayed⟩ := tracked.wrote named (update_sound proceeds) follows
      obtain ⟨r', p', passed, pass⟩ := wrote.sync done
      rw [passed.mirrored_iff, agrees_iff proceeds fun closed =>
        tracked.closed (status ▸ closed), replayed]
      rcases pass with ⟨silent, rfl⟩ | ⟨synced, acted⟩
      · rw [or_iff_right (not_not_intro silent), Update.columns_write, same]
        exact sets_eq_replays_iff _
      · -- the pass of its own gives the row what the replay was given
        refine iff_of_true ?_ (Or.inl synced)
        rw [acted, Patch.apply_after, Update.columns_write, same]
        exact Patch.apply_absorbed tracked.absorbed (replays_covers _)
  | drain note reason now eventId =>
    obtain ⟨follows, rfl⟩ := drain_cases tracked.row h
    obtain ⟨q', drained, replayed⟩ := tracked.drained named follows note reason
    refine iff_of_false (fun still => ?_) id
    have stamped : r.closedAt = some now.iso :=
      congrArg Columns.closedAt ((drained.mirrored_iff.mp still).trans replayed)
    have before : q.closedAt = some now.iso := (congrArg Columns.closedAt same).symm.trans stamped
    exact absurd (tracked.closedAt _ before) (not_le.mpr follows.1)
  | tick pass =>
    obtain ⟨after, done, rfl⟩ := tick_cases h
    obtain ⟨r', p', passed, ⟨none, rfl⟩ | ⟨-, acted⟩⟩ := tracked.sync done
    · cases none
    · refine iff_of_true (passed.mirrored_iff.mpr ?_) trivial
      rw [acted, same, tracked.absorbed]

end Steps

section Runs

variable (remembers : Bool) (clock : Nat)

/-- The live row is what its events say throughout a run exactly when every step agrees. -/
theorem mirrored_iff_agrees (c : Creation) (o : Mirror.Opening) (ls : List Operation) :
    (∀ x ∈ (writers remembers c.workOrderId).transitions (.created remembers c o) ls,
      x.after.Mirrored remembers c.workOrderId clock) ↔
    ∀ x ∈ (writers remembers c.workOrderId).transitions (.created remembers c o) ls,
      Agrees x.label := by
  obtain ⟨r, q, p, tracked, same⟩ := created_tracked remembers clock c o
  exact (writers remembers c.workOrderId).forall_after_iff_forall_guard
    (J := fun s => ∃ r q p, Tracked remembers clock c.workOrderId s r q p)
    (P := Mirror.Mirrored remembers c.workOrderId clock) (C := fun _ l => Agrees l)
    (fun _ l _ hs h => step_tracked c.named l hs h)
    (fun _ l _ hs mirrored h => step_mirrored_iff c.named l hs mirrored h)
    ⟨r, q, p, tracked⟩ (tracked.mirrored_iff.mpr same) ls

def spawned : Creation where
  workOrderId := "wo-2"
  named := by decide
  projectId := "p-1"
  milestoneId := "m-1"
  title := "Add missing adversarial tests"
  type := "bugfix"
  description := "Spawned by review of 'Parser'. [gap-key: wo-1::missing-tests]"
  originatingSymptom := none
  eventId := "e-1"
  now := ⟨"2026-09-24T10:00:00+00:00", 1⟩

theorem drained_not_mirrored :
    ∃ t, (writers true "wo-2").run (.created true spawned .inserted)
        [.drain "[DRAINED]" "drained as a duplicate spawn" ⟨"2026-09-24T10:00:01+00:00", 2⟩ "e-2"] =
      some t ∧ ¬t.Mirrored true "wo-2" 0 := by
  refine ⟨_, rfl, ?_⟩
  rintro ⟨t, replay, same⟩
  cases replay
  cases same

end Runs

end DreamStudio.WorkOrders
