import DreamStudio.WorkOrders.Gates
import DreamStudio.WorkOrders.Mirror

namespace DreamStudio.Milestones

open Library Projections WorkOrders

/-- An audit of a milestone as it is read: its text, and with an envelope the commit it was made at
and the commits after that. -/
structure Audit where
  content : String
  madeAt : Option (String × List String) := none

/-- What a close of a milestone reads beside the authority. `scores` is what `re.finditer` finds of
`Score:\s*(\d+)/(\d+)`. -/
structure Surface where
  py : Stdlib
  scores : String → List (String × String)
  uiBearing : Dict String Bool
  audit : String → Option Audit

namespace Surface

variable (w : Surface)

/-- `is_ui_bearing`. -/
def isUiBearing (name : Option String) : Bool :=
  match name with
  | none => false
  | some name => name ≠ "" && (w.uiBearing.get name).getD false

/-- `_read`: the text, and what the envelope objects. -/
def read (filename : String) : Option String × List String :=
  match w.audit filename with
  | none => (none, [])
  | some ⟨content, some (sha, _ :: rest)⟩ =>
    (some content, if sha = "" then [] else
      [filename ++ " is stale: " ++ toString (rest.length + 1) ++
        " commit(s) landed after it was " ++
        "produced (at " ++ pyTake 12 sha ++ "). Regenerate it and re-store via the docstore."])
  | some ⟨content, _⟩ => (some content, [])

def below (score : String × String) : Bool :=
  match w.py.int score.1 with
  | .ok n => n < 3
  | .error _ => false

def passed (content : String) : Bool := contains (w.py.upper content) "PASSED"

/-- `_evaluate_milestone_artifacts`. -/
def evaluateMilestoneArtifacts (milestoneId : String) (hasUi : Bool) : List String :=
  let (design, stale₁) := w.read "design-audit.md"
  let (security, stale₂) := w.read "security-audit.md"
  let (harden, stale₃) := w.read "harden-results.md"
  let (cwv, stale₄) := w.read "cwv-results.md"
  stale₁ ++
    (match design with
    | none =>
      if hasUi then
        ["Design audit required. Invoke website:critique across all UI surfaces and write results to " ++
          "the docstore as milestones/" ++ milestoneId ++ "/design-audit.md"]
      else []
    | some content =>
      match (w.scores content).find? w.below with
      | some (n, m) => ["Design audit: score " ++ n ++ "/" ++ m ++ " is below minimum 3"]
      | none => []) ++
    stale₂ ++
    (match security with
    | none => ["Security audit required."]
    | some content =>
      if isSecurityBlocked w.py content then
        ["Security audit: security-audit.md reports a BLOCKED finding"]
      else []) ++
    stale₃ ++
    (match harden with
    | none => ["Hardening check required. Invoke quality:harden and write results."]
    | some content =>
      if w.passed content then [] else
        ["Hardening check: harden-results.md does not contain PASSED"]) ++
    if hasUi then
      stale₄ ++
        match cwv with
        | none => ["Core Web Vitals check required."]
        | some content =>
          if w.passed content then []
          else ["Core Web Vitals: cwv-results.md does not contain PASSED"]
    else []

end Surface

structure Listed where
  row : WorkOrderRow
  events : List Event

def Listed.closedInCanonical (w : Listed) : Bool :=
  w.events.any fun e => e.eventType = WorkOrderEventType.closed.text ∧
    e.workOrderId = w.row.workOrderId

def Listed.open_ (w : Listed) : Bool :=
  w.row.status ∉ WorkOrderStatus.terminal && !w.closedInCanonical

structure MilestoneHead where
  milestoneId : String
  projectId : String
  title : String

inductive MilestoneReply
  | notFound (error : String)
  | openWorkOrders (error : String) (openWorkOrders : List (Text × Text × String))
  | failed (error : String) (failures : List String)
  | closed (head : MilestoneHead) (status completedAt : String) (forced : Bool)
    (bypassedGates : List String)

def MilestoneReply.ok : MilestoneReply → Bool
  | closed .. => true
  | _ => false

/-- `close_milestone`. -/
def closeMilestone (milestoneId : String) (head : Option MilestoneHead)
    (works : List Listed) (w : Surface) (force : Bool) (now : Now) : MilestoneReply :=
  match head with
  | none => .notFound ("Milestone not found: " ++ milestoneId)
  | some head =>
    let openWos := works.filter Listed.open_
    if openWos ≠ [] then
      .openWorkOrders "Cannot close milestone: open work orders remain"
        (openWos.map fun w => (w.row.workOrderId, w.row.title, w.row.status.text))
    else
      let hasUi := works.any fun l => w.isUiBearing l.row.workOrderType
      let failures := w.evaluateMilestoneArtifacts milestoneId hasUi
      if failures ≠ [] ∧ !force then .failed "Milestone verification failed" failures
      else .closed head "complete" now.iso force (if force then failures else [])

theorem closeMilestone_ok {milestoneId : String} {head : Option MilestoneHead} {works : List Listed}
    {w : Surface} {force : Bool} {now : Now} :
    (closeMilestone milestoneId head works w force now).ok = true ↔
      head ≠ none ∧ (∀ l ∈ works, l.open_ = false) ∧
        (w.evaluateMilestoneArtifacts milestoneId
          (works.any fun l => w.isUiBearing l.row.workOrderType) = [] ∨
          force = true) := by
  have none_open : works.filter Listed.open_ = [] ↔ ∀ l ∈ works, l.open_ = false := by
    simp [List.filter_eq_nil_iff]
  rw [← none_open]
  cases head with
  | none => exact iff_of_false nofun fun h => h.1 rfl
  | some head =>
    simp only [closeMilestone]
    split
    next some_open => exact iff_of_false nofun fun h => some_open h.2.1
    next still =>
      have closed := not_not.mp still
      split
      next failed =>
        simp only [Bool.not_eq_true'] at failed
        exact iff_of_false nofun fun h => h.2.2.elim failed.1 fun forced => by
          simp [failed.2] at forced
      next passed =>
        refine iff_of_true rfl ⟨nofun, closed, ?_⟩
        by_contra neither
        obtain ⟨failures, unforced⟩ := not_or.mp neither
        exact passed ⟨failures, by simp [unforced]⟩

structure Member where
  creation : Creation
  mirror : Mirror

inductive Announcement
  | update (u : Update)
  | cancel (reason : String)
  | delete

def deleteEmit (r : WorkOrderRow) (eventId : String) (now : Now) : Event where
  eventId := eventId
  eventType := WorkOrderEventType.deleted.text
  eventTimestamp := now.iso
  payload := .obj
    [("work_order_id", .ofOption r.workOrderId), ("project_id", .ofOption r.projectId),
      ("deletion_context", .str "cascaded_from_project_delete")]
  workOrderId := r.workOrderId
  projectId := r.projectId

namespace Announcement

def emit (r : WorkOrderRow) (eventId : String) (now : Now) : Announcement → Event
  | update u => u.emit r eventId now
  | cancel reason => drainEmit r reason eventId now
  | delete => deleteEmit r eventId now

def Sound : Announcement → Prop
  | update u => u.Sound
  | _ => True

instance : (a : Announcement) → Decidable a.Sound
  | update (.advance event _ _) => inferInstanceAs (Decidable (event ∈ advanceEvents))
  | update (.block read _) => inferInstanceAs (Decidable (read ∈ WorkOrderStatus.blockable))
  | update (.unblock backTo) => inferInstanceAs (Decidable (backTo ∈ WorkOrderStatus.blockable))
  | update .start | update (.reopen _) | update (.close _ _) => inferInstanceAs (Decidable True)
  | cancel _ | delete => inferInstanceAs (Decidable True)

def replays (remembers : Bool) (now : Now) : Announcement → Patch
  | update u => u.replays remembers now
  | cancel _ => drainReplays now
  | delete => { status := some .deleted }

end Announcement

/-- What may happen to a milestone: an operation on one of its work orders, an event that is ahead
of its row, or an attempt to close it. -/
inductive Deed
  | work (i : Nat) (o : Operation)
  | announce (i : Nat) (a : Announcement) (eventId : String) (now : Now)
  | close (w : Surface) (force : Bool) (now : Now)

structure Milestone where
  milestoneId : String
  head : Option MilestoneHead
  members : List Member

namespace Milestone

/-- What the queries of `close_milestone` return. -/
def works (s : Milestone) : List Listed :=
  s.members.filterMap fun m =>
    (m.mirror.row m.creation.workOrderId).map (⟨·, m.mirror.replica.log⟩)

def close (s : Milestone) (w : Surface) (force : Bool) (now : Now) : MilestoneReply :=
  closeMilestone s.milestoneId s.head s.works w force now

def start (remembers : Bool) (milestoneId : String) (head : Option MilestoneHead)
    (members : List (Creation × Mirror.Opening)) : Milestone where
  milestoneId := milestoneId
  head := head
  members := members.map fun (c, o) => ⟨c, .created remembers c o⟩

end Milestone

/-- The work orders of a milestone under the writers. -/
def undertaking (remembers : Bool) : Machine Milestone Deed where
  step s
    | .work i o => do
      let m ← s.members[i]?
      let mirror ← (writers remembers m.creation.workOrderId).step m.mirror o
      some { s with members := s.members.set i { m with mirror := mirror } }
    | .announce i a eventId now => do
      let m ← s.members[i]?
      let r ← m.mirror.row m.creation.workOrderId
      guard (m.mirror.Follows now eventId ∧ a.Sound)
      let replica := m.mirror.record m.creation.workOrderId id (a.emit r eventId now)
      some { s with members := s.members.set i { m with mirror := ⟨replica, now.iso⟩ } }
    | .close _ _ _ => some s

/-- The type of an event ends a work order. -/
def Ends (e : Event) : Prop :=
  ∃ type ∈ WorkOrderEventType.ofText e.eventType, type.statusFor ∈ WorkOrderStatus.terminal

def Over (log : List Event) : Prop := ∃ e ∈ log.getLast?, Ends e

section Step

variable {remembers : Bool} {clock : Nat} {workOrderId : String}

theorem over_concat {log : List Event} {e : Event} : Over (log ++ [e]) ↔ Ends e := by
  simp [Over]

theorem ends_iff {e : Event} (type : WorkOrderEventType) (text : e.eventType = type.text) :
    Ends e ↔ type.statusFor ∈ WorkOrderStatus.terminal := by
  simp [Ends, text, WorkOrderEventType.ofText_text]

def Followed (remembers : Bool) (clock : Nat) (workOrderId : String) (s : Mirror) : Prop :=
  ∃ r q p, WorkOrders.Tracked remembers clock workOrderId s r q p ∧
    (q.status ∈ WorkOrderStatus.terminal ↔ Over s.replica.log)

theorem terminal_target {u : Update} (sound : u.Sound) :
    u.target ∈ WorkOrderStatus.terminal ↔ u.event.statusFor ∈ WorkOrderStatus.terminal := by
  cases u with
  | unblock backTo =>
    have open_ : ∀ phase ∈ WorkOrderStatus.blockable, phase ∉ WorkOrderStatus.terminal := by decide
    have resumed : WorkOrderStatus.inProgress ∉ WorkOrderStatus.terminal := by decide
    exact iff_of_false (open_ backTo sound) resumed
  | _ => exact Iff.rfl

theorem replays_status (remembers : Bool) (now : Now) (u : Update) :
    (u.replays remembers now).status = some u.target := by
  cases u <;> rfl

theorem delete_acts (named : workOrderId ≠ "") {r : WorkOrderRow}
    (subject : r.workOrderId = some workOrderId) (eventId : String) (now : Now) :
    (workOrderHandler remembers workOrderId).Acts columns (deleteEmit r eventId now)
      (Patch.apply { status := some .deleted }) := by
  intro clock q own new
  have type : WorkOrderEventType.ofText (deleteEmit r eventId now).eventType = some .deleted := rfl
  change ∃ n r', handleWorkOrder remembers _ clock [q] = _ ∧ _
  rw [handleWorkOrder_own named own rfl (by simp) subject rfl (by simp [type])
    (isAlreadyProcessed_row.mpr new), type]
  exact upserts own rfl rfl rfl rfl rfl

variable {s t : Mirror}

theorem followed_of_record {r q q' : WorkOrderRow} {p p' : Patch} {e : Event}
    {status : WorkOrderStatus} (tracked : WorkOrders.Tracked remembers clock workOrderId t r q' p)
    (acted : columns q' = p'.apply (columns q)) (log : t.replica.log = s.replica.log ++ [e])
    (sets : p'.status = some status) (ends : status ∈ WorkOrderStatus.terminal ↔ Ends e) :
    Followed remembers clock workOrderId t := by
  have reached : q'.status = status := by
    have same : q'.status = p'.status.getD q.status := congrArg Columns.status acted
    rw [same, sets, Option.getD_some]
  exact ⟨r, q', p, tracked, by rw [reached, log, over_concat, ends]⟩

theorem update_ends {u : Update} (sound : u.Sound) (r : WorkOrderRow)
    (eventId : String) (now : Now) :
    u.target ∈ WorkOrderStatus.terminal ↔ Ends (u.emit r eventId now) :=
  (terminal_target sound).trans (ends_iff _ rfl).symm

theorem sync_log {pass : Option Nat} {a b : Replica WorkOrderTable Event}
    (synced : (workOrderHandler remembers workOrderId).sync pass a = some b) : b.log = a.log := by
  cases pass with
  | none =>
    cases synced
    rfl
  | some clock => exact (Handler.tick_pending synced).2

theorem followed_sync {pass : Option Nat} {after : Replica WorkOrderTable Event}
    (followed : Followed remembers clock workOrderId s)
    (synced : (workOrderHandler remembers workOrderId).sync pass s.replica = some after) :
    Followed remembers clock workOrderId { s with replica := after } := by
  obtain ⟨r, q, p, tracked, ends⟩ := followed
  obtain ⟨r', p', passed, -⟩ := tracked.sync synced
  exact ⟨r', q, p', passed, by rw [ends, sync_log synced]⟩

theorem followed_operation (named : workOrderId ≠ "") {o : Operation}
    (followed : Followed remembers clock workOrderId s)
    (step : (writers remembers workOrderId).step s o = some t) :
    Followed remembers clock workOrderId t := by
  obtain ⟨r, q, p, tracked, ends⟩ := followed
  cases o with
  | call c now eventId synced =>
    obtain ⟨follows, ⟨-, rfl⟩ | ⟨f, proceeds, after, synced, rfl⟩⟩ := call_cases tracked.row step
    · exact ⟨r, q, p, tracked, ends⟩
    · have sound : (f.update remembers r).Sound := update_sound proceeds
      obtain ⟨q', wrote, acted⟩ := tracked.wrote named sound follows
      have wrote := followed_of_record (s := s) wrote acted rfl (replays_status remembers now _)
        (update_ends sound r eventId now)
      exact followed_sync wrote synced
  | drain note reason now eventId =>
    obtain ⟨follows, rfl⟩ := drain_cases tracked.row step
    obtain ⟨q', drained, acted⟩ := tracked.drained named follows note reason
    exact followed_of_record (s := s) drained acted rfl rfl (ends_iff .cancelled rfl).symm
  | tick pass =>
    obtain ⟨after, synced, rfl⟩ := tick_cases step
    exact followed_sync ⟨r, q, p, tracked, ends⟩ synced

theorem announcement_acts (named : workOrderId ≠ "") {r : WorkOrderRow}
    (subject : r.workOrderId = some workOrderId) (eventId : String) (now : Now) {a : Announcement}
    (sound : a.Sound) :
    (workOrderHandler remembers workOrderId).Acts columns (a.emit r eventId now)
      (a.replays remembers now).apply := by
  cases a with
  | update u => exact emit_acts named subject eventId now sound
  | cancel reason => exact drain_acts named subject reason eventId now
  | delete => exact delete_acts named subject eventId now

theorem announcement_timely {a : Announcement} (sound : a.Sound) (now : Now) :
    (a.replays remembers now).Timely now.iso := by
  cases a with
  | update u => exact replays_timely sound
  | cancel reason => exact ⟨nofun, nofun, fun _ h => (Option.some.inj (Option.some.inj h)).symm⟩
  | delete => exact ⟨nofun, nofun, nofun⟩

variable (remembers) in
theorem announcement_ends {a : Announcement} (sound : a.Sound) (r : WorkOrderRow) (eventId : String)
    (now : Now) :
    ∃ status, (a.replays remembers now).status = some status ∧
      (status ∈ WorkOrderStatus.terminal ↔ Ends (a.emit r eventId now)) := by
  cases a with
  | update u => exact ⟨_, replays_status remembers now u, update_ends sound r eventId now⟩
  | cancel reason => exact ⟨_, rfl, (ends_iff .cancelled rfl).symm⟩
  | delete => exact ⟨_, rfl, (ends_iff .deleted rfl).symm⟩

theorem followed_announce (named : workOrderId ≠ "") {a : Announcement}
    {eventId : String} {now : Now} (followed : Followed remembers clock workOrderId s)
    (sound : a.Sound) (follows : s.Follows now eventId) {r : WorkOrderRow}
    (row : s.row workOrderId = some r) :
    Followed remembers clock workOrderId ⟨s.record workOrderId id (a.emit r eventId now),
      now.iso⟩ := by
  obtain ⟨r', q, p, tracked, -⟩ := followed
  obtain rfl := Option.some.inj (row.symm.trans tracked.row)
  have new : ∀ e' ∈ s.replica.log, e'.eventId ≠ (a.emit r eventId now).eventId := by
    cases a <;> exact follows.2
  obtain ⟨q', recorded, acted⟩ : ∃ q', WorkOrders.Tracked remembers clock workOrderId
      ⟨s.record workOrderId id (a.emit r eventId now), now.iso⟩ (id r) q'
      ((a.replays remembers now).after p) ∧
        columns q' = (a.replays remembers now).apply (columns q) :=
    tracked.record rfl rfl rfl (announcement_acts named tracked.tracks.own eventId now sound)
      (announcement_timely sound now) follows.1 new
  obtain ⟨status, sets, ends⟩ := announcement_ends remembers sound r eventId now
  exact followed_of_record (s := s) recorded acted rfl sets ends

theorem created_followed (remembers : Bool) (clock : Nat) (c : Creation) (o : Mirror.Opening) :
    Followed remembers clock c.workOrderId (.created remembers c o) := by
  obtain ⟨r, q, p, tracked, -⟩ := created_tracked remembers clock c o
  obtain ⟨priority, log⟩ : ∃ priority, (Mirror.created remembers c o).replica.log =
      [c.emit priority] := by
    cases o with
    | projected priority clock => exact ⟨some priority, rfl⟩
    | inserted => exact ⟨none, rfl⟩
  obtain ⟨q', replay, blank, -⟩ := created_projected remembers c priority clock
  have replayed := tracked.tracks.replay
  rw [log, replay] at replayed
  obtain rfl : q' = q := List.head_eq_of_cons_eq (Except.ok.inj replayed)
  have status : q'.status = creationStatus := congrArg Columns.status blank
  have over_ : Over (Mirror.created remembers c o).replica.log ↔
      creationStatus ∈ WorkOrderStatus.terminal := by
    rw [log]
    exact (over_concat : Over ([] ++ [_]) ↔ _).trans (ends_iff .created rfl)
  exact ⟨r, q', p, tracked, by rw [status, over_]⟩

end Step

section Runs

variable {remembers : Bool} {clock : Nat}

def Milestone.Followed (remembers : Bool) (clock : Nat) (s : Milestone) : Prop :=
  ∀ m ∈ s.members, Milestones.Followed remembers clock m.creation.workOrderId m.mirror

def Member.Ended (remembers : Bool) (clock : Nat) (m : Member) : Bool :=
  match (workOrderHandler remembers m.creation.workOrderId).project clock
    m.mirror.replica.log [] with
  | .ok t => t.all (·.status ∈ WorkOrderStatus.terminal)
  | .error _ => false

theorem ended_iff {m : Member}
    (followed : Followed remembers clock m.creation.workOrderId m.mirror) :
    m.Ended remembers clock = true ↔ Over m.mirror.replica.log := by
  obtain ⟨r, q, p, tracked, ends⟩ := followed
  rw [Member.Ended, tracked.tracks.replay, ← ends]
  simp [workOrderHandler]

theorem Milestone.Followed.set {s : Milestone} (followed : s.Followed remembers clock) {i : Nat}
    {m m' : Member} (same : m'.creation = m.creation)
    (next : Milestones.Followed remembers clock m.creation.workOrderId m'.mirror) :
    Milestone.Followed remembers clock { s with members := s.members.set i m' } := by
  intro x member
  rcases List.mem_or_eq_of_mem_set member with old | rfl
  · exact followed x old
  · rw [same]
    exact next

theorem followed_step {s t : Milestone} {l : Deed} (followed : s.Followed remembers clock)
    (step : (undertaking remembers).step s l = some t) : t.Followed remembers clock := by
  cases l with
  | work i o =>
    simp only [undertaking, Option.bind_eq_bind, Option.bind_eq_some_iff] at step
    obtain ⟨m, at_, mirror, stepped, step⟩ := step
    obtain rfl := Option.some.inj step
    have before := followed m (List.mem_of_getElem? at_)
    exact followed.set rfl (followed_operation m.creation.named before stepped)
  | announce i a eventId now =>
    simp only [undertaking, Option.bind_eq_bind, Option.bind_eq_some_iff,
      Option.guard_eq_some'] at step
    obtain ⟨m, at_, r, row, -, ⟨follows, sound⟩, step⟩ := step
    obtain rfl := Option.some.inj step
    have before := followed m (List.mem_of_getElem? at_)
    exact followed.set rfl (followed_announce m.creation.named before sound follows row)
  | close w force now =>
    obtain rfl := Option.some.inj step
    exact followed

/-- A close that goes through finds every work order of the milestone over. -/
def OverAll (remembers : Bool) (clock : Nat) (s : Milestone) : Deed → Prop
  | .close w force now =>
    (s.close w force now).ok = true → ∀ m ∈ s.members, m.Ended remembers clock = true
  | _ => True

/-- A close that something holds up, or that no work order has been taken up again before: the
milestone is not there, a work order of it is open by its row and was never closed, an audit objects
and nobody insists, or the last event about each of its work orders is an end. -/
def Milestone.Settled (s : Milestone) : Deed → Prop
  | .close w force _ =>
    s.head = none ∨ (∃ l ∈ s.works, l.open_ = true) ∨
      (w.evaluateMilestoneArtifacts s.milestoneId
        (s.works.any fun l => w.isUiBearing l.row.workOrderType) ≠ [] ∧ force = false) ∨
      ∀ m ∈ s.members, Over m.mirror.replica.log
  | _ => True

instance (s : Milestone) : (l : Deed) → Decidable (OverAll remembers clock s l)
  | .close _ _ _ => inferInstanceAs (Decidable (_ → _))
  | .work _ _ | .announce _ _ _ _ => inferInstanceAs (Decidable True)

theorem overAll_iff {s : Milestone} (followed : s.Followed remembers clock) (l : Deed) :
    OverAll remembers clock s l ↔ s.Settled l := by
  cases l with
  | close w force now =>
    have ended : (∀ m ∈ s.members, m.Ended remembers clock = true) ↔
        ∀ m ∈ s.members, Over m.mirror.replica.log :=
      forall₂_congr fun m member => ended_iff (followed m member)
    simp only [OverAll, Milestone.Settled, Milestone.close, closeMilestone_ok, ended]
    constructor
    · intro holds
      by_contra unsettled
      simp only [not_or, not_and, not_exists, Bool.not_eq_true, Bool.not_eq_false,
        ne_eq] at unsettled
      obtain ⟨found, closed, audited, open_⟩ := unsettled
      refine open_ (holds ⟨found, closed, ?_⟩)
      by_cases clean : w.evaluateMilestoneArtifacts s.milestoneId
          (s.works.any fun l => w.isUiBearing l.row.workOrderType) = []
      · exact Or.inl clean
      · exact Or.inr (audited clean)
    · rintro settled ⟨found, closed, audited⟩
      rcases settled with absent | ⟨l, listed, still⟩ | ⟨failures, unforced⟩ | over_
      · exact absurd absent found
      · rw [closed l listed] at still
        cases still
      · rcases audited with clean | forced
        · exact absurd clean failures
        · rw [unforced] at forced
          cases forced
      · exact over_
  | _ => exact Iff.rfl

/-- No close of a run completes the milestone while work is open exactly when each finds it
settled. -/
theorem overAll_iff_settled (remembers : Bool) (clock : Nat) (milestoneId : String)
    (head : Option MilestoneHead) (members : List (Creation × Mirror.Opening)) (ls : List Deed) :
    (∀ x ∈ (undertaking remembers).transitions (.start remembers milestoneId head members) ls,
      OverAll remembers clock x.before x.label) ↔
    ∀ x ∈ (undertaking remembers).transitions (.start remembers milestoneId head members) ls,
      x.before.Settled x.label := by
  have start : (Milestone.start remembers milestoneId head members).Followed remembers clock := by
    intro m member
    obtain ⟨⟨c, o⟩, -, rfl⟩ := List.mem_map.mp member
    exact created_followed remembers clock c o
  have followed := (undertaking remembers).invariant (J := Milestone.Followed remembers clock)
    (fun _ _ _ held step => followed_step held step) start ls
  exact forall₂_congr fun x member => overAll_iff (followed x member).1 x.label

def cleanSurface : Surface where
  py := bareStdlib
  scores _ := []
  uiBearing := []
  audit name :=
    if name = "security-audit.md" ∨ name = "harden-results.md" then some ⟨"PASSED", none⟩ else none

def reopenedRun : List Deed :=
  let at_ (n : Nat) (c : WorkOrders.Call) : Deed :=
    .work 0 (.call c ⟨"2026-09-24T11:00:0" ++ toString n ++ "+00:00", n⟩
      ("w-" ++ toString n) (some 0))
  let unasked : Review.ReviewStatus :=
    ⟨false, none, none, none, [], [], [], [], [], [], [], [], false⟩
  [at_ 1 (.start none none), at_ 2 (.advance "in_review" unasked none),
    at_ 3 (.advance "pushed" unasked none), at_ 4 (.close none "" false),
      at_ 5 (.reopen "regressed"),
    .close cleanSurface false ⟨"2026-09-24T12:00:00+00:00", 9⟩]

theorem reopened_not_over :
    ¬∀ x ∈ (undertaking true).transitions
        (.start true "m-1" (some ⟨"m-1", "p-1", "Parser"⟩) [(spawned, .inserted)]) reopenedRun,
      OverAll true 0 x.before x.label := by decide +kernel

end Runs

end DreamStudio.Milestones
