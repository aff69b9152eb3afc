import DreamStudio.Hooks.Session

namespace DreamStudio.Hooks

open Library

section Stop

abbrev Stamps := List (Option Instant)

/-- What the five probes bring for one work order; `none` is a query that failed. -/
structure Signals where
  doneTasks : Option (List Stamps)
  createdTasks : Option (List Stamps)
  artifacts : Option (List Stamps)
  statuses : Option (List String)
  events : Option (List Stamps)

def inWindow (since : Instant) (rows : Option (List Stamps)) : Bool :=
  (rows.getD []).any fun row => (row.findSome? id).any (since ≤ ·)

def Signals.answered (s : Signals) : Nat :=
  s.doneTasks.toList.length + s.createdTasks.toList.length + s.artifacts.toList.length +
    s.statuses.toList.length + s.events.toList.length

/-- `authority_write_since` behind its checks of the window and of the connection. -/
def Signals.landed (since : Instant) (s : Signals) : Bool :=
  inWindow since s.doneTasks || inWindow since s.createdTasks || inWindow since s.artifacts ||
    (s.statuses.getD []).any (["closed", "cancelled"].contains ·) || inWindow since s.events ||
      s.answered == 0

variable (authority : String → Option Signals) (incompleteTaskCount : String → Option Nat)

def authorityWriteSince (workOrderId : String) (since : Option Instant) : Bool :=
  match since with
  | none => true
  | some since => (authority workOrderId).all (·.landed since)

def incompleteTaskCountOr (workOrderId : String) : Nat := (incompleteTaskCount workOrderId).getD 1

def sharedViolation (claimants : List String) : String :=
  "Product source was edited under work orders whose module boundaries both cover it (" ++
    ", ".intercalate claimants ++
    ") but no authority write was recorded this session for any of them." ++
    match claimants.filter (0 < incompleteTaskCountOr incompleteTaskCount ·) with
    | markable :: _ =>
      " A write to ANY ONE satisfies this. Mark completed tasks: ds work-order tasks " ++
        markable ++
        " then ds work-order task-done " ++ markable ++ " <task_id>."
    | [] =>
      " Every task on all of them is already complete, so there is nothing to mark done. If this edit is NEW" ++
        " work, register it against the one it belongs to: ds work-order add-task " ++
          claimants.headD "" ++
        " --title ... --acceptance TEST-CHECK:... A write to ANY ONE satisfies this."

def singleViolation (workOrderId : String) : String :=
  "Product source was edited under work order " ++ workOrderId ++
    " but no authority write was recorded this session." ++
    if incompleteTaskCountOr incompleteTaskCount workOrderId = 0 then
      " Every task on it is already complete, so there is nothing to mark done. If this edit is NEW work," ++
        " register it: ds work-order add-task " ++ workOrderId ++
        " --title ... --acceptance TEST-CHECK:... That records it and satisfies this. If the work is finished," ++
        " close it once its gates pass: ds work-order close " ++ workOrderId ++ "."
    else
      " Mark completed tasks: ds work-order tasks " ++ workOrderId ++
        " then ds work-order task-done " ++
        workOrderId ++ " <task_id> (or close: ds work-order close " ++ workOrderId ++ ")."

def Edit.claimed (entry : Edit) (workOrderId : String) : List String :=
  (if entry.claimants = [] then [workOrderId] else entry.claimants).filter (· ≠ "")

def Edit.violation (since : Option Instant) (entry : Edit) (workOrderId : String) : Option String :=
  let claimants := entry.claimed workOrderId
  if claimants.any (authorityWriteSince authority · since) then none
  else if 1 < claimants.length then some (sharedViolation incompleteTaskCount claimants)
  else if entry.attribution ≠ some "module_boundary" then none
  else some (singleViolation incompleteTaskCount workOrderId)

def claimKey (claimants : List String) : String :=
  "|".intercalate (claimants.mergeSort (fun a b => decide (a ≤ b)))

def violationsFrom (since : Option Instant) : List String → List Edit → List String
  | _, [] => []
  | checked, entry :: entries =>
    match given entry.workOrderId with
    | none => violationsFrom since checked entries
    | some workOrderId =>
      let key := claimKey (entry.claimed workOrderId)
      if key ∈ checked then violationsFrom since checked entries
      else (entry.violation authority incompleteTaskCount since workOrderId).toList ++
        violationsFrom since (key :: checked) entries

def authorityViolations (s : Session) : List String :=
  violationsFrom authority incompleteTaskCount s.startedAt [] (s.sourceEdits.getD [])

theorem violationsFrom_none (entries : List Edit) (checked : List String)
    (claimed : ∀ e ∈ entries, ∀ workOrderId, given e.workOrderId = some workOrderId →
      e.claimed workOrderId ≠ []) :
    violationsFrom authority incompleteTaskCount none checked entries = [] := by
  induction entries generalizing checked with
  | nil => rfl
  | cons e es ih =>
    have later (checked : List String) :=
      ih checked fun x member => claimed x (List.mem_cons_of_mem _ member)
    cases owner : given e.workOrderId with
    | none => simp only [violationsFrom, owner, later]
    | some workOrderId =>
      have waived : e.violation authority incompleteTaskCount none workOrderId = none := by
        have some : (e.claimed workOrderId).any (authorityWriteSince authority · none) = true := by
          obtain ⟨c, member⟩ := List.exists_mem_of_ne_nil
            _ (claimed e List.mem_cons_self workOrderId owner)
          exact List.any_eq_true.mpr ⟨c, member, rfl⟩
        simp only [Edit.violation, some, if_true]
      simp only [violationsFrom, owner, waived, later, Option.toList_none,
        List.nil_append, ite_self]

theorem authorityViolations_undated {s : Session} (undated : s.startedAt = none)
    (claimed : ∀ e ∈ s.sourceEdits.getD [], ∀ workOrderId, given e.workOrderId = some workOrderId →
      e.claimed workOrderId ≠ []) : authorityViolations authority incompleteTaskCount s = [] := by
  rw [authorityViolations, undated]
  exact violationsFrom_none authority incompleteTaskCount _ [] claimed

end Stop

section Armed

/-- A source edit stands beside a start that is no later than the edit. -/
def Session.Armed (s : Session) : Prop :=
  ∀ e ∈ s.sourceEdits.getD [], ∃ t, s.startedAt = some t ∧ t ≤ e.ts

def SessionFile.Armed (f : SessionFile) : Prop := ∀ s, f = .holds s → s.Armed

theorem Session.Armed.window {s : Session} (armed : s.Armed) {e : Edit}
    (member : e ∈ s.sourceEdits.getD []) (authority : String → Option Signals) :
    ∃ t ≤ e.ts, ∀ workOrderId,
      authorityWriteSince authority workOrderId s.startedAt =
        (authority workOrderId).all (·.landed t) := by
  obtain ⟨t, started, before⟩ := armed e member
  exact ⟨t, before, fun workOrderId => by rw [started]; rfl⟩

variable (resolve : String → Option String) (sessionId : String)

def Takes (path : String) (bucket : List Edit) : Prop :=
  (∃ e ∈ bucket, e.path = path) ∨ bucket.length < bucketLimit

theorem renewFirst_eq_none_iff {e : EditArgs} {now : Instant} {path : String} {bucket : List Edit} :
    renewFirst e now path bucket = none ↔ ∀ x ∈ bucket, x.path ≠ path := by
  induction bucket with
  | nil => simp [renewFirst]
  | cons x xs ih =>
    by_cases here : x.path = path
    · simp [renewFirst, here]
    · simp [renewFirst, here, ih]

theorem mem_of_renewFirst {e : EditArgs} {now : Instant} {path : String}
    {bucket renewed : List Edit} (found : renewFirst e now path bucket = some renewed) :
    (∀ y ∈ renewed, y ∈ bucket ∨ y.ts = now) ∧ ∃ y ∈ renewed, y.ts = now := by
  induction bucket generalizing renewed with
  | nil => cases found
  | cons x xs ih =>
    by_cases here : x.path = path
    · simp only [renewFirst, here, if_true, Option.some.injEq] at found
      subst found
      refine ⟨?_, e.renew now x, List.mem_cons_self, rfl⟩
      intro y member
      rcases List.mem_cons.mp member with rfl | later
      · exact .inr rfl
      · exact .inl (List.mem_cons_of_mem _ later)
    · simp only [renewFirst, here, if_false, Option.map_eq_some_iff] at found
      obtain ⟨tail, found, rfl⟩ := found
      obtain ⟨old, y, member, fresh⟩ := ih found
      refine ⟨?_, y, List.mem_cons_of_mem _ member, fresh⟩
      intro z member
      rcases List.mem_cons.mp member with rfl | later
      · exact .inl List.mem_cons_self
      · exact (old z later).imp_left (List.mem_cons_of_mem _)

theorem mem_recordIn {e : EditArgs} {now : Instant} {bucket : List Edit} {y : Edit}
    (member : y ∈ recordIn resolve e now bucket) : y ∈ bucket ∨ y.ts = now := by
  cases found : renewFirst e now (normalized resolve e) bucket with
  | some renewed =>
    rw [recordIn, found] at member
    exact (mem_of_renewFirst found).1 y member
  | none =>
    simp only [recordIn, found] at member
    split at member
    · rcases List.mem_append.mp member with old | new
      · exact .inl old
      · exact .inr (List.mem_singleton.mp new ▸ rfl)
    · exact .inl member

theorem exists_recordIn_of_takes {e : EditArgs} {bucket : List Edit}
    (takes : Takes (normalized resolve e) bucket) (now : Instant) :
    ∃ y ∈ recordIn resolve e now bucket, y.ts = now := by
  cases found : renewFirst e now (normalized resolve e) bucket with
  | some renewed =>
    simp only [recordIn, found]
    exact (mem_of_renewFirst found).2
  | none =>
    have room : bucket.length < bucketLimit := takes.resolve_left fun ⟨x, member, same⟩ =>
      renewFirst_eq_none_iff.mp found x member same
    simp only [recordIn, found, room, if_true]
    exact ⟨e.entry resolve now, List.mem_append_right _ List.mem_cons_self, rfl⟩

theorem recordIn_of_not_takes {e : EditArgs} {bucket : List Edit}
    (full : ¬Takes (normalized resolve e) bucket) (now : Instant) :
    recordIn resolve e now bucket = bucket := by
  simp only [Takes, not_or, not_exists, not_and] at full
  rw [recordIn, renewFirst_eq_none_iff.mpr full.1]
  exact if_neg full.2

/-- What a source edit needs of the session it is recorded in. -/
def Session.Opened (path : String) (now : Instant) (s : Session) : Prop :=
  ∃ t, s.startedAt = some t ∧ (Takes path (s.sourceEdits.getD []) → t ≤ now)

theorem Session.record_armed_iff {e : EditArgs} (source : e.kind = .source)
    (now : Instant) {s : Session} (armed : s.Armed) : (s.record resolve e now).Armed ↔
      s.Opened (normalized resolve e) now := by
  have edits : (s.record resolve e now).sourceEdits.getD [] =
      recordIn resolve e now (s.sourceEdits.getD []) := by
    rw [Session.record, source, Option.getD_some]
  have started : (s.record resolve e now).startedAt = s.startedAt := by
    rw [Session.record, source]
  rw [Session.Armed, edits, started]
  by_cases takes : Takes (normalized resolve e) (s.sourceEdits.getD [])
  · constructor
    · intro all
      obtain ⟨y, member, rfl⟩ := exists_recordIn_of_takes resolve takes now
      obtain ⟨t, dated, before⟩ := all y member
      exact ⟨t, dated, fun _ => before⟩
    · rintro ⟨t, dated, before⟩ y member
      rcases mem_recordIn resolve member with old | rfl
      · exact armed y old
      · exact ⟨t, dated, before takes⟩
  · rw [recordIn_of_not_takes resolve takes]
    refine ⟨fun _ => ?_, fun _ => armed⟩
    have full : s.sourceEdits.getD [] ≠ [] := by
      intro empty
      exact takes (.inr (by rw [empty]; decide))
    obtain ⟨y, member⟩ := List.exists_mem_of_ne_nil _ full
    obtain ⟨t, dated, -⟩ := armed y member
    exact ⟨t, dated, fun impossible => absurd impossible takes⟩

theorem Session.record_doc_armed {e : EditArgs} (doc : e.kind = .doc) (now : Instant) {s : Session}
    (armed : s.Armed) : (s.record resolve e now).Armed := by
  rw [Session.record, doc]
  exact armed

theorem holds_of_found {disk : Disk} {f : SessionFile} {s : Session}
    (here : found disk f = some s) : f = .holds s := by
  cases f with
  | holds s' =>
    obtain ⟨loaded, -⟩ := Option.filter_eq_some_iff.mp here
    simp only [loadSession, Option.ite_none_right_eq_some, Option.some.injEq] at loaded
    rw [loaded.2]
  | absent | unreadable => cases here

theorem found_armed {f : SessionFile} (armed : f.Armed) {disk : Disk} {s : Session}
    (here : found disk f = some s) :
    s.Armed :=
  armed s (holds_of_found here)

theorem saveSession_armed_iff {f : SessionFile} (armed : f.Armed) (disk : Disk) (s : Session) :
    (saveSession disk s f).Armed ↔ (disk.save = .done → s.Armed) := by
  cases saved : disk.save with
  | done => simp [saveSession, saved, SessionFile.Armed]
  | refused => simp [saveSession, saved, armed]
  | torn => simp [saveSession, saved, SessionFile.Armed]

def opening (opened : Instant) (disk : Disk) (f : SessionFile) : Session :=
  (found disk f).getD (freshSession sessionId opened)

/-- A source edit that is saved is recorded in a session that says when it started, and not later
than the clock says now. -/
def SessionCall.Opened (f : SessionFile) : SessionCall → Prop
  | .edit e opened now disk => e.kind = .source → disk.save = .done →
      (opening sessionId opened disk f).Opened (normalized resolve e) now
  | _ => True

theorem opening_armed {f : SessionFile} (armed : f.Armed) (opened : Instant) (disk : Disk) :
    (opening sessionId opened disk f).Armed := by
  cases here : found disk f with
  | some s =>
    rw [opening, here]
    exact found_armed armed here
  | none =>
    rw [opening, here]
    intro e member
    cases member

theorem recordEdit_armed_iff {f : SessionFile} (armed : f.Armed) (e : EditArgs)
    (opened now : Instant) (disk : Disk) :
    (recordEdit resolve sessionId e opened now disk f).Armed ↔
      (SessionCall.edit e opened now disk).Opened resolve sessionId f := by
  have before := opening_armed sessionId armed opened disk
  rw [recordEdit, saveSession_armed_iff armed]
  cases kind : e.kind with
  | source =>
    refine ⟨fun all _ saved => ?_, fun all saved => ?_⟩
    · exact (Session.record_armed_iff resolve kind now before).mp (all saved)
    · exact (Session.record_armed_iff resolve kind now before).mpr (all kind saved)
  | doc =>
    refine ⟨fun _ source => ?_, fun _ _ => Session.record_doc_armed resolve kind now before⟩
    cases kind.symm.trans source

theorem recordSkillPosture_armed {f : SessionFile} (armed : f.Armed) (mode posture : String)
    (now : Instant) (disk : Disk) :
    (recordSkillPosture sessionId mode posture now disk f).Armed := by
  rw [recordSkillPosture]
  split
  · exact armed
  · refine (saveSession_armed_iff armed disk _).mpr fun _ => ?_
    have found_armed : ((found disk f).getD {}).Armed := by
      cases here : found disk f with
      | some s => exact found_armed armed here
      | none => exact nofun
    exact found_armed

theorem SessionCall.apply_armed_iff {f : SessionFile} (armed : f.Armed) (call : SessionCall) :
    (call.apply resolve sessionId f).Armed ↔ call.Opened resolve sessionId f := by
  cases call with
  | posture mode declared now disk =>
    exact iff_of_true (recordSkillPosture_armed sessionId armed mode declared now disk) trivial
  | edit e opened now disk => exact recordEdit_armed_iff resolve sessionId armed e opened now disk
  | delete unlink =>
    refine iff_of_true ?_ trivial
    rw [SessionCall.apply, deleteSession]
    split
    · exact nofun
    · exact armed

/-- The session data keeps every source edit in a window exactly as long as each saved source edit
finds a start, or no session. In a state that keeps them the stop hook asks about a real window, in
one without a start it has nothing to say. -/
theorem session_armed_iff (calls : List SessionCall) :
    ((∀ x ∈ (session resolve sessionId).transitions .absent calls, x.after.Armed) ↔
      ∀ x ∈ (session resolve sessionId).transitions .absent calls, x.label.Opened resolve
        sessionId x.before) ∧
      ∀ x ∈ (session resolve sessionId).transitions .absent calls, ∀ s, x.after = .holds s →
        ∀ (authority : String → Option Signals) (incompleteTaskCount : String → Option Nat),
          (x.after.Armed → ∀ e ∈ s.sourceEdits.getD [], ∃ t ≤ e.ts, ∀ workOrderId,
            authorityWriteSince authority workOrderId s.startedAt =
              (authority workOrderId).all (·.landed t)) ∧
          (s.startedAt = none → (∀ e ∈ s.sourceEdits.getD [], ∀ workOrderId,
            given e.workOrderId = some workOrderId → e.claimed workOrderId ≠ []) →
              authorityViolations authority incompleteTaskCount s = []) := by
  constructor
  · exact (session resolve sessionId).forall_after_iff_forall_guard (J := fun _ => True)
      (fun _ _ _ _ _ => trivial)
      (fun _ call _ _ armed step => Option.some.inj step ▸ SessionCall.apply_armed_iff resolve
        sessionId armed call)
      trivial nofun calls
  · intro x _ s here authority incompleteTaskCount
    constructor
    · exact fun armed e member => (armed s here).window member authority
    · exact fun undated claimed => authorityViolations_undated authority _ undated claimed

def disarmingCalls : List SessionCall :=
  [.posture "quality:coach" "read-only" 1 {},
    .edit { filePath := "core/a.py", kind := .source, projectId := "p", workOrderId := some "w",
            attribution := some "module_boundary" } 2 2 {}]

/-- The edit is recorded beside no start at all. -/
theorem posture_disarms : ¬∀ (resolve : String → Option String) (sessionId : String)
    (calls : List SessionCall),
    ∀ x ∈ (session resolve sessionId).transitions .absent calls, x.after.Armed := by
  intro all
  let disarmed : Session :=
    { activeSkillPosture := some ⟨"quality:coach", "read-only", 1⟩
      sourceEdits := some [⟨"core/a.py", "p", some "w", ["w"], some "module_boundary", 2⟩] }
  have reached : SessionFile.holds disarmed ∈
      ((session some "s").transitions .absent disarmingCalls).map (·.after) := by decide +kernel
  obtain ⟨x, member, same⟩ := List.mem_map.mp reached
  obtain ⟨t, started, -⟩ := all some "s" disarmingCalls x member disarmed same _ List.mem_cons_self
  cases started

end Armed

end DreamStudio.Hooks
