import DreamStudio.Emitters.Attribution
import DreamStudio.Emitters.Charged
import DreamStudio.Hooks.Parity
import DreamStudio.Library.Machine
import DreamStudio.WorkOrders.Dependencies

namespace DreamStudio.Emitters

open Library Projections WorkOrders Spool Hooks

/-- A project as its markers name it: the id is a UUID. -/
structure MarkedProject where
  id : String
  given : id ≠ ""

/-- What an emission finds: a marker of the project, an authority it can read, the transcript. -/
structure Place where
  marked : Bool
  authority : Bool
  reads : Bool

/-- The work orders, what went through the emitters, with every response the work orders in progress
when it was produced, and with every tool call those of the response it records. -/
structure Stage where
  plan : DependencyPlan
  unique : Table.Unique WorkOrderRow.key plan.works
  happenings : List Happening := []
  produced : List (String × List Text) := []
  records : List (List Text) := []

/-- The `k` of a tool call counts the responses. -/
inductive Move
  | call (workOrderId : String) (c : WorkOrders.Call) (now : Now)
  | respond (l : ResponseLine)
  | tool (call : ToolCall) (k : Nat) (place : Place)
  | stop (place : Place) (tasks : List TaskRow)

section Machine

variable (py : Interpreter) (env : HookEnv) (remembers : Bool) (project : MarkedProject)

namespace Stage

def ongoing (s : Stage) : List WorkOrderRow := inProgress project.id s.plan.works

def readable (s : Stage) (place : Place) : Readable :=
  if place.authority then some ⟨s.plan.works, s.unique⟩ else none

def projectId (place : Place) : Text := if place.marked then some project.id else none

def toolStamp (s : Stage) (place : Place) : Stamp :=
  resolveAttribution (projectId project place) (s.readable place)

def turnStamp (s : Stage) (place : Place) (tasks : List TaskRow) : Stamp :=
  stopStamp env (projectId project place) (s.readable place) tasks

end Stage

/-- A response brings a line of its own, and a tool call records a response there has been. -/
def charging : Machine Stage Move where
  step s
    | .call workOrderId c now =>
      some { s with
        plan := s.plan.call remembers workOrderId c now
        unique := call_unique s.unique }
    | .respond l =>
      if l.uuid = "" ∨ l.uuid ∈ s.produced.map Prod.fst then none
      else
        some { s with
          happenings := s.happenings ++ [.line l]
          produced := s.produced ++ [(l.uuid, (s.ongoing project).map (·.workOrderId))] }
    | .tool call k place =>
      (s.produced[k]?).map fun p =>
        { s with
          happenings := s.happenings ++ [.tool call (s.toolStamp project place) place.reads]
          records := s.records ++ [p.2] }
    | .stop place tasks =>
      some { s with happenings :=
        s.happenings ++ [.stop (s.turnStamp env project place tasks) place.reads] }

namespace Stage

variable (s : Stage)

def world : World := World.run py s.happenings

def tally : Tally := Tally.run s.happenings

/-- The events under distinct ids, each as it was first emitted. -/
def events : List TokenEvent := firsts eventKey [] (s.world py).events

def moment : EventId → List Text
  | .turn uid => ((s.produced.find? fun p => p.1 = uid).map Prod.snd).getD []
  | .drawn n => s.records[n]?.getD []

/-- An event names a work order only if that was in progress at the moment of its response, and no
other. -/
def Fair (e : TokenEvent) : Prop :=
  ∀ w, e.stamp.workOrderId = some w →
    some w ∈ s.moment e.eventId ∧ ¬ 2 ≤ (s.moment e.eventId).length

/-- No event is charged by guess. -/
def Faithful : Prop := ∀ e ∈ s.events py, s.Fair e

/-- The moves that charge nothing by guess. A tool call that finds one work order in progress wants
it to be the one of its response; a Stop that finds any wants the newest to be the one of every
response it is the first to read. -/
def Certain : Move → Prop
  | .call .. | .respond _ => True
  | .tool call k place =>
    place.marked → place.authority → call.usage ≠ 0 → ∀ p, s.produced[k]? = some p →
      ∀ r w, s.ongoing project = [r] → r.workOrderId = some w → p.2 = [some w]
  | .stop place _ =>
    place.reads → place.marked → place.authority → ∀ l ∈ s.tally.unread, l.usage ≠ 0 →
      ∀ r w, Newest (s.ongoing project) r → r.workOrderId = some w → w ≠ "" →
        s.moment (.turn l.uuid) = [some w]

end Stage

end Machine

theorem World.run_append (py : Interpreter) (hs : List Happening) (h : Happening) :
    World.run py (hs ++ [h]) = (World.run py hs).step py h := by
  rw [World.run, List.foldl_append]
  rfl

theorem Tally.run_append (hs : List Happening) (h : Happening) :
    Tally.run (hs ++ [h]) = (Tally.run hs).step h := by
  rw [Tally.run, List.foldl_append]
  rfl

theorem sole_iff (w : String) (moment : List Text) :
    (some w ∈ moment ∧ ¬ 2 ≤ moment.length) ↔ moment = [some w] := by
  constructor
  · rintro ⟨member, few⟩
    match moment with
    | [v] => rw [List.mem_singleton.mp member]
    | _ :: _ :: _ => exact absurd (Nat.le_add_left 2 _) few
  · rintro rfl
    exact ⟨List.mem_singleton_self _, Nat.not_succ_le_self 1⟩

/-- What every stage keeps: responses have uuids of their own, and ids are drawn for tool calls
only. -/
structure Tracked (py : Interpreter) (s : Stage) : Prop where
  kept : Kept py (s.world py) s.tally
  lines : s.tally.all.map ResponseLine.uuid = s.produced.map Prod.fst
  distinct : (s.produced.map Prod.fst).Nodup
  drawn : (s.world py).drawn = s.records.length

namespace Tracked

variable {py : Interpreter} {s t : Stage}

theorem uuids (tracked : Tracked py s) : (s.tally.all.map ResponseLine.uuid).Nodup := by
  rw [tracked.lines]
  exact tracked.distinct

theorem mem_keys {e : TokenEvent} (member : e ∈ s.events py) :
    e.eventId ∈ (s.world py).events.filterMap eventKey :=
  List.mem_filterMap.mpr ⟨e, (firsts_sublist eventKey [] _).subset member, rfl⟩

theorem moment_eq (tracked : Tracked py s) {new : List (String × List Text)}
    {new' : List (List Text)} (produced : t.produced = s.produced ++ new)
    (records : t.records = s.records ++ new') {e : TokenEvent} (member : e ∈ s.events py) :
    t.moment e.eventId = s.moment e.eventId := by
  have key := mem_keys member
  cases id : e.eventId with
  | turn uid =>
    rw [id] at key
    obtain ⟨l, read, rfl⟩ := tracked.kept.of_read uid key
    have known : l.uuid ∈ s.produced.map Prod.fst := by
      rw [← tracked.lines]
      exact List.mem_map_of_mem (List.mem_append_left _ read)
    obtain ⟨p, member, same⟩ := List.mem_map.mp known
    have found : (s.produced.find? fun p => p.1 = l.uuid).isSome :=
      List.find?_isSome.mpr ⟨p, member, decide_eq_true same⟩
    rw [Stage.moment, Stage.moment, produced, List.find?_append, Option.or_of_isSome found]
  | drawn n =>
    rw [id] at key
    have old : n < s.records.length := tracked.drawn ▸ tracked.kept.fresh n key
    rw [Stage.moment, Stage.moment, records, List.getElem?_append_left old]

theorem faithful_iff (tracked : Tracked py s) {new : List (String × List Text)}
    {new' : List (List Text)} (produced : t.produced = s.produced ++ new)
    (records : t.records = s.records ++ new') {added : List TokenEvent}
    (events : t.events py = s.events py ++ added) (faithful : s.Faithful py) :
    t.Faithful py ↔ ∀ e ∈ added, ∀ w, e.stamp.workOrderId = some w →
      t.moment e.eventId = [some w] := by
  have old (e : TokenEvent) (member : e ∈ s.events py) : t.Fair e := by
    intro w named
    rw [tracked.moment_eq produced records member]
    exact faithful e member w named
  rw [Stage.Faithful, events]
  constructor
  · intro all e member w named
    exact (sole_iff w _).mp (all e (List.mem_append_right _ member) w named)
  · intro sole e member
    rcases List.mem_append.mp member with member | member
    · exact old e member
    · exact fun w named => (sole_iff w _).mpr (sole e member w named)

end Tracked

section Steps

variable {py : Interpreter} {env : HookEnv} {remembers : Bool}
    {project : MarkedProject} {s t : Stage}

theorem charging_tracked (tracked : Tracked py s) {m : Move}
    (step : (charging env remembers project).step s m = some t) : Tracked py t := by
  cases m with
  | call workOrderId c now =>
    cases step
    exact ⟨tracked.kept, tracked.lines, tracked.distinct, tracked.drawn⟩
  | respond l =>
    simp only [charging] at step
    split at step
    · cases step
    · next new =>
      obtain ⟨given, fresh⟩ := not_or.mp new
      cases step
      have world : World.run py (s.happenings ++ [.line l]) = (s.world py).step py (.line l) :=
        World.run_append py s.happenings _
      have tally : Tally.run (s.happenings ++ [.line l]) = s.tally.step (.line l) :=
        Tally.run_append s.happenings _
      refine ⟨?_, ?_, ?_, ?_⟩
      · rw [Stage.world, Stage.tally, world, tally]
        exact tracked.kept.line given
      · rw [Stage.tally, tally, Tally.all_step, List.map_append, tracked.lines, List.map_append]
        rfl
      · rw [List.map_append]
        refine List.nodup_append.mpr ⟨tracked.distinct, List.nodup_singleton _, ?_⟩
        intro u member v single same
        rw [List.map_singleton, List.mem_singleton] at single
        rw [same, single] at member
        exact fresh member
      · rw [Stage.world, world]
        exact tracked.drawn
  | tool call k place =>
    obtain ⟨p, -, rfl⟩ := Option.map_eq_some_iff.mp step
    refine ⟨?_, ?_, tracked.distinct, ?_⟩
    · rw [Stage.world, Stage.tally, World.run_append, Tally.run_append]
      exact tracked.kept.tool call _ _
    · rw [Stage.tally, Tally.run_append, Tally.all_step]
      change (s.tally.all ++ []).map _ = _
      rw [List.append_nil]
      exact tracked.lines
    · rw [Stage.world, World.run_append, List.length_append]
      exact congrArg (· + 1) tracked.drawn
  | stop place tasks =>
    cases step
    refine ⟨?_, ?_, tracked.distinct, ?_⟩
    · rw [Stage.world, Stage.tally, World.run_append, Tally.run_append]
      exact tracked.kept.stop tracked.uuids _ _
    · rw [Stage.tally, Tally.run_append, Tally.all_step]
      change (s.tally.all ++ []).map _ = _
      rw [List.append_nil]
      exact tracked.lines
    · rw [Stage.world, World.run_append]
      exact tracked.drawn

theorem toolStamp_names {place : Place} {w : String} :
    (s.toolStamp project place).workOrderId = some w ↔
      place.marked ∧ place.authority ∧ ∃ r, s.ongoing project = [r] ∧ r.workOrderId = some w := by
  rw [Stage.toolStamp, Stage.projectId, Stage.readable]
  cases marked : place.marked with
  | false => simp [resolveAttribution]
  | true =>
    cases authority : place.authority with
    | false => simp [resolveAttribution, inferWorkOrder]
    | true =>
      simp only [if_true, true_and]
      exact inferWorkOrder_eq_some_iff project.id project.given s.plan.works s.unique w

theorem turnStamp_names {place : Place} {tasks : List TaskRow} {w : String} :
    (s.turnStamp env project place tasks).workOrderId = some w ↔
      place.marked ∧ place.authority ∧ w ≠ "" ∧
        ∃ r, Newest (s.ongoing project) r ∧ r.workOrderId = some w := by
  rw [Stage.turnStamp, Stage.projectId, Stage.readable, stopStamp]
  cases marked : place.marked with
  | false => simp [resolveWorkOrderId]
  | true =>
    cases authority : place.authority with
    | false => simp [resolveWorkOrderId]
    | true =>
      simp only [if_true, true_and]
      exact resolveWorkOrderId_eq_some_iff env project.id project.given s.plan.works s.unique w

theorem faithful_iff_certain (tracked : Tracked py s) (faithful : s.Faithful py) {m : Move}
    (step : (charging env remembers project).step s m = some t) :
    t.Faithful py ↔ s.Certain project m := by
  cases m with
  | call workOrderId c now =>
    cases step
    exact iff_of_true faithful trivial
  | respond l =>
    simp only [charging] at step
    split at step
    · cases step
    · have same := Option.some.inj step
      have events : t.events py = s.events py ++ [] := by
        rw [Stage.events, Stage.world, ← same, World.run_append, List.append_nil]
        rfl
      have records : t.records = s.records ++ [] := by rw [← same, List.append_nil]
      rw [tracked.faithful_iff (by rw [← same]) records events faithful]
      exact iff_of_true (List.forall_mem_nil _) trivial
  | tool call k place =>
    obtain ⟨p, response, same⟩ := Option.map_eq_some_iff.mp step
    have events : t.events py = s.events py ++ (py.handlePostToolUse (s.toolStamp project place)
        (s.world py).drawn call.payload ((s.world py).path place.reads)).toList := by
      rw [Stage.events, Stage.world, ← same, World.run_append]
      exact tracked.kept.firsts_tool call (s.toolStamp project place) place.reads
    have produced : t.produced = s.produced ++ [] := by rw [← same, List.append_nil]
    have records : t.records = s.records ++ [p.2] := by rw [← same]
    have moment : t.moment (.drawn (s.world py).drawn) = p.2 := by
      rw [Stage.moment, records, tracked.drawn, List.getElem?_concat_length]
      rfl
    rw [tracked.faithful_iff produced records events faithful, Stage.Certain]
    obtain ⟨none, silent⟩ | ⟨real, e, id, -, stamp, found⟩ := handlePostToolUse_call py
      (s.toolStamp project place) (s.world py).drawn call ((s.world py).path place.reads)
    · rw [silent]
      exact iff_of_true (List.forall_mem_nil _) fun _ _ real => absurd none real
    · rw [found, Option.toList_some, List.forall_mem_singleton, id, moment, stamp]
      constructor
      · intro sole marked authority _ q known r w only id
        rw [response] at known
        cases known
        exact sole w (toolStamp_names.mpr ⟨marked, authority, r, only, id⟩)
      · intro certain w named
        obtain ⟨marked, authority, r, only, id⟩ := toolStamp_names.mp named
        exact certain marked authority real p response r w only id
  | stop place tasks =>
    have same := Option.some.inj step
    have produced : t.produced = s.produced ++ [] := by rw [← same, List.append_nil]
    have records : t.records = s.records ++ [] := by rw [← same, List.append_nil]
    cases reads : place.reads with
    | false =>
      have events : t.events py = s.events py ++ [] := by
        rw [Stage.events, Stage.world, ← same, World.run_append, reads, Kept.step_stop_false,
          List.append_nil]
        rfl
      rw [tracked.faithful_iff produced records events faithful]
      apply iff_of_true (List.forall_mem_nil _)
      intro found
      rw [reads] at found
      cases found
    | true =>
      have events : t.events py = s.events py ++
          turns (s.turnStamp env project place tasks) s.tally.unread := by
        rw [Stage.events, Stage.world, ← same, World.run_append, reads]
        exact tracked.kept.firsts_stop tracked.uuids _
      have moment (id : EventId) : t.moment id = s.moment id := by rw [← same]; rfl
      rw [tracked.faithful_iff produced records events faithful, Stage.Certain]
      constructor
      · intro sole _ marked authority l unread real r w newest id named
        rw [← moment]
        exact sole _ (mem_turns.mpr ⟨l, unread, real, rfl⟩) w
          (turnStamp_names.mpr ⟨marked, authority, named, r, newest, id⟩)
      · intro certain e member w named
        obtain ⟨l, unread, real, rfl⟩ := mem_turns.mp member
        obtain ⟨marked, authority, given, r, newest, id⟩ := turnStamp_names.mp named
        rw [moment]
        exact certain reads marked authority l unread real r w newest id given

end Steps

/-- The work orders a history begins with; nothing was produced yet. -/
structure Beginning where
  plan : DependencyPlan
  unique : Table.Unique WorkOrderRow.key plan.works

def Beginning.stage (b : Beginning) : Stage := { plan := b.plan, unique := b.unique }

/-- A history charges nothing by guess exactly when all of its moves are certain. -/
theorem faithful_iff_all_certain (py : Interpreter) (env : HookEnv) (remembers : Bool)
    (project : MarkedProject) (b : Beginning) (moves : List Move) :
    (∀ x ∈ (charging env remembers project).transitions b.stage moves, x.after.Faithful py) ↔
      ∀ x ∈ (charging env remembers project).transitions b.stage moves, x.before.Certain
        project x.label := by
  apply Machine.forall_after_iff_forall_guard (J := Tracked py)
  · exact fun _ _ _ tracked step => charging_tracked tracked step
  · exact fun _ _ _ tracked faithful step => faithful_iff_certain tracked faithful step
  · exact ⟨⟨fun _ => rfl, rfl, nofun, nofun, nofun⟩, rfl, .nil, rfl⟩
  · exact List.forall_mem_nil _

def twoOpen : Beginning where
  plan := {
    works := [
      { workOrderId := some "a", projectId := some "p", status := .inProgress
        startedAt := some "1", lastUpdatedAt := 0 },
      { workOrderId := some "b", projectId := some "p", status := .inProgress
        startedAt := some "2", lastUpdatedAt := 0 }]
    edges := [] }
  unique := by decide

def answerAndStop : List Move :=
  [.respond ⟨⟨"msg_1", "opus", fun c => if c = .output then 5 else 0, false⟩, "u1", ""⟩,
    .stop ⟨true, true, true⟩ []]

theorem newest_guessed : ¬ ∀ (py : Interpreter) (env : HookEnv) (remembers : Bool)
    (project : MarkedProject) (b : Beginning) (moves : List Move),
    ∀ x ∈ (charging env remembers project).transitions b.stage moves, x.after.Faithful py := by
  intro fair
  have ends :
      ((charging plainEnv true ⟨"p", by decide⟩).transitions twoOpen.stage answerAndStop).map
      (fun x => (x.after.events plain).map fun e =>
        (e.stamp.workOrderId, x.after.moment e.eventId)) =
      [[], [(some "b", [some "a", some "b"])]] := by decide +kernel
  have last := List.mem_cons_of_mem [] (List.mem_singleton_self [(some "b", [some "a", some "b"])])
  rw [← ends] at last
  obtain ⟨x, member, charged⟩ := List.mem_map.mp last
  have emitted := List.mem_singleton_self (some "b", [some "a", some "b"])
  rw [← charged] at emitted
  obtain ⟨e, event, named⟩ := List.mem_map.mp emitted
  obtain ⟨-, few⟩ := fair plain plainEnv true ⟨"p", by decide⟩ twoOpen answerAndStop x
    member e event "b"
    (congrArg Prod.fst named)
  apply few
  rw [show x.after.moment e.eventId = _ from congrArg Prod.snd named]
  exact le_rfl

end DreamStudio.Emitters
