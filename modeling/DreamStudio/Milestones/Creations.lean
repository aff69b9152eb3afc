import DreamStudio.Milestones.Close
import DreamStudio.Spool.Emission
import DreamStudio.WorkOrders.Authored
import DreamStudio.WorkOrders.Gaps

namespace DreamStudio.Milestones

open Library Projections WorkOrders Spool

/-- Where a call runs: the spool, the authority as far as the calls read it, the checks of
admission, the clock, and the ids that `uuid4` gives. -/
structure Site where
  ingestor : Ingestor
  root : Root
  wellFormed : root.WellFormed
  registry : Registry
  milestoneOf : String → Text
  criterionRefusal : Text → Text → String → Except String (Option Fields)
  unverifiedClaimNote : String → Text
  now : Now
  uuids : Nat → String
  distinct : Function.Injective uuids
  fresh : ∀ n, root.Fresh (uuids n)

structure Outcome where
  write : WriteFaults := {}
  bypasses : Nat → WriteFaults := fun _ => {}
  sync : Option (String → Spool.Turn) := none

/-- The arguments of `create_task`. -/
structure TaskBrief where
  workOrderId : String
  projectId : String
  title : String
  description : String := ""
  acceptanceCriteria : Text := none
  why : Text := none
  carriedFrom : Text := none

/-- The description as a task keeps it. -/
def TaskBrief.kept (b : TaskBrief) : String :=
  if b.carriedFrom = none ∧ uncriterioned b.acceptanceCriteria ∧ b.why.getD "" ≠ "" then
    composeDeclaredReason b.description b.why
  else b.description

/-- The arguments of `create_milestone`. -/
structure MilestoneBrief where
  projectId : String
  title : String
  description : String := ""
  orderIndex : Int := 0

/-- The arguments of `close_milestone`, and what it finds. -/
structure Closing where
  milestoneId : String
  head : Option MilestoneHead
  works : List Listed
  surface : Surface
  force : Bool := false

inductive Answer
  | raised (error : String)
  | dict (fields : Fields)
  | milestone (reply : MilestoneReply)

def Answer.ok : Answer → Bool
  | raised _ => false
  | dict fields => (Json.lookup fields "ok").truthy
  | milestone reply => reply.ok

def refused (error : String) : Answer := .dict [("ok", .bool false), ("error", .str error)]

/-- `**({key: value} if value else {})`. -/
def optionalField (key : String) (value : Text) : Fields :=
  match value with
  | none => []
  | some s => if s = "" then [] else [(key, .str s)]

/-- `_MIN_DESCRIPTION_CHARS` of the milestones. -/
def minMilestoneChars : Nat := 50

namespace Site

variable (site : Site) (o : Outcome)

/-- The write of the event and the tick. -/
def record (e : Emission) (s : Root) : Root := (s.emit o.write e).syncTick site.ingestor.env o.sync

def workOrderCreated (b : Brief) (actor : Text) (workOrderId : String) : Emission where
  kind := .workOrderCreated
  eventId := site.uuids 0
  timestamp := site.now.iso
  severity := "info"
  trace :=
    [("domain", .str "sdlc"), ("project_id", .str b.projectId),
      ("milestone_id", .ofOption b.milestoneId),
      ("work_order_id", .str workOrderId), ("attribution_status", .str "fully_attributed")] ++
      optionalField "mcp_client" actor
  payload :=
    [("title", .str b.title), ("status", .str "created"), ("type", .str (b.workOrderType.getD "")),
      ("priority", .str b.priority)] ++
      (match b.originatingSymptom with
      | none => []
      | some symptom => [("originating_symptom", .str symptom)]) ++
      [("description", .str (composeModuleBoundary b.description b.moduleBoundary))]

/-- `create_work_order`. -/
def createWorkOrder (b : Brief) (actor : Text) (workOrderId : String) : Answer × Root :=
  match b.refusal site.registry with
  | some error => (refused error, site.root)
  | none =>
    (.dict
      ([("ok", .bool true), ("work_order_id", .str workOrderId), ("project_id", .str b.projectId),
        ("milestone_id", .ofOption b.milestoneId), ("title", .str b.title),
          ("status", .str "created")] ++
        optionalField "unverified_claims" (site.unverifiedClaimNote b.description)),
      site.record o (site.workOrderCreated b actor workOrderId) site.root)

def taskCreated (b : TaskBrief) (actor : Text) (taskId : String) : Emission where
  kind := .taskCreated
  eventId := site.uuids 0
  timestamp := site.now.iso
  severity := "info"
  trace :=
    [("domain", .str "sdlc"), ("project_id", .str b.projectId),
      ("milestone_id", .ofOption (site.milestoneOf b.workOrderId)),
        ("work_order_id", .str b.workOrderId),
      ("task_id", .str taskId), ("attribution_status", .str "fully_attributed")] ++
      optionalField "mcp_client" actor
  payload :=
    [("title", .str b.title), ("description", .str (b.kept)),
      ("acceptance_criteria", .ofOption b.acceptanceCriteria), ("status", .str "created")]

/-- What `create_task` refuses. A task that is carried over is not asked. -/
def taskRefusal (b : TaskBrief) : Except String (Option Fields) :=
  if b.carriedFrom = none then site.criterionRefusal b.acceptanceCriteria b.why
    b.description else .ok none

/-- `create_task`. -/
def createTask (b : TaskBrief) (actor : Text) (taskId : String) : Answer × Root :=
  match site.taskRefusal b with
  | .error error => (.raised error, site.root)
  | .ok (some refusal) =>
    (.dict [("ok", .bool false), ("error", .str "a task nobody can check cannot be filed"),
        ("refusals", .arr [.obj refusal]),
        ("remedy",
          .str
          ("pass acceptance_criteria with a TEST-CHECK / SQL-CHECK / API-CHECK naming something " ++
          "that exists, or why='<20+ characters saying why this claim cannot be computed>'"))],
            site.root)
  | .ok none =>
    (.dict ([("ok", .bool true), ("task_id", .str taskId), ("work_order_id", .str b.workOrderId),
        ("title", .str b.title), ("status", .str "pending")] ++
        optionalField "unverified_claims" (site.unverifiedClaimNote (b.kept)) ++
        match b.acceptanceCriteria with
        | none => []
        | some criteria => [("acceptance_criteria", .str criteria)]),
      site.record o (site.taskCreated b actor taskId) site.root)

def milestoneCreated (b : MilestoneBrief) (actor : Text) (milestoneId : String) : Emission where
  kind := .milestoneCreated
  eventId := site.uuids 0
  timestamp := site.now.iso
  severity := "info"
  trace :=
    [("domain", .str "sdlc"), ("project_id", .str b.projectId), ("milestone_id", .str milestoneId),
      ("attribution_status", .str "fully_attributed")] ++ optionalField "mcp_client" actor
  payload :=
    [("title", .str b.title), ("description", .str b.description),
      ("order_index", .int b.orderIndex),
      ("status", .str "pending")]

/-- What `create_milestone` refuses. -/
def milestoneRefusal (b : MilestoneBrief) : Option String :=
  let length := (pyStrip b.description).length
  if length < minMilestoneChars then
    some ("description is required: a milestone is the prompt the work orders under it answer to, so it must " ++
      "say what it is for (at least " ++ toString minMilestoneChars ++ " characters; got " ++
        toString length ++ ").")
  else if b.projectId ∉ site.registry.projects then some ("Project not found: " ++ b.projectId)
  else none

/-- `create_milestone`. -/
def createMilestone (b : MilestoneBrief) (actor : Text) (milestoneId : String) : Answer × Root :=
  match site.milestoneRefusal b with
  | some error => (refused error, site.root)
  | none =>
    (.dict [("ok", .bool true), ("milestone_id", .str milestoneId),
      ("project_id", .str b.projectId),
        ("title", .str b.title), ("status", .str "pending")],
      site.record o (site.milestoneCreated b actor milestoneId) site.root)

def gateBypassed (c : Closing) (projectId : String) (n : Nat) (reason : String) : Emission where
  kind := .gateBypassed
  eventId := site.uuids (n + 1)
  timestamp := site.now.iso
  severity := "warning"
  trace := [("milestone_id", .str c.milestoneId), ("project_id", .str projectId)]
  payload := [("milestone_id", .str c.milestoneId), ("reason", .str reason)]

def milestoneCompleted (c : Closing) : Emission where
  kind := .milestoneCompleted
  eventId := site.uuids 0
  timestamp := site.now.iso
  severity := "info"
  trace :=
    [("milestone_id", .str c.milestoneId), ("project_id", .ofOption (c.head.map (·.projectId)))]
  payload :=
    [("milestone_id", .str c.milestoneId), ("title", .ofOption (c.head.map (·.title))),
      ("forced", .bool c.force)]

def bypass (c : Closing) (projectId : String) : Nat → List String → Root → Root
  | _, [], s => s
  | n, reason :: reasons, s =>
    bypass c projectId (n + 1) reasons
      (s.emit (o.bypasses n) (site.gateBypassed c projectId n reason))

/-- `close_milestone` with its events. -/
def close (c : Closing) : Answer × Root :=
  match closeMilestone c.milestoneId c.head c.works c.surface c.force site.now with
  | .closed head status completedAt forced bypassed =>
    (.milestone (.closed head status completedAt forced bypassed),
      site.record o (site.milestoneCompleted c)
        (site.bypass o c head.projectId 0 bypassed site.root))
  | reply => (.milestone reply, site.root)

end Site

open Site

/-- A call that returns ok or not. -/
inductive Creating
  | workOrder (b : Brief) (actor : Text) (workOrderId : String)
  | task (b : TaskBrief) (actor : Text) (taskId : String)
  | milestone (b : MilestoneBrief) (actor : Text) (milestoneId : String)
  | close (c : Closing)

namespace Creating

variable (site : Site)

def run (o : Outcome) : Creating → Answer × Root
  | workOrder b actor workOrderId => site.createWorkOrder o b actor workOrderId
  | task b actor taskId => site.createTask o b actor taskId
  | milestone b actor milestoneId => site.createMilestone o b actor milestoneId
  | close c => site.close o c

def event : Creating → Emission
  | workOrder b actor workOrderId => site.workOrderCreated b actor workOrderId
  | task b actor taskId => site.taskCreated b actor taskId
  | milestone b actor milestoneId => site.milestoneCreated b actor milestoneId
  | close c => site.milestoneCompleted c

/-- The checks before the write let the call through. -/
def Accepted : Creating → Prop
  | workOrder b _ _ => b.refusal site.registry = none
  | task b _ _ => site.taskRefusal b = .ok none
  | milestone b _ _ => site.milestoneRefusal b = none
  | close c =>
    c.head ≠ none ∧ (∀ l ∈ c.works, l.open_ = false) ∧
      (c.surface.evaluateMilestoneArtifacts c.milestoneId
          (c.works.any fun l => c.surface.isUiBearing l.row.workOrderType) = [] ∨ c.force = true)

end Creating

section Plain

variable (site : Site)

theorem textual_optionalField (key : String) (value : Text) :
    ∀ f ∈ optionalField key value, Textual f.2 := by
  unfold optionalField
  split
  · exact List.forall_mem_nil _
  · split
    · exact List.forall_mem_nil _
    · simp only [List.forall_mem_cons]
      exact ⟨Or.inr ⟨_, rfl⟩, List.forall_mem_nil _⟩

theorem textual_ofOption (value : Text) : Textual (.ofOption value) := by
  cases value with
  | none => exact Or.inl rfl
  | some s => exact Or.inr ⟨s, rfl⟩

theorem workOrderCreated_plain (b : Brief) (actor : Text) (id : String) :
    (site.workOrderCreated b actor id).Plain where
  trace := by
    simp only [workOrderCreated, List.forall_mem_append, List.forall_mem_cons]
    exact ⟨⟨Or.inr ⟨_, rfl⟩, Or.inr ⟨_, rfl⟩, textual_ofOption _, Or.inr ⟨_, rfl⟩,
      Or.inr ⟨_, rfl⟩, List.forall_mem_nil _⟩,
      textual_optionalField _ _⟩
  payload := by
    simp only [workOrderCreated, List.forall_mem_cons]
    refine ⟨?_, ?_, ?_, ?_, ?_, List.forall_mem_nil _⟩ <;>
      cases b.originatingSymptom <;> exact Or.inl (by simp [Json.lookup])
  complete := by
    simp [workOrderCreated, Emission.missingKeys, EventKind.requiredKeys, Json.hasKey]

theorem taskCreated_plain (b : TaskBrief) (actor : Text) (id : String) :
    (site.taskCreated b actor id).Plain where
  trace := by
    simp only [taskCreated, List.forall_mem_append, List.forall_mem_cons]
    exact ⟨⟨Or.inr ⟨_, rfl⟩, Or.inr ⟨_, rfl⟩, textual_ofOption _, Or.inr ⟨_, rfl⟩, Or.inr ⟨_, rfl⟩,
      Or.inr ⟨_, rfl⟩, List.forall_mem_nil _⟩, textual_optionalField _ _⟩
  payload := by
    simp only [taskCreated, List.forall_mem_cons]
    refine ⟨?_, ?_, ?_, ?_, ?_, List.forall_mem_nil _⟩ <;> exact Or.inl (by simp [Json.lookup])
  complete := rfl

theorem milestoneCreated_plain (b : MilestoneBrief) (actor : Text) (id : String) :
    (site.milestoneCreated b actor id).Plain where
  trace := by
    simp only [milestoneCreated, List.forall_mem_append, List.forall_mem_cons]
    exact ⟨⟨Or.inr ⟨_, rfl⟩, Or.inr ⟨_, rfl⟩, Or.inr ⟨_, rfl⟩, Or.inr ⟨_, rfl⟩, List.forall_mem_nil _⟩,
      textual_optionalField _ _⟩
  payload := by
    simp only [milestoneCreated, List.forall_mem_cons]
    refine ⟨?_, ?_, ?_, ?_, ?_, List.forall_mem_nil _⟩ <;> exact Or.inl (by simp [Json.lookup])
  complete := rfl

theorem milestoneCompleted_plain (c : Closing) : (site.milestoneCompleted c).Plain where
  trace := by
    simp only [milestoneCompleted, List.forall_mem_cons]
    exact ⟨Or.inr ⟨_, rfl⟩, textual_ofOption _, List.forall_mem_nil _⟩
  payload := by
    simp only [milestoneCompleted, List.forall_mem_cons]
    refine ⟨?_, ?_, ?_, ?_, ?_, List.forall_mem_nil _⟩ <;> exact Or.inl (by simp [Json.lookup])
  complete := rfl

theorem Creating.event_plain (c : Creating) : (c.event site).Plain := by
  cases c with
  | workOrder b actor id => exact workOrderCreated_plain site b actor id
  | task b actor id => exact taskCreated_plain site b actor id
  | milestone b actor id => exact milestoneCreated_plain site b actor id
  | close c => exact milestoneCompleted_plain site c

theorem Creating.event_id (c : Creating) : (c.event site).eventId = site.uuids 0 := by
  cases c <;> rfl

end Plain

section Runs

variable (site : Site) (o : Outcome)

theorem bypass_fresh (c : Closing) (projectId : String) (n : Nat) (reasons : List String) {s : Root}
    (h : s.WellFormed) (fresh : s.Fresh (site.uuids 0)) :
    (site.bypass o c projectId n reasons s).WellFormed ∧
      (site.bypass o c projectId n reasons s).Fresh (site.uuids 0) := by
  induction reasons generalizing n s with
  | nil => exact ⟨h, fresh⟩
  | cons reason reasons ih =>
    have other : (site.gateBypassed c projectId n reason).eventId ≠ site.uuids 0 := fun same =>
      Nat.succ_ne_zero n (site.distinct same)
    exact ih (n + 1) (h.emit _ _) (fresh.emit _ other)

theorem Creating.run_cases (c : Creating) :
    (c.Accepted site ∧ (c.run site o).1.ok = true ∧
      ∃ s, (c.run site o).2 = site.record o (c.event site) s ∧
      s.WellFormed ∧ s.Fresh (c.event site).eventId) ∨
    (¬c.Accepted site ∧ (c.run site o).1.ok = false) := by
  have start : site.root.WellFormed ∧ site.root.Fresh (site.uuids 0) :=
    ⟨site.wellFormed, site.fresh 0⟩
  cases c with
  | workOrder b actor id =>
    simp only [run, event, Accepted, createWorkOrder]
    cases b.refusal site.registry with
    | none => exact Or.inl ⟨rfl, by simp [Answer.ok, Json.lookup, Json.truthy], _, rfl, start⟩
    | some error => exact Or.inr ⟨by simp, by simp [Answer.ok, refused, Json.lookup, Json.truthy]⟩
  | task b actor id =>
    simp only [run, event, Accepted, createTask]
    cases site.taskRefusal b with
    | error error => exact Or.inr ⟨by simp, rfl⟩
    | ok refusal =>
      cases refusal with
      | none => exact Or.inl ⟨rfl, by simp [Answer.ok, Json.lookup, Json.truthy], _, rfl, start⟩
      | some refusal => exact Or.inr ⟨by simp, by simp [Answer.ok, Json.lookup, Json.truthy]⟩
  | milestone b actor id =>
    simp only [run, event, Accepted, createMilestone]
    cases site.milestoneRefusal b with
    | none => exact Or.inl ⟨rfl, by simp [Answer.ok, Json.lookup, Json.truthy], _, rfl, start⟩
    | some error => exact Or.inr ⟨by simp, by simp [Answer.ok, refused, Json.lookup, Json.truthy]⟩
  | close c =>
    simp only [run, event, Accepted, Site.close]
    have accepted : (closeMilestone c.milestoneId c.head c.works c.surface c.force site.now).ok =
        true ↔ _ :=
      closeMilestone_ok
    rw [← accepted]
    cases closeMilestone c.milestoneId c.head c.works c.surface c.force site.now with
    | closed head status completedAt forced bypassed =>
      exact Or.inl ⟨rfl, rfl, _, rfl, bypass_fresh site o c _ _ _ start.1 start.2⟩
    | notFound error => exact Or.inr ⟨Bool.false_ne_true, rfl⟩
    | openWorkOrders error works => exact Or.inr ⟨Bool.false_ne_true, rfl⟩
    | failed error failures => exact Or.inr ⟨Bool.false_ne_true, rfl⟩

/-- A call that returns ok has its event somewhere exactly if it was refused instead or no step of
the write raises; and where it can still come to a row exactly if its file is not lost by its turn
besides. -/
theorem ok_recorded_iff (c : Creating) :
    (((c.run site o).1.ok = true → (c.run site o).2.Traced (c.event site)) ↔
      ¬c.Accepted site ∨ o.write.raised = none) ∧
    (((c.run site o).1.ok = true → (c.run site o).2.Durable (c.event site)) ↔
      ¬c.Accepted site ∨ o.write.raised = none ∧
        ∀ turns ∈ o.sync, (turns (Emission.fileName (site.uuids 0))).loses = false) := by
  have plain := c.event_plain site
  rcases c.run_cases site o with ⟨accepted, ok, s, left, wf, fresh⟩ | ⟨refused, failed⟩
  · rw [ok, left, record, Root.emit_plain _ plain.complete]
    simp only [forall_const, accepted, not_true_eq_false, false_or]
    split
    · next written =>
      obtain ⟨traced, durable⟩ := Root.durable_syncTick site.ingestor o.sync plain wf fresh rfl
      rw [← c.event_id site, durable]
      exact ⟨iff_of_true traced written, (and_iff_right written).symm⟩
    · next raised =>
      have untraced := Root.not_traced_syncTick site.ingestor o.sync plain wf fresh
      refine ⟨iff_of_false untraced raised,
        iff_of_false (fun durable => untraced ?_) fun h => raised h.1⟩
      exact durable.imp_left fun ⟨f, hf, _, same⟩ => ⟨f, hf, trivial, same⟩
  · simp [failed, refused]

end Runs

def sampleSite : Site where
  ingestor := ⟨{ sampleEnv with registry := fun _ => some [.business] }, fun _ => rfl⟩
  root := {}
  wellFormed := Root.empty_wellFormed
  registry := ⟨["p1"], [], []⟩
  milestoneOf := fun _ => none
  criterionRefusal := fun _ _ _ => .ok none
  unverifiedClaimNote := fun _ => none
  now := ⟨"2026-01-01T00:00:00+00:00", 0⟩
  uuids := fun n => String.ofList (List.replicate n '0')
  distinct := fun m n same => by
    have lists := congrArg String.toList same
    rw [String.toList_ofList, String.toList_ofList] at lists
    simpa using congrArg List.length lists
  fresh := fun _ => ⟨fun _ hf => absurd hf List.not_mem_nil, fun _ hf => absurd hf List.not_mem_nil,
    fun _ hr => absurd hr List.not_mem_nil⟩

def sampleTask : Creating :=
  .task { workOrderId := "w1", projectId := "p1", title := "T1", acceptanceCriteria := some "TEST-CHECK: t.py" } none "t1"

/-- The disk is full: the task is ok and nowhere. -/
theorem task_never_recorded :
    ¬∀ (site : Site) (o : Outcome) (c : Creating),
      (c.run site o).1.ok = true → (c.run site o).2.Traced (c.event site) := by
  intro all
  have full := all sampleSite { write := { dump := some "No space left on device" } } sampleTask
  rcases sampleTask.run_cases sampleSite
    { write := { dump := some "No space left on device" } } with
    ⟨-, ok, s, left, wf, fresh⟩ | ⟨refused, -⟩
  · have plain := sampleTask.event_plain sampleSite
    have raised : ({ dump := some "No space left on device" } : WriteFaults).raised ≠ none := by
      decide
    have traced := full ok
    rw [left, record, Root.emit_plain _ plain.complete, if_neg raised] at traced
    exact Root.not_traced_syncTick sampleSite.ingestor _ plain wf fresh traced
  · exact refused rfl

end DreamStudio.Milestones
