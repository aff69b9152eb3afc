import DreamStudio.WorkOrders.Gates
import DreamStudio.WorkOrders.Status

namespace DreamStudio.WorkOrders

open Library

structure TypeGates where
  typeId : Option String
  preGate : Option String
  postGate : Option String

/-- What `_lookup_work_order_and_gates` finds. -/
structure WorkOrderMeta extends TypeGates where
  title : String
  woStatus : WorkOrderStatus
  originatingSymptom : Option String

inductive Reply (α : Type)
  | error (text : String)
  | ok (report : α)

/-- `raw_gate.split("|")`. -/
def splitBar (rawGate : String) : List String := (rawGate.toList.splitOn '|').map String.ofList

def TypeGates.gates (t : TypeGates) : List String :=
  [t.preGate, t.postGate].flatMap fun rawGate =>
    match rawGate with
    | none => []
    | some rawGate => if rawGate = "" then [] else splitBar rawGate

section Universal

variable (py : Stdlib) (ev : Evidence)

/-- `check_change_impact_affirmed`. -/
def changeImpactAffirmed : Gate Unit :=
  if ev.createdBefore ratifyEnforcedAfter then Gate.pass
  else if (ev.artifact py "impact_affirmation").isNone then
    Gate.refuse (objection "change_impact_affirmed" ("no impact affirmation recorded — run `ds " ++
      "work-order affirm-impact <id>` to affirm the change's impact classes " ++
      "(auth/contract/migration/changelog; see CLAUDE.md Code History & Impact Guardrail)"))
  else Gate.pass

/-- `render`, in the voice of a refusal. -/
def renderStructure (violations : List String) (workOrderId : String) : String :=
  objection "structural_invariants" (toString violations.length ++ " invariant(s) not met:\n\n" ++
    "\n\n".intercalate (violations.map ("  - " ++ ·)) ++
    "\n\nIf this work order is correctly sized despite that, record why:\n  ds work-order close " ++
    workOrderId ++
      " --accept-structure \"<reason>\"\nThe reason is stored on the work order, so the " ++
    "exception is something a later reader can find and weigh. `--force` is not the answer: it " ++
    "bypasses every gate at once and records no reasoning about this one.")

def structuralInvariants : Gate Unit :=
  if ev.violations ≠ [] ∧ (ev.artifact py "operator_decision" "structure_exception").getD "" =
    "" then
    Gate.refuse (renderStructure ev.violations ev.workOrderId)
  else Gate.pass

def phase (w : WorkOrderMeta) : Gate Unit :=
  refuseIf (transitionRefusal ev.workOrderId w.woStatus .closed)

inductive UniversalGate
  | executableAc
  | changeImpactAffirmed
  | structuralInvariants
  | phase

namespace UniversalGate

def name : UniversalGate → String
  | executableAc => "executable_ac"
  | changeImpactAffirmed => "change_impact_affirmed"
  | structuralInvariants => "structural_invariants"
  | phase => "phase"

def all : List UniversalGate := [executableAc, changeImpactAffirmed, structuralInvariants, phase]

def check (w : WorkOrderMeta) (m : Mode) : UniversalGate → Gate Unit
  | executableAc => runAcGate py ev m
  | changeImpactAffirmed => WorkOrders.changeImpactAffirmed py ev
  | structuralInvariants => WorkOrders.structuralInvariants py ev
  | phase => WorkOrders.phase ev w

end UniversalGate

end Universal

section Executing

variable (py : Stdlib) (ev : Evidence) (outside : Nat → Outside) (w : WorkOrderMeta)

/-- Everything `check_close_gates` executes, each part with what the world gives it. -/
def executedGates : List (Gate Unit) :=
  (w.gates.zipIdx.map fun (gate, i) => runGateCheck py ev (.executing (outside i)) gate) ++
    UniversalGate.all.map (UniversalGate.check py ev w (.executing (outside w.gates.length)))

end Executing

section Migrating

def kindsAt (version : Nat) : List String :=
  let first := ["api_contract", "security_scan", "design_audit", "review_verdict", "context"]
  let more := ["operator_decision", "decision_request", "escalation", "report", "eval"]
  if version < 144 then []
  else if version < 152 then first
  else if version < 154 then first ++ more
  else first ++ more ++ ["impact_affirmation"]

/-- An authority: the version of its schema, and what it holds for the work order. A table without
`instance_key` has one artifact of a kind, whose key becomes `''`. -/
structure GateAuthority where
  schema : Nat
  held : Evidence
  kinds : ∀ kind key, held.stored kind key ≠ none → kind ∈ kindsAt schema
  single : schema < 152 → ∀ kind key, held.stored kind key ≠ none → key = ""

def Evidence.unread (ev : Evidence) : Evidence := { ev with stored _ _ := none }

/-- What the gates read at a version. `get_wo_artifact_envelope` asks for `instance_key`, which 152
adds, and takes the error for an absent artifact. -/
def GateAuthority.evidence (a : GateAuthority) (version : Nat) : Evidence :=
  if version < 152 then a.held.unread else a.held

/-- What `_connect` comes to: an error, or the version its migrations reach. None of those from the
baseline on changes what the gates read, but for 152. -/
abbrev GateAuthority.Connected (a : GateAuthority) :=
  Except String { version : Nat // a.schema ≤ version }

/-- `check_close_gates(run_checks=True)`: the failures, unless a gate raises. -/
def checkCloseGates (py : Stdlib) (a : GateAuthority) (connected : a.Connected)
    (outside : Nat → Outside) (lookup : Option WorkOrderMeta) :
    Except String (Reply (List String)) := do
  let version ← connected
  match lookup with
  | none => return .error ("Work order not found: " ++ a.held.workOrderId)
  | some w => return .ok (← Gate.evaluate (executedGates py (a.evidence version) outside w))

end Migrating

section Previewing

inductive GateStatus
  | pass
  | fail
  | notRun
  deriving DecidableEq

structure GateOutcome where
  gate : String
  status : GateStatus
  failures : List String
  notRun : List String

/-- `gate_outcome`. -/
def gateOutcome (gate : String) (failures notRun : List String) : GateOutcome where
  gate := gate
  status := if failures ≠ [] then .fail else if notRun ≠ [] then .notRun else .pass
  failures := failures
  notRun := notRun

structure Preview where
  gates : List GateOutcome
  gateFailures : List String
  gatesNotRun : List String
  overall : GateStatus
  gatesPass : Bool

variable (py : Stdlib) (ev : Evidence) (readPlanningDir : Bool) (w : WorkOrderMeta)

def previewedGates : List (String × Gate Unit) :=
  ((w.gates.filter (· ≠ "")).map fun gate =>
      (gate, runGateCheck py ev (.previewing readPlanningDir) gate)) ++
    UniversalGate.all.map fun u => (u.name, u.check py ev w (.previewing readPlanningDir))

def outcomeOf (named : String × Gate Unit) : Except String GateOutcome := do
  return gateOutcome named.1 (← named.2.failures) named.2.notRun

def summarise (outcomes : List GateOutcome) : Preview :=
  let failures := (outcomes.filter (·.status = .fail)).flatMap (·.failures)
  let overall : GateStatus :=
    if failures ≠ [] then .fail
    else if outcomes.any fun o => o.status = .notRun ∨ o.notRun ≠ [] then .notRun
    else .pass
  { gates := outcomes
    gateFailures := failures
    gatesNotRun := (outcomes.filter (·.notRun ≠ [])).map (·.gate)
    overall := overall
    gatesPass := overall = .pass }

/-- `_preview_without_running_checks`. -/
def previewWithoutRunningChecks (lookup : Option WorkOrderMeta) : Except String (Reply Preview) :=
  match lookup with
  | none => .ok (.error ("Work order not found: " ++ ev.workOrderId))
  | some w => do
    let outcomes ← (previewedGates py ev readPlanningDir w).mapM outcomeOf
    return .ok (summarise outcomes)

end Previewing

section Soundness

open Gate

variable {py : Stdlib} {ev : Evidence} {readPlanningDir : Bool} {outside : Nat → Outside}
  {out : Outside} {w : WorkOrderMeta}

theorem failed_of_preview_failed {tasks : List WorkOrderTask} {c : Check}
    (member : c ∈ (Mode.previewing readPlanningDir).allChecks tasks) (failed : c.failed = true) :
    c ∈ (Mode.executing out).allChecks tasks := by
  obtain ⟨t, kept, held⟩ := Mode.mem_allChecks.mp member
  obtain ⟨line, token, expr, found, rfl⟩ := Mode.mem_checksOn.mp held
  refine Mode.mem_allChecks.mpr ⟨t, kept, Mode.mem_checksOn.mpr ⟨line, token, expr, found, ?_⟩⟩
  unfold Mode.check at failed ⊢
  by_cases known : token ∈ runnableKinds
  · simp [known, Check.failed] at failed
  · simp only [known, not_false_eq_true, if_true]

theorem preview_notRun_or_failed {tasks : List WorkOrderTask} {c : Check}
    (member : c ∈ (Mode.previewing readPlanningDir).allChecks tasks) :
    c.notRun = true ∨ c.failed = true := by
  obtain ⟨t, kept, held⟩ := Mode.mem_allChecks.mp member
  obtain ⟨line, token, expr, found, rfl⟩ := Mode.mem_checksOn.mp held
  unfold Mode.check
  by_cases known : token ∈ runnableKinds
  · simp [known]
  · simp [known, unknownCheck, Check.failed]

theorem judgeChecks_notRun {checks : List Check} (h : checks.filter (·.notRun) ≠ []) :
    (judgeChecks py checks).notRun ≠ [] :=
  notRun_bind (by simp [noteUnrun, h, note]) _

theorem runAcGate_abstracts :
    Abstracts (runAcGate py ev (.previewing readPlanningDir))
      (runAcGate py ev (.executing out)) := by
  unfold runAcGate
  by_cases none : ∀ t ∈ ev.uncarried py, checkLines t = []
  · simp only [if_pos (Mode.allChecks_eq_nil.mpr none)]
    exact Abstracts.refl _
  · simp only [if_neg (Mode.allChecks_eq_nil.not.mpr none)]
    by_cases failed : ((Mode.previewing readPlanningDir).allChecks (ev.uncarried py)).filter
      (·.failed) = []
    · have passes : (judgeChecks py
          ((Mode.previewing readPlanningDir).allChecks (ev.uncarried py))).course = .passes := by
        rw [judgeChecks, bind_course_of_goes (noteUnrun_course _), checkFailures_eq_nil.mpr failed]
        rfl
      refine Abstracts.of_passes passes (judgeChecks_notRun ?_)
      obtain ⟨c, member⟩ := List.exists_mem_of_ne_nil _ (Mode.allChecks_eq_nil.not.mpr none)
      have silent := List.filter_eq_nil_iff.mp failed c member
      have unrun := (preview_notRun_or_failed member).resolve_right silent
      exact List.ne_nil_of_mem (List.mem_filter.mpr ⟨member, unrun⟩)
    · obtain ⟨c, member⟩ := List.exists_mem_of_ne_nil _ failed
      obtain ⟨member, fails⟩ := List.mem_filter.mp member
      have here : ((Mode.executing out).allChecks (ev.uncarried py)).filter (·.failed) ≠ [] :=
        List.ne_nil_of_mem (List.mem_filter.mpr ⟨failed_of_preview_failed member fails, fails⟩)
      refine Abstracts.of_refuses ?_ ?_
      · rw [refuses_iff, judgeChecks_failures]
        exact ⟨_, rfl, checkFailures_eq_nil.not.mpr here⟩
      · rw [judgeChecks_failures, ne_eq, Except.ok.injEq, checkFailures_eq_nil]
        exact failed

theorem UniversalGate.abstracts (u : UniversalGate) :
    Abstracts (u.check py ev w (.previewing readPlanningDir))
      (u.check py ev w (.executing out)) := by
  cases u with
  | executableAc => exact runAcGate_abstracts
  | changeImpactAffirmed => exact Abstracts.refl _
  | structuralInvariants => exact Abstracts.refl _
  | phase => exact Abstracts.refl _

end Soundness

section Hiding

open Gate

variable {py : Stdlib} {ev : Evidence} {readPlanningDir : Bool} {out : Outside}

def Evidence.Backed (ev : Evidence) (kind : String) : Prop :=
  ∀ text, ev.stored kind "" = some text → ev.file (kindToFilename kind) = some (.ok text)

/-- The artifacts a gate asks for are on disk too. -/
def Evidence.Shown (py : Stdlib) (ev : Evidence) : String → Prop
  | "api_contract_exists" => ev.Backed "api_contract"
  | "api_contract_and_security_review" =>
    ev.Backed "api_contract" ∧
      ∀ held, (ev.artifactWithEnvelope py "api_contract").course = .goes held →
        evaluateApiContract py ev held.1 = none → ev.Backed "security_scan"
  | "security_scan" => ev.Backed "security_scan"
  | "independent_review" => ev.Backed "review_verdict"
  | _ => True

theorem artifactWithEnvelope_unread {kind : String} (backed : ev.Backed kind) :
    ev.unread.artifactWithEnvelope py kind = ev.artifactWithEnvelope py kind := by
  have unread : ev.unread.artifactWithEnvelope py kind =
      (do return unwrap py (← ev.readFile (kindToFilename kind))) := rfl
  rw [unread, Evidence.artifactWithEnvelope, Evidence.artifactEnvelope]
  cases stored : ev.stored kind "" with
  | none => rfl
  | some text =>
    have read : ev.readFile (kindToFilename kind) = pure (some text) := by
      rw [Evidence.readFile, backed text stored]
      rfl
    rw [read]
    split
    · rfl
    · rfl

theorem absentAndUnreadable_unread (kind gate : String) (f : Unit → Gate Unit) (e : Gate Unit) :
    Abstracts (absentAndUnreadable py ev.unread (.previewing false) kind gate >>= f) e :=
  Abstracts.of_passes rfl (List.cons_ne_nil _ _)

theorem apiContractExists_unread (backed : ev.Backed "api_contract") :
    apiContractExists py ev.unread (.previewing true) =
      apiContractExists py ev (.previewing true) := by
  unfold apiContractExists
  rw [artifactWithEnvelope_unread backed]
  rfl

theorem securityScan_unread (backed : ev.Backed "security_scan") :
    securityScan py ev.unread (.previewing true) = securityScan py ev (.previewing true) := by
  unfold securityScan
  rw [artifactWithEnvelope_unread backed]
  rfl

theorem independentReview_unread (backed : ev.Backed "review_verdict") :
    independentReview py ev.unread (.previewing true) =
      independentReview py ev (.previewing true) := by
  unfold independentReview verdictArtifact
  rw [artifactWithEnvelope_unread backed]
  rfl

theorem apiContractAndSecurityReview_unread
    (shown : ev.Shown py "api_contract_and_security_review") :
    apiContractAndSecurityReview py ev.unread (.previewing true) =
      apiContractAndSecurityReview py ev (.previewing true) := by
  obtain ⟨contract, scan⟩ := shown
  unfold apiContractAndSecurityReview
  rw [artifactWithEnvelope_unread contract]
  refine congrArg (pure () >>= fun _ => ·) (bind_congr fun (text, _) reads => ?_)
  have same : evaluateApiContract py ev.unread text = evaluateApiContract py ev text := rfl
  dsimp only
  rw [same]
  cases accepted : evaluateApiContract py ev text with
  | some reason => rfl
  | none =>
    rw [artifactWithEnvelope_unread (scan _ reads accepted)]
    rfl

theorem runGateCheck_unread_abstracts {gate : String}
    (shown : readPlanningDir = true → ev.Shown py gate) :
    Abstracts (runGateCheck py ev.unread (.previewing readPlanningDir) gate)
      (runGateCheck py ev (.executing out) gate) := by
  suffices same : runGateCheck py ev.unread (.previewing readPlanningDir) gate =
      runGateCheck py ev (.previewing readPlanningDir) gate ∨
        ∀ e, Abstracts (runGateCheck py ev.unread (.previewing readPlanningDir) gate) e by
    rcases same with same | noted
    · rw [same]
      exact runGateCheck_abstracts gate
    · exact noted _
  cases readPlanningDir with
  | true =>
    have shown := shown rfl
    apply Or.inl
    unfold runGateCheck
    split
    · rfl
    · rfl
    · exact apiContractExists_unread shown
    · exact apiContractAndSecurityReview_unread shown
    · rfl
    · rfl
    · rfl
    · exact securityScan_unread shown
    · rfl
    · rfl
    · rfl
    · exact independentReview_unread shown
    · rfl
  | false =>
    unfold runGateCheck
    split
    · exact Or.inl rfl
    · exact Or.inl rfl
    · exact Or.inr (absentAndUnreadable_unread _ _ _)
    · exact Or.inr (absentAndUnreadable_unread _ _ _)
    · exact Or.inl rfl
    · exact Or.inl rfl
    · exact Or.inl rfl
    · exact Or.inr (absentAndUnreadable_unread _ _ _)
    · exact Or.inl rfl
    · exact Or.inl rfl
    · exact Or.inl rfl
    · exact Or.inr (absentAndUnreadable_unread _ _ _)
    · exact Or.inl rfl

theorem GateAuthority.stored_eq_none (a : GateAuthority) (old : a.schema < 152) (kind : String)
    (absent : kind ∉ kindsAt 151) (key : String) : a.held.stored kind key = none := by
  by_contra stored
  have taken := a.kinds kind key stored
  apply absent
  unfold kindsAt at taken ⊢
  split at taken
  · cases taken
  · exact taken

theorem Evidence.artifact_unread {kind key : String} (absent : ev.stored kind key = none) :
    ev.unread.artifact py kind key = ev.artifact py kind key := by
  rw [Evidence.artifact, Evidence.artifact, Evidence.artifactEnvelope, Evidence.artifactEnvelope,
    absent]
  rfl

theorem Evidence.uncarried_of_unrecorded (py : Stdlib) {ev : Evidence}
    (unrecorded : ev.stored "report" "carry_over" = none) : ev.uncarried py = ev.tasks := by
  have none : ev.carriedTaskIds py = .ok [] := by
    rw [Evidence.carriedTaskIds, Evidence.artifact, Evidence.artifactEnvelope, unrecorded]
    rfl
  rw [Evidence.uncarried, none]
  exact List.filter_eq_self.mpr fun t _ => by simp

theorem runAcGate_unread {m : Mode} (unrecorded : ev.stored "report" "carry_over" = none)
    (unattested : (∀ t ∈ ev.tasks, checkLines t = []) → ev.isOperatorAttested py = .ok false) :
    runAcGate py ev.unread m = runAcGate py ev m := by
  have seen : ev.unread.uncarried py = ev.tasks := Evidence.uncarried_of_unrecorded py rfl
  rw [runAcGate, runAcGate, seen, Evidence.uncarried_of_unrecorded py unrecorded]
  split
  next none =>
    have unread : ev.unread.isOperatorAttested py = .ok false := rfl
    rw [withoutChecks, withoutChecks, unread, unattested (Mode.allChecks_eq_nil.mp none)]
  next => rfl

end Hiding

section Reporting

theorem outcomeOf_eq_ok {named : String × Gate Unit} {o : GateOutcome}
    (h : outcomeOf named = .ok o) :
    named.2.failures = .ok o.failures ∧ o.notRun = named.2.notRun ∧
      (o.status = .fail ↔ o.failures ≠ []) := by
  obtain ⟨failures, found, same⟩ := bind_eq_ok.mp h
  cases same
  refine ⟨found, rfl, ?_⟩
  unfold gateOutcome
  by_cases none : failures = []
  · simp only [none, ne_eq, not_true_eq_false, if_false, iff_false]
    split <;> simp
  · simp [none]

theorem summarise_pass {outcomes : List GateOutcome} (h : (summarise outcomes).overall = .pass)
    (statuses : ∀ o ∈ outcomes, o.status = .fail ↔ o.failures ≠ []) :
    ∀ o ∈ outcomes, o.failures = [] ∧ o.notRun = [] := by
  intro o member
  simp only [summarise] at h
  split_ifs at h with failed noted
  simp only [ne_eq, not_not, List.flatMap_eq_nil_iff, List.mem_filter, decide_eq_true_eq] at failed
  simp only [ne_eq, List.any_eq_true, decide_eq_true_eq, not_exists, not_and, not_or,
    not_not] at noted
  refine ⟨?_, (noted o member).2⟩
  by_contra objected
  exact objected (failed o ⟨member, (statuses o member).mpr objected⟩)

theorem summarise_fail {outcomes : List GateOutcome} (h : (summarise outcomes).overall = .fail) :
    ∃ o ∈ outcomes, o.failures ≠ [] := by
  simp only [summarise] at h
  split_ifs at h with failed
  obtain ⟨reason, member⟩ := List.exists_mem_of_ne_nil _ failed
  obtain ⟨o, member, held⟩ := List.mem_flatMap.mp member
  exact ⟨o, List.mem_of_mem_filter member, List.ne_nil_of_mem held⟩

end Reporting

section Bearing

open Gate

variable {py : Stdlib} {seen ev : Evidence} {readPlanningDir : Bool} {outside : Nat → Outside}
  {w : WorkOrderMeta}

/-- Whatever part is previewed on the one evidence, its execution on the other bears it out. -/
structure BornOut (py : Stdlib) (seen ev : Evidence) (readPlanningDir : Bool) (w : WorkOrderMeta) :
    Prop where
  gates : ∀ gate ∈ w.gates, ∀ out,
    Abstracts (runGateCheck py seen (.previewing readPlanningDir) gate)
      (runGateCheck py ev (.executing out) gate)
  universal : ∀ (u : UniversalGate) (out : Outside),
    Abstracts (u.check py seen w (.previewing readPlanningDir)) (u.check py ev w (.executing out))

theorem bornOut_refl (py : Stdlib) (ev : Evidence) (readPlanningDir : Bool) (w : WorkOrderMeta) :
    BornOut py ev ev readPlanningDir w where
  gates gate _ _ := runGateCheck_abstracts gate
  universal u _ := u.abstracts

namespace BornOut

variable (bears : BornOut py seen ev readPlanningDir w)
include bears

theorem exists_executed (outside : Nat → Outside) {named : String × Gate Unit}
    (previewed : named ∈ previewedGates py seen readPlanningDir w) :
    ∃ e ∈ executedGates py ev outside w, Abstracts named.2 e := by
  rcases List.mem_append.mp previewed with listed | universal
  · obtain ⟨gate, member, rfl⟩ := List.mem_map.mp listed
    have named := List.mem_of_mem_filter member
    obtain ⟨i, at_i⟩ := List.mem_iff_getElem?.mp named
    refine ⟨runGateCheck py ev (.executing (outside i)) gate, ?_, bears.gates gate named _⟩
    refine List.mem_append_left _ (List.mem_map.mpr ⟨(gate, i), ?_, rfl⟩)
    exact List.mk_mem_zipIdx_iff_getElem?.mpr at_i
  · obtain ⟨u, member, rfl⟩ := List.mem_map.mp universal
    exact ⟨_, List.mem_append_right _ (List.mem_map_of_mem member), bears.universal u _⟩

theorem exists_previewed {e : Gate Unit} (executed : e ∈ executedGates py ev outside w) :
    e.failures = .ok [] ∨
      ∃ named ∈ previewedGates py seen readPlanningDir w, Abstracts named.2 e := by
  rcases List.mem_append.mp executed with listed | universal
  · obtain ⟨⟨gate, i⟩, at_i, rfl⟩ := List.mem_map.mp listed
    have member := List.mem_of_getElem? (List.mk_mem_zipIdx_iff_getElem?.mp at_i)
    by_cases unnamed : gate = ""
    · subst unnamed
      exact Or.inl rfl
    · refine Or.inr ⟨(gate, _), List.mem_append_left _ (List.mem_map.mpr ⟨gate, ?_, rfl⟩),
        bears.gates gate member _⟩
      exact List.mem_filter.mpr ⟨member, by simpa using unnamed⟩
  · obtain ⟨u, member, rfl⟩ := List.mem_map.mp universal
    exact Or.inr ⟨_, List.mem_append_right _ (List.mem_map_of_mem member), bears.universal u _⟩

theorem evaluate_of_pass {outcomes : List GateOutcome}
    (previewed : (previewedGates py seen readPlanningDir w).mapM outcomeOf = .ok outcomes)
    (pass : (summarise outcomes).overall = .pass) :
    evaluate (executedGates py ev outside w) = .ok [] := by
  obtain ⟨there, back⟩ := mapM_eq_ok previewed
  have clear := summarise_pass pass fun o member =>
    have ⟨_, _, came⟩ := back o member
    (outcomeOf_eq_ok came).2.2
  have silent : ∀ named ∈ previewedGates py seen readPlanningDir w,
      named.2.failures = .ok [] ∧ named.2.notRun = [] := by
    intro named member
    obtain ⟨o, member, came⟩ := there named member
    obtain ⟨failures, notes, -⟩ := outcomeOf_eq_ok came
    obtain ⟨none, complete⟩ := clear o member
    exact ⟨none ▸ failures, notes.symm.trans complete⟩
  rw [evaluate_eq_ok_nil]
  intro e executed
  rcases bears.exists_previewed executed with passed | found
  · exact passed
  · obtain ⟨named, member, abstracts⟩ := found
    exact abstracts.silent (silent named member).1 (silent named member).2

theorem refuses_of_fail {outcomes : List GateOutcome}
    (previewed : (previewedGates py seen readPlanningDir w).mapM outcomeOf = .ok outcomes)
    (fail : (summarise outcomes).overall = .fail) :
    ∃ gate ∈ executedGates py ev outside w, gate.Refuses := by
  obtain ⟨-, back⟩ := mapM_eq_ok previewed
  obtain ⟨o, member, objected⟩ := summarise_fail fail
  obtain ⟨named, member, came⟩ := back o member
  obtain ⟨gate, executed, abstracts⟩ := bears.exists_executed outside member
  exact ⟨gate, executed,
    abstracts.refuses (refuses_iff.mpr ⟨_, (outcomeOf_eq_ok came).1, objected⟩)⟩

end BornOut

end Bearing

section Soundness

variable {py : Stdlib} {a : GateAuthority} {connected : a.Connected}
  {version : { version : Nat // a.schema ≤ version }} {readPlanningDir : Bool}
  {lookup : Option WorkOrderMeta}

/-- Where the migrations of `_connect` bring artifacts to light, those the gates ask for are on disk
too, or are not read there in the preview, and no attestation is among them that decides. -/
def GateAuthority.Shown (py : Stdlib) (a : GateAuthority) (version : Nat) (readPlanningDir : Bool)
    (w : WorkOrderMeta) : Prop :=
  a.schema < 152 → 152 ≤ version →
    (readPlanningDir = true → ∀ gate ∈ w.gates, a.held.Shown py gate) ∧
      ((∀ t ∈ a.held.tasks, checkLines t = []) → a.held.isOperatorAttested py = .ok false)

theorem GateAuthority.Shown.bornOut {w : WorkOrderMeta}
    (shown : a.Shown py version readPlanningDir w) :
    BornOut py (a.evidence a.schema) (a.evidence version) readPlanningDir w := by
  unfold GateAuthority.evidence
  by_cases old : a.schema < 152
  · by_cases reached : version.val < 152
    · rw [if_pos old, if_pos reached]
      exact bornOut_refl _ _ _ _
    · obtain ⟨gates, unattested⟩ := shown old (Nat.not_lt.mp reached)
      rw [if_pos old, if_neg reached]
      refine ⟨fun gate member _ => runGateCheck_unread_abstracts fun read => gates read gate member,
        fun u out => ?_⟩
      have whole := @UniversalGate.abstracts py a.held readPlanningDir out w u
      cases u with
      | executableAc =>
        have unrecorded := a.stored_eq_none old "report" (by decide) "carry_over"
        rw [UniversalGate.check, runAcGate_unread unrecorded unattested]
        exact whole
      | changeImpactAffirmed =>
        have none := a.stored_eq_none old "impact_affirmation" (by decide) ""
        rw [UniversalGate.check, changeImpactAffirmed, Evidence.artifact_unread none]
        exact whole
      | structuralInvariants =>
        have none := a.stored_eq_none old "operator_decision" (by decide) "structure_exception"
        rw [UniversalGate.check, structuralInvariants, Evidence.artifact_unread none]
        exact whole
      | phase => exact whole
  · rw [if_neg old, if_neg (Nat.not_lt.mpr ((Nat.not_lt.mp old).trans version.2))]
    exact bornOut_refl _ _ _ _

/-- A preview that passes is borne out by the execution, and one that fails by a gate that objects
when it is executed. -/
def PreviewSound (py : Stdlib) (a : GateAuthority) (connected : a.Connected)
    (readPlanningDir : Bool) (outside : Nat → Outside) (lookup : Option WorkOrderMeta) : Prop :=
  ∀ report,
    previewWithoutRunningChecks py (a.evidence a.schema) readPlanningDir lookup =
        .ok (.ok report) →
      (report.overall = .pass →
        checkCloseGates py a connected outside lookup = .ok (.ok [])) ∧
      (report.overall = .fail →
        (∃ version w gate, connected = .ok version ∧ lookup = some w ∧
          gate ∈ executedGates py (a.evidence version) outside w ∧ gate.Refuses) ∧
        ∀ failures, checkCloseGates py a connected outside lookup = .ok (.ok failures) →
          failures ≠ [])

/-- It is sound where the authority opens and no migration on the way shows the execution what the
preview was not shown. -/
theorem preview_sound_of_shown (outside : Nat → Outside) (opened : connected = .ok version)
    (shown : ∀ w ∈ lookup, a.Shown py version readPlanningDir w) :
    PreviewSound py a connected readPlanningDir outside lookup := by
  intro report previewed
  subst opened
  cases lookup with
  | none => cases previewed
  | some w =>
    have bears := (shown w rfl).bornOut
    obtain ⟨outcomes, evaluated, same⟩ := bind_eq_ok.mp previewed
    cases same
    have executed : checkCloseGates py a (.ok version) outside (some w) =
        (do return .ok (← Gate.evaluate (executedGates py (a.evidence version) outside w))) := rfl
    constructor
    · intro pass
      rw [executed, bears.evaluate_of_pass evaluated pass]
      rfl
    · intro fail
      obtain ⟨gate, member, refused⟩ : ∃ gate ∈ executedGates py (a.evidence version) outside w,
          gate.Refuses := bears.refuses_of_fail evaluated fail
      refine ⟨⟨version, w, gate, rfl, rfl, member, refused⟩, fun failures returned none => ?_⟩
      rw [executed] at returned
      obtain ⟨failures', listed, same⟩ := bind_eq_ok.mp returned
      cases same
      exact refused.evaluate_ne_nil member (none ▸ listed)

/-- The verdict `ds work-order attest` stores. -/
def attestation : String :=
  "\x7b\"passed\": true, \"certification_basis\": \"operator_attested\"\x7d"

def attestingStdlib : Stdlib where
  __ := bareStdlib
  loads text :=
    if text = attestation then
      .ok (.obj [("passed", .bool true), ("certification_basis", .str "operator_attested")])
    else bareStdlib.loads text

def designDocument : Evidence where
  __ := shadowedTasks
  tasks := []
  stored kind key := if kind = "review_verdict" ∧ key = "" then some attestation else none
  lockedBrief := true

def pushedDesign : WorkOrderMeta where
  title := "Design brief"
  woStatus := .pushed
  typeId := some "design"
  preGate := some "design_brief_locked"
  postGate := none
  originatingSymptom := none

def attested (schema : Nat) (taken : "review_verdict" ∈ kindsAt schema) : GateAuthority where
  schema := schema
  held := designDocument
  kinds kind key stored := by
    by_cases verdict : kind = "review_verdict" ∧ key = ""
    · rw [verdict.1]
      exact taken
    · exact absurd (if_neg verdict) stored
  single _ kind key stored := by
    by_contra keyed
    exact stored (if_neg fun verdict => keyed verdict.2)

theorem preview_sound_designDocument :
    ∃ report,
      previewWithoutRunningChecks attestingStdlib designDocument false (some pushedDesign) =
          .ok (.ok report) ∧ report.overall = .pass ∧
        checkCloseGates attestingStdlib (attested 152 (by decide)) (.ok ⟨161, by decide⟩)
          (fun _ => lexerFails) (some pushedDesign) = .ok (.ok []) := by
  have sound : PreviewSound attestingStdlib (attested 152 (by decide)) (.ok ⟨161, by decide⟩) false
      (fun _ => lexerFails) (some pushedDesign) :=
    preview_sound_of_shown _ rfl fun _ _ old => absurd old (by decide)
  have previewed : previewWithoutRunningChecks attestingStdlib designDocument false
      (some pushedDesign) = .ok (.ok _) := rfl
  exact ⟨_, previewed, rfl, (sound _ previewed).1 rfl⟩

/-- The preview does not see the attestation that the execution goes by. -/
theorem attestation_unseen : ¬∀ (py : Stdlib) (a : GateAuthority) (connected : a.Connected)
    (readPlanningDir : Bool) (outside : Nat → Outside) (lookup : Option WorkOrderMeta),
    PreviewSound py a connected readPlanningDir outside lookup := by
  intro sound
  have old := sound attestingStdlib (attested 151 (by decide)) (.ok ⟨161, by decide⟩) false
    (fun _ => lexerFails) (some pushedDesign)
  have previewed : previewWithoutRunningChecks attestingStdlib designDocument.unread false
      (some pushedDesign) = .ok (.ok _) := rfl
  exact ((old _ previewed).2 rfl).2 [] rfl rfl

end Soundness

end DreamStudio.WorkOrders
