import DreamStudio.WorkOrders.Waivers

namespace DreamStudio.WorkOrders

open Library

def storedVerdict : String :=
  "\x7b\"__ds_envelope__\": 1, \"generator\": \"ds work-order verify\", \"content\": \"...\"\x7d"

def unreviewableVerdict : String := "\x7b\"passed\": false, \"unreviewable\": true, ...\x7d"

def calmStdlib : Stdlib where
  __ := bareStdlib
  loads text :=
    if text = storedVerdict then
      .ok (.obj [("__ds_envelope__", .int 1), ("generator", .str "ds work-order verify"),
        ("content", .str unreviewableVerdict)])
    else if text = unreviewableVerdict then
      .ok (.obj [("passed", .bool false), ("unreviewable", .bool true),
        ("round_table", .obj [("seats", .arr [.str "correctness"])])])
    else bareStdlib.loads text
  search _ text :=
    if text = "Score: 5/5" then some ["5", "5"] else if text = "VERDICT: PASS" then
      some [] else none
  int digits := if digits = "5" then .ok 5 else .error "invalid literal for int()"

def calmEvidence (verdict reviewFile : Bool) : Evidence where
  workOrderId := "wo"
  createdAt := none
  tasks := [shipTask "t1" "tests/test_parser.py"]
  stored kind _ :=
    if kind = "api_contract" ∨ kind = "security_scan" then some "Nothing found."
    else if kind = "review_verdict" ∧ verdict then some storedVerdict
    else none
  file name :=
    if name = "spec.md" ∨ name = "game-validate.md" then some (.ok "")
    else if name = "design-critique.md" then some (.ok "Score: 5/5")
    else if name = "lint-results.md" then some (.ok "PASSED")
    else if name = "independent-review.md" ∧ reviewFile then some (.ok "VERDICT: PASS")
    else none
  lockedBrief := true
  staleBrief := none
  violations := []

def calmWorld (before gated : Evidence) (verify : Except String Verified)
    (escalationLevel : Option Int) :
    World where
  statusAtStart := some .pushed
  before := before
  verify := verify
  gated := gated
  reverify := .error "timed out"
  reverified := gated
  ran _ _ _ := ⟨true, none, true, false⟩
  commitsAfter _ := none
  deliveredStateHint := ""
  symptom := ⟨.ok (), fun _ => .ok (true, "1"), fun _ => .ok ()⟩
  dashboard := ⟨true, []⟩
  lanes :=
    { project := none
      dispatch := some {
        credentialHashes := []
        round := 1
        sha := "3f2a"
        image := "reviewer"
        changeSet := .null
        assignments := []
        carriedOpenFindings := []
        at_ := "2026-08-01" } }
  escalationLevel := escalationLevel
  mainIsRed := false
  statusAtWrite := some .pushed

def calmWork (t : TypeGates) : WorkOrderMeta where
  toTypeGates := t
  title := "Ship the parser"
  woStatus := .pushed
  originatingSymptom := none

def unreviewableReason : String :=
  objection "independent_review" ("unreviewable — " ++ "no commit evidence found; " ++
    "review manually or ensure commits carry the WO id / Work-Order: trailer")

section Says

variable {before gated : Evidence} {verify : Except String Verified} {level : Option Int} (i : Nat)

theorem calm_checks (verdict reviewFile : Bool) :
    (Mode.executing ((calmWorld before gated verify level).outside i)).allChecks
      (calmEvidence verdict reviewFile).tasks =
        [{ kind := "TEST-CHECK", expr := "tests/test_parser.py", passed := true, error := none,
           executed := true }] := by
  have line : checkLines (shipTask "t1" "tests/test_parser.py") =
      [("TEST-CHECK", "tests/test_parser.py")] := by decide +kernel
  simp [Mode.allChecks, Mode.executableChecks, calmEvidence, Mode.checksOn, line,
    Dict.set, Mode.check,
    runnableKinds, World.outside, calmWorld]

theorem calm_gate_passes (verdict reviewFile : Bool) {gate : String} (known : Recognised gate)
    (other : gate ≠ "independent_review")
    (present : gate = "independent_review_passed" → reviewFile = true) :
    (runGateCheck calmStdlib (calmEvidence verdict reviewFile)
      (.executing ((calmWorld before gated verify level).outside i)) gate).failures = .ok [] := by
  rcases known with rfl | known
  · rfl
  · simp only [knownGates, List.mem_cons, List.not_mem_nil, or_false] at known
    rcases known with rfl | rfl | rfl | rfl | rfl | rfl | rfl | rfl | rfl | rfl | rfl
    · simp [runGateCheck, allTestsPass, calm_checks]
    · rfl
    · rfl
    · rfl
    · rfl
    · rfl
    · rfl
    · exact absurd rfl other
    · cases present rfl
      rfl
    · rfl
    · rfl

theorem calm_verdict (reviewFile : Bool) :
    (calmEvidence true reviewFile).artifactEnvelope calmStdlib "review_verdict" =
      (some unreviewableVerdict,
        some [("__ds_envelope__", .int 1), ("generator", .str "ds work-order verify")]) := by
  have opening : startsWith (String.ofList (storedVerdict.toList.dropWhile pySpace)) "\x7b" =
      true := by
    rw [startsWith, String.toList_ofList, storedVerdict, String.toList_ofList,
      String.toList_ofList]
    rfl
  have loads : calmStdlib.loads storedVerdict = .ok (.obj [("__ds_envelope__", .int 1),
      ("generator", .str "ds work-order verify"), ("content", .str unreviewableVerdict)]) := by
    simp only [calmStdlib, if_true]
  have stored : (calmEvidence true reviewFile).artifactEnvelope calmStdlib "review_verdict" =
      unwrap calmStdlib (some storedVerdict) := rfl
  rw [stored, unwrap, opening, loads]
  rfl

theorem calm_review_refuses (reviewFile : Bool) :
    (independentReview calmStdlib (calmEvidence true reviewFile)
      (.executing ((calmWorld before gated verify level).outside i))).failures =
        .ok [unreviewableReason] := by
  rw [independentReview, verdictArtifact, Evidence.artifactWithEnvelope, calm_verdict]
  rfl

theorem calm_file_missing (verdict : Bool) :
    (runGateCheck calmStdlib (calmEvidence verdict false)
      (.executing ((calmWorld before gated verify level).outside i))
        "independent_review_passed").failures =
        .ok [objection "independent_review_passed" ("independent-review.md not found. The " ++
          "execute-work-orders workflow writes this via the independent-review node.")] := by
  rw [runGateCheck, independentReviewPassed]
  rfl

theorem calm_criteria (verdict reviewFile : Bool) :
    (runAcGate calmStdlib (calmEvidence verdict reviewFile)
      (.executing ((calmWorld before gated verify level).outside i))).failures = .ok [] := by
  have held : (calmEvidence verdict reviewFile).uncarried calmStdlib =
      (calmEvidence verdict reviewFile).tasks := rfl
  simp only [runAcGate, held, calm_checks]
  rfl

end Says

section Collects

variable {registry : Dict String Bool} {call : CloseCall} {before : Evidence} {reviewFile : Bool}
  {verify : Except String Verified} {level : Option Int} {t : TypeGates}

theorem calm_collect {gates review : List String}
    (evaluated : evaluateGates calmStdlib
      (calmWorld before (calmEvidence true reviewFile) verify level) (calmWork t) = .ok gates)
    (reviewed : defaultReview calmStdlib registry call
      (calmWorld before (calmEvidence true reviewFile) verify level) (calmWork t) =
        .ok (calmEvidence true reviewFile, review)) :
    collect calmStdlib registry call (calmWorld before (calmEvidence true reviewFile) verify level)
      (calmWork t) =
        .ok ⟨calmEvidence true reviewFile, [],
          (waiveUnreviewableReview call.skipVerify gates).1 ++ review⟩ := by
  have criteria : criteriaFailures calmStdlib call
      (calmWorld before (calmEvidence true reviewFile) verify level) (calmWork t)
      (calmEvidence true reviewFile) = .ok [] := by
    unfold criteriaFailures
    split
    · rfl
    · exact calm_criteria _ _ _
  have structural : (structuralInvariants calmStdlib (calmEvidence true reviewFile)).failures =
      .ok [] :=
    rfl
  have impact : (changeImpactAffirmed calmStdlib (calmEvidence true reviewFile)).failures =
      .ok [] := rfl
  have truth : dashboardFailures (calmWorld before (calmEvidence true reviewFile) verify level)
      (calmWork t) = [] := by
    simp [dashboardFailures, calmWorld]
  have done : checkTasksDone calmStdlib (calmEvidence true reviewFile) = [] := rfl
  have lanes : laneReviewFailure (calmEvidence true reviewFile)
      (calmWorld before (calmEvidence true reviewFile) verify level) = none := rfl
  have symptoms : symptomFailures calmStdlib
      (calmWorld before (calmEvidence true reviewFile) verify level) (calmWork t) = [] := rfl
  simp only [collect, evaluated, reviewed, criteria, structural, impact, ok_bind,
    truth, done, lanes,
    symptoms, List.append_nil, Option.toList_none]
  rfl

theorem calm_evaluates {P : String → Prop}
    (spoken : ∀ i gate, t.gates[i]? = some gate → ∃ own, (runGateCheck calmStdlib
      (calmEvidence true reviewFile) (.executing
        ((calmWorld before (calmEvidence true reviewFile) verify level).outside i)) gate).failures =
          .ok own ∧ ∀ f ∈ own, P f) :
    ∃ gates, evaluateGates calmStdlib (calmWorld before (calmEvidence true reviewFile) verify level)
      (calmWork t) = .ok gates ∧ ∀ f ∈ gates, P f := by
  refine Gate.evaluate_of_forall fun g member => ?_
  obtain ⟨⟨gate, i⟩, held, rfl⟩ := List.mem_map.mp member
  exact spoken i gate (List.mk_mem_zipIdx_iff_getElem?.mp held)

theorem calm_closes {verified : Option Verified} {c : Collected}
    (convened : convene calmStdlib registry call
      (calmWorld before (calmEvidence true reviewFile) verify level) (calmWork t) = .ok verified)
    (collected : collect calmStdlib registry call
      (calmWorld before (calmEvidence true reviewFile) verify level) (calmWork t) = .ok c)
    (clear : ∀ f ∈ waive (calmWorld before (calmEvidence true reviewFile) verify level) verified c,
      call.force = true ∧ namesReview f = false) :
    ∃ bypassed, closeWorkOrder calmStdlib registry call
      (calmWorld before (calmEvidence true reviewFile) verify level) (some (calmWork t)) =
        .closed bypassed := by
  have opens : (calmWorld before (calmEvidence true reviewFile) verify level).statusAtStart.bind
      (transitionRefusal before.workOrderId · .closed) = none := rfl
  have unforced (h : call.force = false) :
      waive (calmWorld before (calmEvidence true reviewFile) verify level) verified c = [] := by
    rw [List.eq_nil_iff_forall_not_mem]
    intro f member
    rw [(clear f member).1] at h
    cases h
  have written : (calmWorld before (calmEvidence true reviewFile) verify level).statusAtWrite =
      some .pushed := rfl
  have concluded := conclude_of (fun _ f member => (clear f member).2) unforced (Or.inl rfl) written
    (by decide)
  exact ⟨_, (closeWorkOrder_of opens convened collected).trans concluded⟩

end Collects

end DreamStudio.WorkOrders
