import DreamStudio.WorkOrders.Criteria

namespace DreamStudio.WorkOrders

open Library

/-- `_PROVENANCE_CUTOVER`. -/
def provenanceCutover : String := "2026-08-19"

/-- `RATIFY_ENFORCED_AFTER`, and `IMPACT_AFFIRM_ENFORCED_AFTER`, which is the same day. -/
def ratifyEnforcedAfter : String := "2026-08-02"

/-- `KNOWN_GATES`, sorted. -/
def knownGates : List String :=
  ["all_tests_pass", "anti_slop_passed", "api_contract_and_security_review", "api_contract_exists",
    "design_brief_locked", "design_critique", "game_validate", "independent_review",
    "independent_review_passed", "security_scan", "spec_approved"]

/-- `KIND_TO_FILENAME`, on the kinds a gate reads. -/
def kindToFilename : String → String
  | "api_contract" => "api-contract.md"
  | "security_scan" => "security-scan.md"
  | "review_verdict" => "review-verdict.json"
  | kind => kind

def Evidence.createdBefore (ev : Evidence) (day : String) : Bool :=
  match ev.createdAt with
  | none => true
  | some created => created = "" || decide (pyTake 10 created < day)

section Reading

variable (py : Stdlib) (ev : Evidence) (m : Mode)

def Evidence.readFile (name : String) : Gate (Option String) :=
  match ev.file name with
  | none => pure none
  | some text => some <$> Gate.ofExcept text

/-- `_artifact_with_envelope`: the authority first, the directory after it. -/
def Evidence.artifactWithEnvelope (kind : String) : Gate (Option String × Option Envelope) :=
  let held := ev.artifactEnvelope py kind
  if held.1.isSome then pure held
  else do return unwrap py (← ev.readFile (kindToFilename kind))

/-- `_disk_not_run`, for a preview that may not read the directory. -/
def diskNotRun (gate what : String) : Gate Unit :=
  if m.readPlanningDir then pure ()
  else do
    Gate.note (gate ++ ": not evaluated -- it reads " ++ what ++ " from the project's .planning " ++
      "directory, and this process has no project directory to read it from")
    Gate.pass

/-- `_absent_and_unreadable`. -/
def absentAndUnreadable (kind gate : String) : Gate Unit :=
  if m.readPlanningDir then pure ()
  else if (ev.artifact py kind).isSome then pure ()
  else do
    Gate.note (gate ++ ": not evaluated -- no " ++ kind ++ " artifact in the authority, and its " ++
      "on-disk copy under .planning cannot be located: this process has no project directory to " ++
      "read it from")
    Gate.pass

/-- `_envelope_required`. -/
def envelopeRequired (envelope : Option Envelope) (artifact remedy : String) : Option String :=
  if envelope.isSome then none
  else if ev.createdBefore provenanceCutover then none
  else
    some (artifact ++ " lacks a provenance envelope. This work order postdates the provenance " ++
      "cutover (" ++ provenanceCutover ++
        "), so its artifact should carry one — an envelope-less " ++
      "artifact is hand-written or half-written. " ++ remedy)

/-- `sha[:12]`. -/
def shortSha : Json → Except String String
  | .str sha => .ok (pyTake 12 sha)
  | .arr xs => .ok (Json.pyStr py.repr (.arr (xs.take 12)))
  | sha => .error ("'" ++ sha.pyType ++ "' object is not subscriptable")

/-- `_provenance_staleness`. -/
def provenanceStaleness (envelope : Option Envelope) : Gate (Option String) :=
  match envelope with
  | none => pure none
  | some envelope =>
    let sha := Json.lookup envelope "head_commit_sha"
    if !sha.truthy then pure none
    else
      match m with
      | .previewing _ => do
        let short ← Gate.ofExcept (shortSha py sha)
        Gate.note ("provenance staleness not checked: comparing the artifact's recorded commit (" ++
          short ++
            ") with the repository needs `git log`, which a non-executing preview does not " ++
          "start")
        return none
      | .executing outside =>
        match outside.commitsAfter (sha.pyStr py.repr) with
        | some (newest :: rest) => do
          let short ← Gate.ofExcept (shortSha py sha)
          return some (toString (rest.length + 1) ++ " work-order commit(s) landed after it was " ++
            "produced (at " ++ short ++ "; newest " ++ pyTake 12 newest ++ ")")
        | _ => pure none

def refuseStale (envelope : Option Envelope) (message : String → String) : Gate Unit := do
  match ← provenanceStaleness py m envelope with
  | some stale => Gate.refuse (message stale)
  | none => pure ()

def refuseIf (reason : Option String) : Gate Unit :=
  match reason with
  | some reason => Gate.refuse reason
  | none => pure ()

/-- `evaluate_api_contract`; `none` is a pass. -/
def evaluateApiContract (contract : Option String) : Option String :=
  match contract with
  | none => some "api-contract.md not found"
  | some text =>
    if ev.createdBefore ratifyEnforcedAfter then none
    else
      let status := (py.search
        "(?im)^\\s*[-*]?\\s*\\**status\\**\\s*:\\s*\\**\\s*([A-Za-z]+)" text).bind (·.head?)
      match status.map fun s => py.lower (pyStrip s) with
      | some "ratified" => none
      | status =>
        some ("linked spec is not Ratified (status=" ++ status.getD "missing" ++ "); ratify the " ++
          "spec before close (see docs/specs/README.md)")

/-- `is_security_blocked`. -/
def isSecurityBlocked (content : String) : Bool :=
  (py.search ("(?im)^\\s*(?:[-*]\\s*)?BLOCKED\\b|\\bBLOCKED\\s*:" ++
    "|\\b(?:status|result|verdict|finding)\\b[^\\n]*?:\\s*BLOCKED\\b") content).isSome

end Reading

section Checks

variable (py : Stdlib) (ev : Evidence) (m : Mode)

def designBriefLocked : Gate Unit := do
  if !ev.lockedBrief then
    Gate.refuse (objection "design_brief_locked" "no locked design brief found for this project")
  refuseIf (ev.staleBrief.map (objection "design_brief_locked"))

def apiContractExists : Gate Unit := do
  absentAndUnreadable py ev m "api_contract" "api_contract_exists"
  let (contract, envelope) ← ev.artifactWithEnvelope py "api_contract"
  if contract.isSome then
    refuseIf ((envelopeRequired ev envelope "api-contract.md"
      "Regenerate the contract and store it via set_wo_artifact.").map
        (objection "api_contract_exists"))
  refuseStale py m envelope fun stale =>
    objection "api_contract_exists" ("api-contract.md is stale — " ++ stale ++
      ". Regenerate the contract and re-store the artifact.")
  refuseIf ((evaluateApiContract py ev contract).map (objection "api_contract_exists"))

def apiContractAndSecurityReview : Gate Unit := do
  absentAndUnreadable py ev m "api_contract" "api_contract_and_security_review"
  let (contract, _) ← ev.artifactWithEnvelope py "api_contract"
  refuseIf ((evaluateApiContract py ev contract).map (objection "api_contract_and_security_review"))
  absentAndUnreadable py ev m "security_scan" "api_contract_and_security_review"
  let (scan, _) ← ev.artifactWithEnvelope py "security_scan"
  if scan.isNone then
    Gate.refuse (objection "api_contract_and_security_review" "security-scan.md not found")

def specApproved : Gate Unit := do
  diskNotRun m "spec_approved" "spec.md"
  if (ev.file "spec.md").isNone then Gate.refuse (objection "spec_approved" "spec.md not found")

def testFailure (hint : String) (failed : List Check) : String :=
  let unaddressed := failed.filter (·.unaddressed)
  let stated := fun (c : Check) (default : String) =>
    match c.error with
    | some error => if error = "" then default else error
    | none => default
  if unaddressed.length = failed.length then
    objection "all_tests_pass"
      ("UNVERIFIED — " ++ toString unaddressed.length ++ " TEST-CHECK(s) " ++
      "could not be RUN (target not found), none actually failed. This is not a verdict about the " ++
      "work: verify from the branch/commit where it landed, or repoint the criterion — " ++
      "; ".intercalate ((unaddressed.take 3).map fun c =>
        py.repr (.str c.expr) ++ ": " ++ stated c "target not found") ++ hint)
  else
    objection "all_tests_pass" (toString failed.length ++ " TEST-CHECK(s) failed" ++
      (if unaddressed = [] then ""
       else
        " (" ++ toString unaddressed.length ++
          " of these could not be run at all — misaddressed " ++
          "rather than failing)") ++
      " — " ++ "; ".intercalate ((failed.take 3).map fun c =>
        stated c ("TEST-CHECK " ++ py.repr (.str c.expr) ++ " failed")))

def allTestsPass : Gate Unit :=
  let testChecks := (m.allChecks ev.tasks).filter (·.kind = "TEST-CHECK")
  if testChecks = [] then
    Gate.refuse (objection "all_tests_pass"
      ("UNVERIFIED — no TEST-CHECK acceptance criteria are " ++
      "registered across this WO's tasks (or no db context to execute them). Register a TEST-CHECK " ++
      "AC (bare pytest node-id or 'cmd: ...') on a task, or attest a design-only WO via: ds " ++
      "work-order attest. The test-results.md string fallback is retired."))
  else
    match m with
    | .previewing _ => do
      Gate.note ("all_tests_pass: " ++ toString testChecks.length ++
        " TEST-CHECK(s) registered and " ++
        "not run -- running them starts a subprocess, which a non-executing preview does not do, " ++
        "so this gate has no verdict")
      Gate.pass
    | .executing outside =>
      match testChecks.filter (!·.passed) with
      | [] => Gate.pass
      | failed => Gate.refuse (testFailure py outside.deliveredStateHint failed)

def designCritique : Gate Unit := do
  diskNotRun m "design_critique" "design-critique.md"
  match ← ev.readFile "design-critique.md" with
  | none => Gate.refuse (objection "design_critique" "design-critique.md not found")
  | some stored =>
    let (content, envelope) := unwrap py (some stored)
    refuseIf ((envelopeRequired ev envelope "design-critique.md"
      "Re-run website:critique and store the result via set_wo_artifact.").map
        (objection "design_critique"))
    refuseStale py m envelope fun stale =>
      objection "design_critique" ("design-critique.md is stale — " ++ stale ++
        ". Re-run website:critique and re-store the artifact.")
    match content with
    | none => Gate.refuse (objection "design_critique" "design-critique.md is empty")
    | some content =>
      match (py.search "Score:\\s*(\\d+)/(\\d+)" content).bind (·.head?) with
      | none =>
        Gate.refuse (objection "design_critique" "no 'Score: N/M' found in design-critique.md")
      | some digits =>
        let score ← Gate.ofExcept (py.int digits)
        if score < 3 then
          Gate.refuse (objection "design_critique" ("score " ++ toString score ++
            " is below minimum 3"))

def securityScan : Gate Unit := do
  absentAndUnreadable py ev m "security_scan" "security_scan"
  let (content, envelope) ← ev.artifactWithEnvelope py "security_scan"
  match content with
  | none => Gate.refuse (objection "security_scan" "security-scan.md not found")
  | some content =>
    refuseIf ((envelopeRequired ev envelope "security-scan.md"
      "Re-run the security audit and store the result via set_wo_artifact.").map
        ("security_scan: " ++ ·))
    refuseStale py m envelope fun stale =>
      objection "security_scan" ("security-scan.md is stale — " ++ stale ++
        ". Re-run the security audit and re-store the artifact.")
    if isSecurityBlocked py content then
      Gate.refuse (objection "security_scan" "security-scan.md reports a BLOCKED finding")

def gameValidate : Gate Unit := do
  diskNotRun m "game_validate" "game-validate.md"
  if (ev.file "game-validate.md").isNone then
    Gate.refuse (objection "game_validate" "game-validate.md not found")

def antiSlopPassed : Gate Unit := do
  diskNotRun m "anti_slop_passed" "lint-results.md"
  match ← ev.readFile "lint-results.md" with
  | none =>
    Gate.refuse (objection "anti_slop_passed" ("lint-results.md not found. Run: python " ++
      "canonical/skills/website/scripts/lint-artifact.py <artifact_path> > .planning/work-orders/" ++
      ev.workOrderId ++ "/lint-results.md"))
  | some lint =>
    if contains (py.upper lint) "BLOCKED" then
      Gate.refuse (objection "anti_slop_passed" "lint-results.md contains BLOCKED")
    if !contains (py.upper lint) "PASSED" then
      Gate.refuse (objection "anti_slop_passed" "lint-results.md does not contain PASSED")

def independentReviewPassed : Gate Unit := do
  diskNotRun m "independent_review_passed" "independent-review.md"
  match ← ev.readFile "independent-review.md" with
  | none =>
    Gate.refuse (objection "independent_review_passed" ("independent-review.md not found. The " ++
      "execute-work-orders workflow writes this via the independent-review node."))
  | some review =>
    let squeezed := String.ofList ((py.upper review).toList.filter fun c => c ≠ ' ' ∧ c ≠ '\n')
    -- no squeezed text has the blank that is looked for, so the pattern below decides
    if !contains squeezed "VERDICT: PASS" then
      if (py.search "(?i)VERDICT\\s*:\\s*PASS" review).isNone then
        Gate.refuse (objection "independent_review_passed"
          "independent-review.md does not contain 'VERDICT: PASS'")

def verdictArtifact : Gate (Option String × Option Envelope) :=
  ev.artifactWithEnvelope py "review_verdict"

def independentReview : Gate Unit := do
  absentAndUnreadable py ev m "review_verdict" "independent_review"
  let (raw, envelope) ← verdictArtifact py ev
  match raw with
  | none =>
    Gate.refuse (objection "independent_review"
      ("review-verdict.json not found. Run: ds work-order " ++
      "verify " ++ ev.workOrderId))
  | some raw =>
    if !(envelope.any fun fields => (Json.lookup fields "generator").truthy) then
      Gate.refuse (objection "independent_review" ("verdict lacks a provenance envelope (hand-" ++
        "written or pre-provenance) — re-run: ds work-order verify " ++ ev.workOrderId))
    refuseStale py m envelope fun stale =>
      objection "independent_review" ("verdict is stale — " ++ stale ++
        ". Re-run: ds work-order verify " ++ ev.workOrderId)
    match py.loads raw with
    | .error exc =>
      Gate.refuse (objection "independent_review"
        ("review-verdict.json is not valid JSON: " ++ exc))
    | .ok verdict => refuseIf (← Gate.ofExcept (judgeVerdict py ev.workOrderId verdict))

def unrecognisedReason (gate : String) : String :=
  objection gate
    ("unrecognised gate — close_gates.run_gate_check has no check by that name, so it " ++
    "cannot be evaluated. Known gates: " ++ ", ".intercalate knownGates ++
      ". Correct the name on the " ++
    "work order type, implement the gate, or close with --force (which is recorded as a bypass).")

/-- `run_gate_check`. -/
def runGateCheck : String → Gate Unit
  | "" => Gate.pass
  | "design_brief_locked" => designBriefLocked ev
  | "api_contract_exists" => apiContractExists py ev m
  | "api_contract_and_security_review" => apiContractAndSecurityReview py ev m
  | "spec_approved" => specApproved ev m
  | "all_tests_pass" => allTestsPass py ev m
  | "design_critique" => designCritique py ev m
  | "security_scan" => securityScan py ev m
  | "game_validate" => gameValidate ev m
  | "anti_slop_passed" => antiSlopPassed py ev m
  | "independent_review_passed" => independentReviewPassed py ev m
  | "independent_review" => independentReview py ev m
  | gate => Gate.refuse (unrecognisedReason gate)

end Checks

section Abstraction

open Gate

variable {py : Stdlib} {ev : Evidence} {readPlanningDir : Bool} {out : Outside}

theorem note_pass_abstracts (text : String) (e : Gate Unit) :
    Abstracts (do note text; pass) e :=
  Abstracts.of_passes rfl (List.cons_ne_nil _ _)

theorem diskNotRun_abstracts (gate what : String) :
    Abstracts (diskNotRun (.previewing readPlanningDir) gate what)
      (diskNotRun (.executing out) gate what) := by
  cases readPlanningDir with
  | true => exact Abstracts.refl _
  | false => exact note_pass_abstracts _ _

theorem absentAndUnreadable_abstracts (kind gate : String) :
    Abstracts (absentAndUnreadable py ev (.previewing readPlanningDir) kind gate)
      (absentAndUnreadable py ev (.executing out) kind gate) := by
  cases readPlanningDir with
  | true => exact Abstracts.refl _
  | false =>
    unfold absentAndUnreadable
    by_cases held : (ev.artifact py kind).isSome = true
    · simpa [Mode.readPlanningDir, held] using Abstracts.refl (pure ())
    · simpa [Mode.readPlanningDir, held] using note_pass_abstracts _ _

/-- The preview has a note where `git log` would have been asked. -/
theorem refuseStale_abstracts (envelope : Option Envelope) (message : String → String) :
    Abstracts (refuseStale py (.previewing readPlanningDir) envelope message)
      (refuseStale py (.executing out) envelope message) := by
  unfold refuseStale provenanceStaleness
  cases envelope with
  | none => exact Abstracts.refl _
  | some envelope =>
    by_cases recorded : (Json.lookup envelope "head_commit_sha").truthy = true
    · simp only [recorded, Bool.not_true, Bool.false_eq_true, if_false]
      cases short : shortSha py (Json.lookup envelope "head_commit_sha") with
      | error error => trivial
      | ok short =>
        rcases out.commitsAfter _ with _ | _ | ⟨newest, rest⟩
        · exact Or.inl rfl
        · exact Or.inl rfl
        · exact Or.inr ⟨⟨_, _, rfl⟩, List.cons_ne_nil _ _⟩
    · simp only [recorded, Bool.not_false, if_true]
      exact Abstracts.refl _

theorem apiContractExists_abstracts :
    Abstracts (apiContractExists py ev (.previewing readPlanningDir))
      (apiContractExists py ev (.executing out)) := by
  refine Abstracts.bind (absentAndUnreadable_abstracts _ _) fun _ => ?_
  refine Abstracts.after _ fun (contract, envelope) => ?_
  dsimp only
  split
  · refine Abstracts.after _ fun _ => ?_
    exact Abstracts.bind (refuseStale_abstracts _ _) fun _ => Abstracts.refl _
  · exact Abstracts.bind (refuseStale_abstracts _ _) fun _ => Abstracts.refl _

theorem apiContractAndSecurityReview_abstracts :
    Abstracts (apiContractAndSecurityReview py ev (.previewing readPlanningDir))
      (apiContractAndSecurityReview py ev (.executing out)) := by
  refine Abstracts.bind (absentAndUnreadable_abstracts _ _) fun _ => ?_
  refine Abstracts.after _ fun (contract, _) => ?_
  refine Abstracts.after _ fun _ => ?_
  refine Abstracts.bind (absentAndUnreadable_abstracts _ _) fun _ => ?_
  exact Abstracts.refl _

theorem specApproved_abstracts :
    Abstracts (specApproved ev (.previewing readPlanningDir)) (specApproved ev (.executing out)) :=
  Abstracts.bind (diskNotRun_abstracts _ _) fun _ => Abstracts.refl _

theorem gameValidate_abstracts :
    Abstracts (gameValidate ev (.previewing readPlanningDir)) (gameValidate ev (.executing out)) :=
  Abstracts.bind (diskNotRun_abstracts _ _) fun _ => Abstracts.refl _

theorem antiSlopPassed_abstracts :
    Abstracts (antiSlopPassed py ev (.previewing readPlanningDir))
      (antiSlopPassed py ev (.executing out)) :=
  Abstracts.bind (diskNotRun_abstracts _ _) fun _ => Abstracts.refl _

theorem independentReviewPassed_abstracts :
    Abstracts (independentReviewPassed py ev (.previewing readPlanningDir))
      (independentReviewPassed py ev (.executing out)) :=
  Abstracts.bind (diskNotRun_abstracts _ _) fun _ => Abstracts.refl _

theorem exists_kind_iff (tasks : List WorkOrderTask) (kind : String) (m m' : Mode) :
    (∃ c ∈ m.allChecks tasks, c.kind = kind) ↔ ∃ c ∈ m'.allChecks tasks, c.kind = kind := by
  suffices ∀ m : Mode, (∃ c ∈ m.allChecks tasks, c.kind = kind) ↔
      ∃ t, Kept tasks t ∧ ∃ (line : Nat) (expr : String), (checkLines t)[line]? =
        some (kind, expr) from
    (this m).trans (this m').symm
  intro m
  constructor
  · rintro ⟨c, member, rfl⟩
    obtain ⟨t, kept, held⟩ := Mode.mem_allChecks.mp member
    obtain ⟨line, token, expr, found, rfl⟩ := Mode.mem_checksOn.mp held
    exact ⟨t, kept, line, expr, by rw [found, Mode.check_kind]⟩
  · rintro ⟨t, kept, line, expr, found⟩
    exact ⟨_, Mode.mem_allChecks.mpr
      ⟨t, kept, Mode.mem_checksOn.mpr ⟨line, kind, expr, found, rfl⟩⟩,
      Mode.check_kind⟩

theorem allTestsPass_abstracts :
    Abstracts (allTestsPass py ev (.previewing readPlanningDir))
      (allTestsPass py ev (.executing out)) := by
  have same : ((Mode.previewing readPlanningDir).allChecks ev.tasks).filter
      (·.kind = "TEST-CHECK") = [] ↔
      ((Mode.executing out).allChecks ev.tasks).filter (·.kind = "TEST-CHECK") = [] := by
    have kinds := exists_kind_iff ev.tasks "TEST-CHECK" (.previewing readPlanningDir)
      (.executing out)
    simpa [List.filter_eq_nil_iff] using not_congr kinds
  unfold allTestsPass
  by_cases none : ((Mode.executing out).allChecks ev.tasks).filter (·.kind = "TEST-CHECK") = []
  · simp only [if_pos none, if_pos (same.mpr none)]
    exact Abstracts.refl _
  · simp only [if_neg none, if_neg (same.not.mpr none)]
    exact note_pass_abstracts _ _

theorem designCritique_abstracts :
    Abstracts (designCritique py ev (.previewing readPlanningDir))
      (designCritique py ev (.executing out)) := by
  refine Abstracts.bind (diskNotRun_abstracts _ _) fun _ => ?_
  refine Abstracts.after _ fun stored => ?_
  cases stored with
  | none => exact Abstracts.refl _
  | some stored =>
    apply Abstracts.after
    intro _
    apply Abstracts.bind (refuseStale_abstracts _ _)
    intro _
    apply Abstracts.refl

theorem securityScan_abstracts :
    Abstracts (securityScan py ev (.previewing readPlanningDir))
      (securityScan py ev (.executing out)) := by
  refine Abstracts.bind (absentAndUnreadable_abstracts _ _) fun _ => ?_
  refine Abstracts.after _ fun (content, envelope) => ?_
  cases content with
  | none => exact Abstracts.refl _
  | some content =>
    refine Abstracts.after _ fun _ => ?_
    exact Abstracts.bind (refuseStale_abstracts _ _) fun _ => Abstracts.refl _

theorem independentReview_abstracts :
    Abstracts (independentReview py ev (.previewing readPlanningDir))
      (independentReview py ev (.executing out)) := by
  refine Abstracts.bind (absentAndUnreadable_abstracts _ _) fun _ => ?_
  refine Abstracts.after _ fun (raw, envelope) => ?_
  cases raw with
  | none => exact Abstracts.refl _
  | some raw =>
    dsimp only
    split
    · exact Abstracts.refl _
    · exact Abstracts.bind (refuseStale_abstracts _ _) fun _ => Abstracts.refl _

theorem runGateCheck_abstracts (gate : String) :
    Abstracts (runGateCheck py ev (.previewing readPlanningDir) gate)
      (runGateCheck py ev (.executing out) gate) := by
  unfold runGateCheck
  split
  · exact Abstracts.refl _
  · exact Abstracts.refl _
  · exact apiContractExists_abstracts
  · exact apiContractAndSecurityReview_abstracts
  · exact specApproved_abstracts
  · exact allTestsPass_abstracts
  · exact designCritique_abstracts
  · exact securityScan_abstracts
  · exact gameValidate_abstracts
  · exact antiSlopPassed_abstracts
  · exact independentReviewPassed_abstracts
  · exact independentReview_abstracts
  · exact Abstracts.refl _

end Abstraction

end DreamStudio.WorkOrders
