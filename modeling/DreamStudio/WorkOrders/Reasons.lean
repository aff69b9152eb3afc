import DreamStudio.WorkOrders.Gates

namespace DreamStudio.WorkOrders

open Library Gate

def By (gate reason : String) : Prop := startsWith reason (gate ++ ":") = true

theorem by_objection (gate text : String) : By gate (objection gate text) := by
  unfold By objection
  rw [String.append_assoc]
  exact startsWith_append _ _

abbrev InItsName {α : Type} (gate : String) (g : Gate α) : Prop := Reasoned (By gate) g

section Parts

variable {py : Stdlib} {ev : Evidence} {m : Mode} {gate : String}

theorem readFile_inItsName (name : String) : InItsName gate (ev.readFile name) := by
  unfold Evidence.readFile
  cases ev.file name with
  | none => exact reasoned_pure _
  | some text => exact Reasoned.bind (reasoned_ofExcept text) fun _ => reasoned_pure _

theorem artifactWithEnvelope_inItsName (kind : String) :
    InItsName gate (ev.artifactWithEnvelope py kind) :=
  reasoned_ite (reasoned_pure _) (Reasoned.bind (readFile_inItsName _) fun _ => reasoned_pure _)

theorem diskNotRun_inItsName (what : String) : InItsName gate (diskNotRun m gate what) :=
  reasoned_ite (reasoned_pure _) (Reasoned.bind (reasoned_note _) fun _ => reasoned_pass)

theorem absentAndUnreadable_inItsName (kind : String) :
    InItsName gate (absentAndUnreadable py ev m kind gate) :=
  reasoned_ite (reasoned_pure _)
    (reasoned_ite (reasoned_pure _) (Reasoned.bind (reasoned_note _) fun _ => reasoned_pass))

theorem refuseIf_inItsName {reason : Option String} (h : ∀ r, reason = some r → By gate r) :
    InItsName gate (refuseIf reason) := by
  cases reason with
  | none => exact reasoned_pure _
  | some reason => exact reasoned_refuse (h reason rfl)

theorem refuse_inItsName (text : String) :
    InItsName gate (refuse (objection gate text) : Gate Unit) :=
  reasoned_refuse (by_objection gate text)

theorem refuseIf_map_inItsName (reason : Option String) :
    InItsName gate (refuseIf (reason.map (objection gate))) := by
  refine refuseIf_inItsName fun r same => ?_
  obtain ⟨text, -, rfl⟩ := Option.map_eq_some_iff.mp same
  exact by_objection gate text

theorem provenanceStaleness_inItsName (envelope : Option Envelope) :
    InItsName gate (provenanceStaleness py m envelope) := by
  unfold provenanceStaleness
  cases envelope with
  | none => exact reasoned_pure _
  | some envelope =>
    refine reasoned_ite (reasoned_pure _) ?_
    cases m with
    | previewing =>
      refine Reasoned.bind (reasoned_ofExcept _) fun _ => ?_
      exact Reasoned.bind (reasoned_note _) fun _ => reasoned_pure _
    | executing out =>
      dsimp only
      split
      · exact Reasoned.bind (reasoned_ofExcept _) fun _ => reasoned_pure _
      · exact reasoned_pure _

theorem refuseStale_inItsName (text : String → String) (envelope : Option Envelope) :
    InItsName gate (refuseStale py m envelope fun stale => objection gate (text stale)) := by
  refine Reasoned.bind (provenanceStaleness_inItsName envelope) fun stale => ?_
  cases stale with
  | none => exact reasoned_pure _
  | some stale => exact refuse_inItsName (text stale)

end Parts

section Verdict

variable {py : Stdlib}

def Gives {α : Type} (P : α → Prop) (x : Except String α) : Prop := ∀ a, x = .ok a → P a

theorem Gives.bind {α β : Type} {P : β → Prop} {x : Except String α} {f : α → Except String β}
    (h : ∀ a, Gives P (f a)) : Gives P (x >>= f) := by
  intro b same
  obtain ⟨a, -, same⟩ := bind_eq_ok.mp same
  exact h a b same

theorem Gives.of_ok {α : Type} {P : α → Prop} {a : α} (h : P a) : Gives P (.ok a) := by
  intro b same
  cases same
  exact h

def AccusesReview (reason : Option String) : Prop :=
  ∀ r, reason = some r → By "independent_review" r

theorem AccusesReview.none : AccusesReview none := nofun

theorem AccusesReview.of_by {reason : String} (h : By "independent_review" reason) :
    AccusesReview (some reason) := by
  intro r same
  cases same
  exact h

theorem convenedNoLane_gives (workOrderId : String) (verdict : Json) :
    Gives AccusesReview (convenedNoLane py workOrderId verdict) := by
  unfold convenedNoLane
  refine Gives.bind fun attested => ?_
  split
  · exact Gives.of_ok AccusesReview.none
  · refine Gives.bind fun table => ?_
    refine Gives.bind fun seats => ?_
    split
    · exact Gives.of_ok AccusesReview.none
    · exact Gives.bind fun why => Gives.of_ok (AccusesReview.of_by (by_objection _ _))

theorem reviewFailure_gives (workOrderId : String) (verdict : Json) :
    Gives (By "independent_review") (reviewFailure py workOrderId verdict) := by
  unfold reviewFailure
  refine Gives.bind fun unreviewable => ?_
  split
  · exact Gives.bind fun inner => Gives.of_ok (by_objection _ _)
  · refine Gives.bind fun gapMsg => ?_
    refine Gives.bind fun (summary, reasons) => ?_
    refine Gives.bind fun scores => ?_
    split
    · exact Gives.of_ok (by_objection _ _)
    · exact Gives.bind fun note => Gives.of_ok (by_objection _ _)

theorem judgeVerdict_gives (workOrderId : String) (verdict : Json) :
    Gives AccusesReview (judgeVerdict py workOrderId verdict) := by
  unfold judgeVerdict
  intro reason same
  obtain ⟨lanes, convened, same⟩ := bind_eq_ok.mp same
  cases lanes with
  | some lanes =>
    cases same
    exact convenedNoLane_gives workOrderId verdict _ convened
  | none =>
    obtain ⟨passed, -, same⟩ := bind_eq_ok.mp same
    split at same
    · cases same
      exact AccusesReview.none
    · obtain ⟨text, failed, same⟩ := bind_eq_ok.mp same
      cases same
      exact AccusesReview.of_by (reviewFailure_gives workOrderId verdict text failed)

end Verdict

section Checks

variable {py : Stdlib} {ev : Evidence} {m : Mode}

theorem designBriefLocked_inItsName : InItsName "design_brief_locked" (designBriefLocked ev) := by
  unfold designBriefLocked
  split
  · exact Reasoned.bind (refuse_inItsName _) fun _ => refuseIf_map_inItsName _
  · exact refuseIf_map_inItsName _

theorem apiContractExists_inItsName :
    InItsName "api_contract_exists" (apiContractExists py ev m) := by
  refine Reasoned.bind (absentAndUnreadable_inItsName _) fun _ => ?_
  refine Reasoned.bind (artifactWithEnvelope_inItsName _) fun (contract, envelope) => ?_
  dsimp only
  split
  · refine Reasoned.bind (refuseIf_map_inItsName _) fun _ => ?_
    exact Reasoned.bind (refuseStale_inItsName _ _) fun _ => refuseIf_map_inItsName _
  · exact Reasoned.bind (refuseStale_inItsName _ _) fun _ => refuseIf_map_inItsName _

theorem apiContractAndSecurityReview_inItsName :
    InItsName "api_contract_and_security_review" (apiContractAndSecurityReview py ev m) := by
  refine Reasoned.bind (absentAndUnreadable_inItsName _) fun _ => ?_
  refine Reasoned.bind (artifactWithEnvelope_inItsName _) fun (contract, _) => ?_
  refine Reasoned.bind (refuseIf_map_inItsName _) fun _ => ?_
  refine Reasoned.bind (absentAndUnreadable_inItsName _) fun _ => ?_
  refine Reasoned.bind (artifactWithEnvelope_inItsName _) fun (scan, _) => ?_
  exact reasoned_ite (refuse_inItsName _) (reasoned_pure _)

theorem specApproved_inItsName : InItsName "spec_approved" (specApproved ev m) :=
  Reasoned.bind (diskNotRun_inItsName _) fun _ =>
    reasoned_ite (refuse_inItsName _) (reasoned_pure _)

theorem gameValidate_inItsName : InItsName "game_validate" (gameValidate ev m) :=
  Reasoned.bind (diskNotRun_inItsName _) fun _ =>
    reasoned_ite (refuse_inItsName _) (reasoned_pure _)

theorem testFailure_by (hint : String) (failed : List Check) :
    By "all_tests_pass" (testFailure py hint failed) := by
  unfold testFailure
  dsimp only
  split
  · exact by_objection _ _
  · exact by_objection _ _

theorem allTestsPass_inItsName : InItsName "all_tests_pass" (allTestsPass py ev m) := by
  refine reasoned_ite (refuse_inItsName _) ?_
  cases m with
  | previewing => exact Reasoned.bind (reasoned_note _) fun _ => reasoned_pass
  | executing out =>
    dsimp only
    split
    · exact reasoned_pass
    · exact reasoned_refuse (testFailure_by _ _)

theorem designCritique_inItsName : InItsName "design_critique" (designCritique py ev m) := by
  refine Reasoned.bind (diskNotRun_inItsName _) fun _ => ?_
  refine Reasoned.bind (readFile_inItsName _) fun stored => ?_
  cases stored with
  | none => exact refuse_inItsName _
  | some stored =>
    refine Reasoned.bind (refuseIf_map_inItsName _) fun _ => ?_
    refine Reasoned.bind (refuseStale_inItsName _ _) fun _ => ?_
    split
    · exact refuse_inItsName _
    · split
      · exact refuse_inItsName _
      · refine Reasoned.bind (reasoned_ofExcept _) fun score => ?_
        exact reasoned_ite (refuse_inItsName _) (reasoned_pure _)

theorem securityScan_inItsName : InItsName "security_scan" (securityScan py ev m) := by
  refine Reasoned.bind (absentAndUnreadable_inItsName _) fun _ => ?_
  refine Reasoned.bind (artifactWithEnvelope_inItsName _) fun (content, envelope) => ?_
  cases content with
  | none => exact refuse_inItsName _
  | some content =>
    refine Reasoned.bind (refuseIf_map_inItsName _) fun _ => ?_
    refine Reasoned.bind (refuseStale_inItsName _ _) fun _ => ?_
    exact reasoned_ite (refuse_inItsName _) (reasoned_pure _)

theorem antiSlopPassed_inItsName : InItsName "anti_slop_passed" (antiSlopPassed py ev m) := by
  refine Reasoned.bind (diskNotRun_inItsName _) fun _ => ?_
  refine Reasoned.bind (readFile_inItsName _) fun lint => ?_
  cases lint with
  | none => exact refuse_inItsName _
  | some lint =>
    dsimp only
    split
    · exact Reasoned.bind (refuse_inItsName _) fun _ =>
        reasoned_ite (refuse_inItsName _) (reasoned_pure _)
    · exact reasoned_ite (refuse_inItsName _) (reasoned_pure _)

theorem independentReviewPassed_inItsName :
    InItsName "independent_review_passed" (independentReviewPassed py ev m) := by
  refine Reasoned.bind (diskNotRun_inItsName _) fun _ => ?_
  refine Reasoned.bind (readFile_inItsName _) fun review => ?_
  cases review with
  | none => exact refuse_inItsName _
  | some review =>
    exact reasoned_ite (reasoned_ite (refuse_inItsName _) (reasoned_pure _)) (reasoned_pure _)

theorem loadedVerdict_inItsName (raw : String) :
    InItsName "independent_review"
      (match py.loads raw with
      | .error exc =>
        refuse (objection "independent_review" ("review-verdict.json is not valid JSON: " ++ exc))
      | .ok verdict => do refuseIf (← ofExcept (judgeVerdict py ev.workOrderId verdict))) := by
  cases py.loads raw with
  | error exc => exact refuse_inItsName _
  | ok verdict =>
    have given := @judgeVerdict_gives py ev.workOrderId verdict
    dsimp only
    cases judged : judgeVerdict py ev.workOrderId verdict with
    | error error => exact reasoned_raise error
    | ok reason => exact refuseIf_inItsName (given reason judged)

theorem independentReview_inItsName :
    InItsName "independent_review" (independentReview py ev m) := by
  refine Reasoned.bind (absentAndUnreadable_inItsName _) fun _ => ?_
  refine Reasoned.bind (artifactWithEnvelope_inItsName _) fun (raw, envelope) => ?_
  cases raw with
  | none => exact refuse_inItsName _
  | some raw =>
    dsimp only
    split
    · refine Reasoned.bind (refuse_inItsName _) fun _ => ?_
      exact Reasoned.bind (refuseStale_inItsName _ _) fun _ => loadedVerdict_inItsName raw
    · exact Reasoned.bind (refuseStale_inItsName _ _) fun _ => loadedVerdict_inItsName raw

theorem runAcGate_inItsName : InItsName "executable_ac" (runAcGate py ev m) := by
  refine reasoned_ite ?_ ?_
  · refine Reasoned.bind (reasoned_ofExcept _) fun attested => ?_
    exact reasoned_ite reasoned_pass (refuse_inItsName _)
  · refine Reasoned.bind (reasoned_ite (reasoned_pure _) (reasoned_note _)) fun _ => ?_
    refine reasoned_refuseAll fun failure member => ?_
    simp only [checkFailures, List.mem_append, List.mem_map] at member
    rcases member with ⟨check, -, rfl⟩ | more
    · exact by_objection _ _
    · split at more
      · cases List.mem_singleton.mp more
        exact by_objection _ _
      · cases more

theorem runGateCheck_inItsName (gate : String) : InItsName gate (runGateCheck py ev m gate) := by
  unfold runGateCheck
  split
  · exact reasoned_pass
  · exact designBriefLocked_inItsName
  · exact apiContractExists_inItsName
  · exact apiContractAndSecurityReview_inItsName
  · exact specApproved_inItsName
  · exact allTestsPass_inItsName
  · exact designCritique_inItsName
  · exact securityScan_inItsName
  · exact gameValidate_inItsName
  · exact antiSlopPassed_inItsName
  · exact independentReviewPassed_inItsName
  · exact independentReview_inItsName
  · exact refuse_inItsName _

end Checks

end DreamStudio.WorkOrders
