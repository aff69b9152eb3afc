import DreamStudio.WorkOrders.Calm

namespace DreamStudio.WorkOrders

open Library

section Mandatory

/-- The settings under which the review of an escalated work order is asked for and kept, or under
which it cannot close at all: no gate string asks for it and no flag turns the default off, or a
gate string asks and the review is not skipped, or one names a gate nobody implements that no flag
passes over. -/
def CloseCall.ReviewMandatory (call : CloseCall) (registry : Dict String Bool) (t : TypeGates) :
    Prop :=
  t.reviewByDefault registry call = true ∨
    ("independent_review" ∈ t.gates ∧ call.skipVerify = false) ∨
      ∃ gate ∈ t.gates, ¬Recognised gate ∧
        (call.skipVerify && isUnreviewable (unrecognisedReason gate)) = false ∧
          (call.force = false ∨ namesReview gate = true)

variable {py : Stdlib} {registry : Dict String Bool} {call : CloseCall} {wd : World}
  {w : WorkOrderMeta}

/-- The independent review passes on the verdict that is stored when the close is written. -/
def ReviewedAtWrite (py : Stdlib) (registry : Dict String Bool) (call : CloseCall) (wd : World)
    (w : WorkOrderMeta) : Prop :=
  ∃ c, collect py registry call wd w = .ok c ∧ (reviewOf py wd w c.evidence).failures = .ok []

theorem waive_escalated (escalated : wd.isEscalated = true) (verified : Option Verified)
    (c : Collected) :
    waive wd verified c = c.failures := by
  simp [waive, escalated]

theorem reviewed_of_mandatory (mandatory : call.ReviewMandatory registry w.toTypeGates)
    (escalated : wd.isEscalated = true) {bypassed : List String}
    (closed : closeWorkOrder py registry call wd (some w) = .closed bypassed) :
    ReviewedAtWrite py registry call wd w := by
  obtain ⟨verified, c, -, collected, concluded⟩ := closeWorkOrder_closed closed
  rw [waive_escalated escalated] at concluded
  obtain ⟨unnamed, clear, -⟩ := conclude_closed concluded
  obtain ⟨gates, review, -, reviewed, -, -, rest⟩ := collect_ok collected
  have unnamed := unnamed escalated
  have silent : review = [] := by
    rw [List.eq_nil_iff_forall_not_mem]
    intro f member
    have absent := unnamed f (rest f (by simp [member]))
    rw [defaultReview_inItsName reviewed f member] at absent
    cases absent
  subst silent
  refine ⟨c, collected, ?_⟩
  by_cases asked : w.reviewByDefault registry call = true
  · exact defaultReview_silent asked reviewed
  · rw [defaultReview_of_not_asked (by simpa using asked) reviewed]
    rcases mandatory with byDefault | ⟨named, unskipped⟩ | ⟨gate, named, unknown, kept, held⟩
    · exact absurd byDefault asked
    · obtain ⟨i, at_i⟩ := List.mem_iff_getElem?.mp named
      obtain ⟨own, given, among⟩ := gate_collected collected at_i
      have none : own = [] := by
        rw [List.eq_nil_iff_forall_not_mem]
        intro f member
        have absent := unnamed f (among f member (by simp [unskipped]))
        rw [namesReview_of_by (independentReview_inItsName.failures given f member)] at absent
        exact absurd absent (by decide)
      rw [none] at given
      exact given
    · have collected := unrecognised_collected collected named unknown kept
      rcases held with unforced | names
      · rw [clear unforced] at collected
        cases collected
      · have absent := unnamed _ collected
        rw [namesReview_unrecognised, names] at absent
        cases absent

end Mandatory

section Loose

variable {registry : Dict String Bool} {call : CloseCall} {t : TypeGates}

def unreviewableWorld : World :=
  calmWorld (calmEvidence true true) (calmEvidence true true) (.error "timed out") (some 1)

theorem isUnreviewable_reason : isUnreviewable unreviewableReason = true := by
  simp only [isUnreviewable, namesReview, startsWith, contains, pyLower, unreviewableReason,
    objection, String.toList_append, String.toList_ofList]
  decide +kernel

theorem waived_of_not_mandatory (loose : ¬call.ReviewMandatory registry t) {gate : String}
    (named : gate ∈ t.gates) (i : Nat) :
    ∃ own, (runGateCheck calmStdlib (calmEvidence true true)
      (.executing (unreviewableWorld.outside i)) gate).failures = .ok own ∧
        ∀ f ∈ own, (call.skipVerify && isUnreviewable f) = true ∨
          call.force = true ∧ namesReview f = false := by
  simp only [CloseCall.ReviewMandatory, not_or, not_and, not_exists] at loose
  obtain ⟨-, skipped, waived⟩ := loose
  by_cases known : Recognised gate
  · by_cases review : gate = "independent_review"
    · subst review
      refine ⟨_, calm_review_refuses i true, fun f member => Or.inl ?_⟩
      have skip : call.skipVerify = true := by simpa using skipped named
      rw [List.mem_singleton.mp member, isUnreviewable_reason, skip]
      rfl
    · exact ⟨[], calm_gate_passes i true true known review fun _ => rfl, by simp⟩
  · refine ⟨_, by rw [runGateCheck_unrecognised known]; rfl, fun f member => ?_⟩
    cases List.mem_singleton.mp member
    rw [namesReview_unrecognised]
    by_cases kept : (call.skipVerify && isUnreviewable (unrecognisedReason gate)) = true
    · exact Or.inl kept
    · have passed := waived gate named known (by simpa using kept)
      exact Or.inr (by simpa using passed)

theorem unreviewed_of_not_mandatory (loose : ¬call.ReviewMandatory registry t) :
    (∃ bypassed, closeWorkOrder calmStdlib registry call unreviewableWorld (some (calmWork t)) =
      .closed bypassed) ∧ ¬ReviewedAtWrite calmStdlib registry call unreviewableWorld
        (calmWork t) := by
  have unasked : t.reviewByDefault registry call = false := by
    simpa using fun asked => loose (Or.inl asked)
  have escalated : unreviewableWorld.isEscalated = true := rfl
  have reviewed : defaultReview calmStdlib registry call unreviewableWorld (calmWork t) =
      .ok (calmEvidence true true, []) := by
    unfold defaultReview
    rw [show (calmWork t).toTypeGates = t from rfl, unasked]
    rfl
  obtain ⟨gates, evaluated, each⟩ := calm_evaluates fun i gate at_i =>
    waived_of_not_mandatory loose (List.mem_of_getElem? at_i) i
  have collected := calm_collect evaluated reviewed
  have convened : convene calmStdlib registry call unreviewableWorld (calmWork t) = .ok none := by
    have stored : ((calmEvidence true true).artifact calmStdlib "review_verdict").isSome =
        true := by
      rw [Evidence.artifact, calm_verdict]
      rfl
    simp [convene, unreviewableWorld, calmWorld, stored]
  have clear : ∀ f ∈ waive unreviewableWorld none ⟨calmEvidence true true, [],
      (waiveUnreviewableReview call.skipVerify gates).1 ++ []⟩,
        call.force = true ∧ namesReview f = false := by
    rw [waive_escalated escalated]
    intro f member
    rw [List.append_nil, waiveUnreviewableReview_fst, List.mem_filter] at member
    rcases each f member.1 with skipped | passed
    · simp [skipped] at member
    · exact passed
  refine ⟨calm_closes convened collected clear, ?_⟩
  rintro ⟨c, found, silent⟩
  have same := collected.symm.trans found
  cases same
  have refused := @calm_review_refuses (calmEvidence true true) (calmEvidence true true)
    (.error "timed out") (some 1) (calmWork t).gates.length true
  rw [reviewOf, unreviewableWorld, refused] at silent
  cases silent

/-- An escalated work order closes only through a review that passes exactly where the settings
keep the review mandatory. -/
theorem escalated_reviewed_iff (call : CloseCall) (registry : Dict String Bool) (t : TypeGates) :
    (∀ py wd (w : WorkOrderMeta), w.toTypeGates = t → wd.isEscalated = true → ∀ bypassed,
      closeWorkOrder py registry call wd (some w) = .closed bypassed →
        ReviewedAtWrite py registry call wd w) ↔ call.ReviewMandatory registry t := by
  constructor
  · intro all
    by_contra loose
    obtain ⟨⟨bypassed, closed⟩, unreviewed⟩ := unreviewed_of_not_mandatory loose
    exact unreviewed (all _ _ (calmWork t) rfl rfl bypassed closed)
  · rintro mandatory py wd w rfl escalated bypassed closed
    exact reviewed_of_mandatory mandatory escalated closed

/-- The type `api_endpoint` as it is seeded. -/
def apiEndpoint : TypeGates :=
  ⟨some "api_endpoint", some "api_contract_exists", some "security_scan"⟩

/-- `--skip-verify` closes an escalated work order whose verdict says it could not be reviewed. -/
theorem escalated_closes_unreviewed :
    unreviewableWorld.isEscalated = true ∧
      (∃ bypassed, closeWorkOrder calmStdlib builtinTypes { skipVerify := true } unreviewableWorld
        (some (calmWork apiEndpoint)) = .closed bypassed) ∧
          ¬ReviewedAtWrite calmStdlib builtinTypes { skipVerify := true } unreviewableWorld
            (calmWork apiEndpoint) := by
  have gates : apiEndpoint.gates = ["api_contract_exists", "security_scan"] := by decide +kernel
  refine ⟨rfl, unreviewed_of_not_mandatory ?_⟩
  simp [CloseCall.ReviewMandatory, TypeGates.reviewByDefault, gates, Recognised, knownGates]

end Loose

end DreamStudio.WorkOrders
