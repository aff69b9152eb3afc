import DreamStudio.WorkOrders.Calm

namespace DreamStudio.WorkOrders

open Library

section Unforced

variable {py : Stdlib} {registry : Dict String Bool} {wd : World} {w : WorkOrderMeta}

/-- What an unforced close has to have found. -/
structure SoundClose (py : Stdlib) (registry : Dict String Bool) (wd : World) (w : WorkOrderMeta)
    (c : Collected) : Prop where
  collected : collect py registry {} wd w = .ok c
  closeable : ∃ status, wd.statusAtWrite = some status ∧ status ∈ WorkOrderStatus.closeable
  tasksDone : checkTasksDone py c.evidence = []
  criteria :
    (runAcGate py c.evidence (.executing (wd.outside (w.gates.length + 1)))).failures = .ok []
  dispatched : (Review.reviewStatus wd.lanes).dispatched = true
  clear : (Review.reviewStatus wd.lanes).blocking = false
  gates : ∀ i gate, w.gates[i]? = some gate → gate ≠ "independent_review" →
    (runGateCheck py wd.gated (.executing (wd.outside i)) gate).failures = .ok []

/-- A type's settings, under which no waiver reaches past the independent review: none can be given,
no other gate's name starts as the review's does, or a gate that nobody implements keeps every close
from being written. -/
def WaiverContained (registry : Dict String Bool) (t : TypeGates) : Prop :=
  (t.irInPost = false ∧ t.verifyDefaultOn registry = false) ∨
    (∀ gate ∈ t.gates, namesReview gate = true → gate = "independent_review") ∨
      ∃ gate ∈ t.gates, ¬Recognised gate ∧ namesReview gate = false

theorem checkTasksDone_unnamed {ev : Evidence} {f : String} (member : f ∈ checkTasksDone py ev) :
    namesReview f = false := by
  unfold checkTasksDone at member
  split at member
  · cases member
  · cases List.mem_singleton.mp member
    exact namesReview_of_by (by_objection _ _)

theorem runAcGate_unnamed {ev : Evidence} {m : Mode} {failures : List String}
    (given : (runAcGate py ev m).failures = .ok failures) {f : String} (member : f ∈ failures) :
    namesReview f = false :=
  namesReview_of_by (runAcGate_inItsName.failures given f member)

theorem laneReviewFailure_unnamed {ev : Evidence} {f : String}
    (h : laneReviewFailure ev wd = some f) :
    namesReview f = false := by
  unfold laneReviewFailure at h
  dsimp only at h
  split at h
  · cases h
    exact namesReview_of_by (by_objection _ _)
  · split at h
    · cases h
    · cases h
      exact namesReview_of_by (by_objection _ _)

theorem lanes_of_silent {ev : Evidence} (h : laneReviewFailure ev wd = none) :
    (Review.reviewStatus wd.lanes).dispatched = true ∧
      (Review.reviewStatus wd.lanes).blocking = false := by
  unfold laneReviewFailure at h
  dsimp only at h
  split at h
  · cases h
  next dispatched =>
    split at h
    next clear => exact ⟨by simpa using dispatched, by simpa using clear⟩
    next => cases h

theorem convene_idle (idle : w.irInPost = false ∧ w.verifyDefaultOn registry = false)
    {verified : Option Verified} (convened : convene py registry {} wd w = .ok verified) :
    verified = none := by
  unfold convene at convened
  simp only [idle.1, idle.2, Bool.or_self, Bool.false_and, Bool.false_eq_true, if_false] at convened
  cases convened
  rfl

theorem soundClose_of_contained (contained : WaiverContained registry w.toTypeGates)
    {bypassed : List String}
    (closed : closeWorkOrder py registry {} wd (some w) = .closed bypassed) :
    ∃ c, SoundClose py registry wd w c := by
  obtain ⟨verified, c, convened, collected, concluded⟩ := closeWorkOrder_closed closed
  obtain ⟨-, clear, written⟩ := conclude_closed concluded
  have clear : waive wd verified c = [] := clear rfl
  have named : ∀ f ∈ c.failures, namesReview f = true := by
    intro f member
    by_contra unnamed
    have left := @mem_waive wd verified c f member (by simpa using unnamed)
    rw [clear] at left
    cases left
  obtain ⟨gates, review, -, -, criteria, -, rest⟩ := collect_ok collected
  have criteria := criteria rfl
  have silent {failures : List String} (among : ∀ f ∈ failures, f ∈ c.failures)
      (unnamed : ∀ f ∈ failures, namesReview f = false) : failures = [] := by
    rw [List.eq_nil_iff_forall_not_mem]
    intro f member
    have both := unnamed f member
    rw [named f (among f member)] at both
    cases both
  have tasksDone : checkTasksDone py c.evidence = [] :=
    silent (fun f member => rest f (by simp [member])) fun f member => checkTasksDone_unnamed member
  have acFailures : c.acFailures = [] :=
    silent (fun f member => rest f (by simp [member])) fun f member =>
      runAcGate_unnamed criteria member
  have lanes : (laneReviewFailure c.evidence wd).toList = [] :=
    silent (fun f member => rest f (by simp [member])) fun f member =>
      laneReviewFailure_unnamed (Option.mem_toList.mp member)
  have lanes := lanes_of_silent (Option.toList_eq_nil_iff.mp lanes)
  refine ⟨c, collected, written, tasksDone, acFailures ▸ criteria, lanes.1, lanes.2, ?_⟩
  intro i gate at_i other
  obtain ⟨own, given, among⟩ := gate_collected collected at_i
  have among (f : String) (member : f ∈ own) : f ∈ c.failures := among f member rfl
  rw [given]
  congr
  rcases contained with idle | unlike | ⟨unknown, held, unrecognised, unnamed⟩
  · have none := convene_idle idle convened
    rw [none, waive_none] at clear
    rw [clear] at among
    exact List.eq_nil_iff_forall_not_mem.mpr fun f member => List.not_mem_nil (among f member)
  · refine silent among fun f member => ?_
    rw [namesReview_of_by (runGateCheck_inItsName gate |>.failures given f member)]
    by_contra names
    exact other (unlike gate (List.mem_of_getElem? at_i) (by simpa using names))
  · have kept := named _ (unrecognised_collected collected held unrecognised rfl)
    rw [namesReview_unrecognised, unnamed] at kept
    cases kept

end Unforced

section Loose

variable {registry : Dict String Bool} {t : TypeGates}

def unconvincedWorld : World :=
  calmWorld (calmEvidence false false) (calmEvidence true false)
    (.ok { ok := true, passed := false, spawned := false, unreviewable := true }) none

theorem known_namesReview {gate : String} (known : Recognised gate)
    (names : namesReview gate = true) :
    gate = "independent_review" ∨ gate = "independent_review_passed" := by
  rcases known with rfl | known
  · cases names
  · have all : ∀ gate ∈ knownGates, namesReview gate = true →
        gate = "independent_review" ∨ gate = "independent_review_passed" := by decide +kernel
    exact all gate known names

theorem named_of_not_contained (loose : ¬WaiverContained registry t) {gate : String}
    (held : gate ∈ t.gates) (i : Nat) :
    ∃ own, (runGateCheck calmStdlib (calmEvidence true false)
      (.executing (unconvincedWorld.outside i)) gate).failures = .ok own ∧
        ∀ f ∈ own, namesReview f = true := by
  have named {reason : String} (names : namesReview gate = true) (by_ : By gate reason) :
      ∀ f ∈ [reason], namesReview f = true := by
    intro f member
    cases List.mem_singleton.mp member
    rw [namesReview_of_by by_, names]
  by_cases known : Recognised gate
  · by_cases names : namesReview gate = true
    · rcases known_namesReview known names with rfl | rfl
      · exact ⟨_, calm_review_refuses i false, named names (by_objection _ _)⟩
      · exact ⟨_, calm_file_missing i true, named names (by_objection _ _)⟩
    · have other : gate ≠ "independent_review" := fun same => names (same ▸ by decide)
      have present : gate = "independent_review_passed" → false = true :=
        fun same => absurd (same ▸ by decide) names
      exact ⟨[], calm_gate_passes i true false known other present, by simp⟩
  · have names : namesReview gate = true := by
      by_contra unnamed
      exact loose (Or.inr (Or.inr ⟨gate, held, known, by simpa using unnamed⟩))
    exact ⟨_, by rw [runGateCheck_unrecognised known]; rfl, named names (by_objection _ _)⟩

theorem unsound_of_not_contained (loose : ¬WaiverContained registry t) :
    (∃ bypassed, closeWorkOrder calmStdlib registry {} unconvincedWorld (some (calmWork t)) =
      .closed bypassed) ∧ ¬∃ c, SoundClose calmStdlib registry unconvincedWorld (calmWork t) c := by
  have asked : (t.irInPost || t.verifyDefaultOn registry) = true := by
    by_contra idle
    exact loose (Or.inl (by simpa using idle))
  have reviewed : ∃ review, defaultReview calmStdlib registry {} unconvincedWorld (calmWork t) =
      .ok (calmEvidence true false, review) := by
    unfold defaultReview
    split
    · have refused : (reviewOf calmStdlib unconvincedWorld (calmWork t)
          unconvincedWorld.gated).failures =
          .ok [unreviewableReason] := calm_review_refuses _ _
      rw [refused, ok_bind]
      split
      · exact ⟨_, rfl⟩
      · exact ⟨_, rfl⟩
    · exact ⟨_, rfl⟩
  obtain ⟨review, reviewed⟩ := reviewed
  obtain ⟨gates, evaluated, each⟩ := calm_evaluates fun i gate at_i =>
    named_of_not_contained loose (List.mem_of_getElem? at_i) i
  have collected := calm_collect evaluated reviewed
  have convened : convene calmStdlib registry {} unconvincedWorld (calmWork t) =
      .ok (some { ok := true, passed := false, spawned := false, unreviewable := true }) := by
    have stored : ((calmEvidence false false).artifact calmStdlib "review_verdict").isSome =
        false := rfl
    have written : ((calmEvidence false false).file "review-verdict.json").isSome = false := rfl
    unfold convene
    simp only [unconvincedWorld, calmWorld, stored, written, calmWork, asked]
    rfl
  have clear : ∀ f ∈ waive unconvincedWorld
      (some { ok := true, passed := false, spawned := false, unreviewable := true })
      ⟨calmEvidence true false, [], (waiveUnreviewableReview false gates).1 ++ review⟩,
        (false = true ∧ namesReview f = false) := by
    intro f member
    have both : (f ∈ gates ∨ f ∈ review) ∧ namesReview f = false := by
      simpa [waive, World.isEscalated, unconvincedWorld, calmWorld, bypassReview,
        waiveUnreviewableReview_fst, or_and_right] using member
    have names : namesReview f = true :=
      both.1.elim (each f) (defaultReview_inItsName reviewed f)
    rw [both.2] at names
    cases names
  refine ⟨calm_closes convened collected clear, ?_⟩
  rintro ⟨c, sound⟩
  simp only [WaiverContained, not_or, not_forall] at loose
  obtain ⟨-, ⟨gate, held, names, other⟩, -⟩ := loose
  obtain ⟨i, at_i⟩ := List.mem_iff_getElem?.mp held
  have passed := sound.gates i gate at_i other
  by_cases known : Recognised gate
  · rcases known_namesReview known names with same | rfl
    · exact other same
    · have missing := (calm_file_missing i true).symm.trans passed
      cases missing
  · rw [runGateCheck_unrecognised known] at passed
    cases passed

/-- Unforced closes are sound exactly under the settings that contain the waiver. -/
theorem unforced_sound_iff (registry : Dict String Bool) (t : TypeGates) :
    (∀ py wd (w : WorkOrderMeta), w.toTypeGates = t → ∀ bypassed,
      closeWorkOrder py registry {} wd (some w) = .closed bypassed →
        ∃ c, SoundClose py registry wd w c) ↔ WaiverContained registry t := by
  constructor
  · intro all
    by_contra loose
    obtain ⟨⟨bypassed, closed⟩, unsound⟩ := unsound_of_not_contained loose
    exact unsound (all _ _ (calmWork t) rfl bypassed closed)
  · rintro contained py wd w rfl bypassed closed
    exact soundClose_of_contained contained closed

def reviewedInfrastructure : TypeGates :=
  ⟨some "infrastructure", none, some "independent_review_passed"⟩

/-- The gate `independent_review_passed` fails, and is dropped with the review. -/
theorem unforced_closes_unsound :
    (∃ bypassed, closeWorkOrder calmStdlib builtinTypes {} unconvincedWorld
      (some (calmWork reviewedInfrastructure)) = .closed bypassed) ∧
        ¬∃ c, SoundClose calmStdlib builtinTypes unconvincedWorld
          (calmWork reviewedInfrastructure) c := by
  have gates : reviewedInfrastructure.gates = ["independent_review_passed"] := by decide +kernel
  have default : reviewedInfrastructure.verifyDefaultOn builtinTypes = true := by decide +kernel
  have names : namesReview "independent_review_passed" = true := by decide +kernel
  refine unsound_of_not_contained ?_
  simp [WaiverContained, gates, default, names, Recognised, knownGates]

end Loose

end DreamStudio.WorkOrders
