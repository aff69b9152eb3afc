import DreamStudio.WorkOrders.Close
import DreamStudio.WorkOrders.Reasons

namespace DreamStudio.WorkOrders

open Library

theorem prefix_append_separator {α : Type} {p name rest : List α} {c : α} (h : c ∉ p) :
    p <+: name ++ c :: rest ↔ p <+: name := by
  induction p generalizing name with
  | nil => simp
  | cons a p ih =>
    have apart : a ≠ c := fun same => h (same ▸ List.mem_cons_self)
    have later : c ∉ p := fun member => h (List.mem_cons_of_mem a member)
    cases name with
    | nil => simp [apart]
    | cons b name => simp [ih later]

theorem namesReview_of_by {gate reason : String} (h : By gate reason) :
    namesReview reason = namesReview gate := by
  have colon : ':' ∉ "independent_review".toList := by decide
  unfold By startsWith at h
  rw [List.isPrefixOf_iff_prefix] at h
  obtain ⟨rest, whole⟩ := h
  have parts : (gate ++ ":").toList = gate.toList ++ [':'] := String.toList_append
  rw [parts, List.append_assoc, List.singleton_append] at whole
  unfold namesReview startsWith
  rw [Bool.eq_iff_iff, List.isPrefixOf_iff_prefix, List.isPrefixOf_iff_prefix, ← whole]
  exact prefix_append_separator colon

theorem waiveUnreviewableReview_fst (skipVerify : Bool) (failures : List String) :
    (waiveUnreviewableReview skipVerify failures).1 =
      failures.filter fun f => !(skipVerify && isUnreviewable f) := by
  unfold waiveUnreviewableReview
  cases skipVerify with
  | false => simp
  | true =>
    by_cases none : failures = []
    · simp [none]
    · by_cases waived : failures.filter isUnreviewable = []
      · have kept : ∀ f ∈ failures, isUnreviewable f = false := by
          simpa [List.filter_eq_nil_iff] using waived
        simp only [Bool.not_true, Bool.false_eq_true, none, or_self, if_false, waived, if_true]
        exact (List.filter_eq_self.mpr fun f member => by simp [kept f member]).symm
      · simp only [Bool.not_true, Bool.false_eq_true, none, or_self, if_false, waived]
        refine List.filter_congr fun f member => ?_
        simp [member]

section Closing

variable {py : Stdlib} {registry : Dict String Bool} {call : CloseCall} {wd : World}
  {w : WorkOrderMeta} {bypassed : List String}

theorem closeWorkOrder_closed
    (h : closeWorkOrder py registry call wd (some w) = .closed bypassed) :
    ∃ verified c, convene py registry call wd w = .ok verified ∧
      collect py registry call wd w = .ok c ∧ conclude call wd (waive wd verified c) =
        .closed bypassed := by
  unfold closeWorkOrder at h
  split at h
  · cases h
  · dsimp only at h
    split at h
    next outcome convened =>
      -- verify ends a close only by a refusal
      unfold convene at convened
      dsimp only at convened
      split at convened
      · split at convened
        · cases convened; cases h
        · cases convened
      · cases convened
    next verified convened =>
      split at h
      · cases h
      next c collected => exact ⟨verified, c, convened, collected, h⟩

theorem conclude_closed {failures : List String}
    (h : conclude call wd failures = .closed bypassed) :
    (wd.isEscalated = true → ∀ f ∈ failures, namesReview f = false) ∧
      (call.force = false → failures = []) ∧
        ∃ status, wd.statusAtWrite = some status ∧ status ∈ WorkOrderStatus.closeable := by
  unfold conclude at h
  split at h
  · cases h
  next reviewed =>
    split at h
    · cases h
    next clear =>
      split at h
      · cases h
      · split at h
        · cases h
        next status found =>
          split at h
          next closeable =>
            refine ⟨fun escalated => ?_, fun unforced => ?_, status, found, closeable⟩
            · simpa [escalated] using reviewed
            · simpa [unforced] using clear
          next => cases h

theorem closeWorkOrder_of {verified : Option Verified} {c : Collected}
    (opens : wd.statusAtStart.bind (transitionRefusal wd.before.workOrderId · .closed) = none)
    (convened : convene py registry call wd w = .ok verified)
    (collected : collect py registry call wd w = .ok c) :
    closeWorkOrder py registry call wd (some w) = conclude call wd (waive wd verified c) := by
  unfold closeWorkOrder
  simp only [opens, convened, collected]

theorem conclude_of {failures : List String} {status : WorkOrderStatus}
    (reviewed : wd.isEscalated = true → ∀ f ∈ failures, namesReview f = false)
    (clear : call.force = false → failures = []) (green : wd.mainIsRed = false ∨ call.force = true)
    (found : wd.statusAtWrite = some status) (closeable : status ∈ WorkOrderStatus.closeable) :
    conclude call wd failures = .closed (if call.force then failures else []) := by
  have unnamed : (wd.isEscalated && failures.any namesReview) = false := by
    cases escalated : wd.isEscalated with
    | false => rfl
    | true => simpa [List.any_eq_false] using reviewed escalated
  have passes : (failures ≠ [] && !call.force) = false := by
    cases forced : call.force with
    | true => simp
    | false => simp [clear forced]
  have settled : (wd.mainIsRed && !call.force) = false := by
    rcases green with green | forced
    · simp [green]
    · simp [forced]
  simp only [conclude, unnamed, passes, settled, found, closeable, Bool.false_eq_true,
    if_false, if_true]

theorem collect_ok {c : Collected} (h : collect py registry call wd w = .ok c) :
    ∃ gates review, evaluateGates py wd w = .ok gates ∧
      defaultReview py registry call wd w = .ok (c.evidence, review) ∧
        (call.force = false →
          (runAcGate py c.evidence (.executing (wd.outside (w.gates.length + 1)))).failures =
            .ok c.acFailures) ∧
          (∀ f ∈ gates, (call.skipVerify && isUnreviewable f) = false → f ∈ c.failures) ∧
            (∀ f ∈ review ++ c.acFailures ++ checkTasksDone py c.evidence ++
              (laneReviewFailure c.evidence wd).toList, f ∈ c.failures) := by
  obtain ⟨gates, evaluated, h⟩ := bind_eq_ok.mp h
  obtain ⟨⟨ev, review⟩, reviewed, h⟩ := bind_eq_ok.mp h
  obtain ⟨acFailures, criteria, h⟩ := bind_eq_ok.mp h
  obtain ⟨structureFailures, -, h⟩ := bind_eq_ok.mp h
  obtain ⟨impactFailures, -, h⟩ := bind_eq_ok.mp h
  cases h
  refine ⟨gates, review, evaluated, reviewed, fun unforced => ?_, fun f member kept => ?_, ?_⟩
  · simpa [criteriaFailures, unforced] using criteria
  · have held : f ∈ (waiveUnreviewableReview call.skipVerify gates).1 := by
      rw [waiveUnreviewableReview_fst]
      exact List.mem_filter.mpr ⟨member, by simp [kept]⟩
    simp only [List.mem_append, held, true_or]
  · intro f member
    simp only [List.mem_append] at member ⊢
    tauto

theorem defaultReview_silent {ev : Evidence} (asked : w.reviewByDefault registry call = true)
    (h : defaultReview py registry call wd w = .ok (ev, [])) :
    (reviewOf py wd w ev).failures = .ok [] := by
  unfold defaultReview at h
  rw [if_pos asked] at h
  obtain ⟨failures, reviewed, h⟩ := bind_eq_ok.mp h
  split at h
  next stale =>
    split at h
    next again => cases h; assumption
    next =>
      cases h
      simp at stale
  next =>
    cases h
    exact reviewed

theorem defaultReview_of_not_asked {ev : Evidence} {review : List String}
    (asked : w.reviewByDefault registry call = false)
    (h : defaultReview py registry call wd w = .ok (ev, review)) : ev = wd.gated := by
  unfold defaultReview at h
  simp only [asked] at h
  cases h
  rfl

theorem review_inItsName (ev : Evidence) {failures : List String}
    (h : (reviewOf py wd w ev).failures = .ok failures) : ∀ f ∈ failures, namesReview f = true :=
  fun f member => namesReview_of_by (independentReview_inItsName.failures h f member)

theorem defaultReview_inItsName {ev : Evidence} {review : List String}
    (h : defaultReview py registry call wd w = .ok (ev, review)) :
    ∀ f ∈ review, namesReview f = true := by
  unfold defaultReview at h
  split at h
  · obtain ⟨failures, reviewed, h⟩ := bind_eq_ok.mp h
    split at h
    · split at h
      next again =>
        cases h
        exact review_inItsName _ again
      next =>
        cases h
        exact review_inItsName _ reviewed
    · cases h
      exact review_inItsName _ reviewed
  · cases h
    simp

theorem waive_none (c : Collected) : waive wd none c = c.failures := by
  simp [waive]

theorem mem_waive {verified : Option Verified} {c : Collected} {f : String}
    (member : f ∈ c.failures) (kept : namesReview f = false) : f ∈ waive wd verified c := by
  have through {failures : List String} (h : f ∈ failures) : f ∈ bypassReview failures :=
    List.mem_filter.mpr ⟨h, by simp [kept]⟩
  unfold waive
  dsimp only
  split <;> split
  · exact through (through member)
  · exact through member
  · exact through member
  · exact member

end Closing

/-- A name that `run_gate_check` has a check by, or none. -/
def Recognised (gate : String) : Prop := gate = "" ∨ gate ∈ knownGates

instance (gate : String) : Decidable (Recognised gate) := inferInstanceAs (Decidable (_ ∨ _))

theorem runGateCheck_unrecognised {py : Stdlib} {ev : Evidence} {m : Mode} {gate : String}
    (h : ¬Recognised gate) : runGateCheck py ev m gate = Gate.refuse (unrecognisedReason gate) := by
  unfold runGateCheck
  split
  all_goals first | rfl | exact absurd (by decide) h

theorem namesReview_unrecognised (gate : String) :
    namesReview (unrecognisedReason gate) = namesReview gate :=
  namesReview_of_by (by_objection gate _)

section Gates

variable {py : Stdlib} {registry : Dict String Bool} {call : CloseCall} {wd : World}
  {w : WorkOrderMeta} {c : Collected}

theorem gate_collected (collected : collect py registry call wd w = .ok c) {gate : String} {i : Nat}
    (named : w.gates[i]? = some gate) :
    ∃ own, (runGateCheck py wd.gated (.executing (wd.outside i)) gate).failures = .ok own ∧
      ∀ f ∈ own, (call.skipVerify && isUnreviewable f) = false → f ∈ c.failures := by
  obtain ⟨gates, review, evaluated, -, -, kept, -⟩ := collect_ok collected
  have member : runGateCheck py wd.gated (.executing (wd.outside i)) gate ∈
      w.gates.zipIdx.map fun g => runGateCheck py wd.gated (.executing (wd.outside g.2)) g.1 :=
    List.mem_map.mpr ⟨(gate, i), List.mk_mem_zipIdx_iff_getElem?.mpr named, rfl⟩
  obtain ⟨own, given, among⟩ := (Gate.mem_of_evaluate evaluated).1 _ member
  exact ⟨own, given, fun f held clear => kept f (among f held) clear⟩

theorem unrecognised_collected (collected : collect py registry call wd w = .ok c) {gate : String}
    (named : gate ∈ w.gates) (unknown : ¬Recognised gate)
    (kept : (call.skipVerify && isUnreviewable (unrecognisedReason gate)) = false) :
    unrecognisedReason gate ∈ c.failures := by
  obtain ⟨i, at_i⟩ := List.mem_iff_getElem?.mp named
  obtain ⟨own, given, among⟩ := gate_collected collected at_i
  rw [runGateCheck_unrecognised unknown] at given
  cases given
  exact among _ List.mem_cons_self kept

end Gates

end DreamStudio.WorkOrders
