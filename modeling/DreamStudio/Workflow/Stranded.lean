import DreamStudio.Workflow.Runner

namespace DreamStudio.Workflow

open Library

variable (evaluate : String → Run → Bool) (resolveTemplates : String → Run → String)

section Status

def Run.recorded (wf : Run) (id : String) : Option NodeStatus := (wf.nodes.get id).map (·.status)

theorem Run.recorded_report (r : Report) (wf : Run) (id : String) :
    (wf.report r).recorded id = if id = r.nodeId then some r.status else wf.recorded id := by
  change ((wf.nodes.set r.nodeId (r.apply _)).get id).map (·.status) = _
  rw [Dict.get_set]
  split <;> rfl

theorem Run.recorded_markSkipped (reason now : String) (ids : List String) (wf : Run)
    (id : String) :
    (wf.markSkipped reason now ids).recorded id =
      if id ∈ ids then some .skipped else wf.recorded id := by
  induction ids generalizing wf with
  | nil => rfl
  | cons x xs ih =>
    rw [Run.markSkipped, List.foldl_cons]
    refine (ih _).trans ?_
    rw [Run.recorded_report]
    by_cases later : id ∈ xs
    · rw [if_pos later, if_pos (List.mem_cons_of_mem x later)]
    · by_cases here : id = x
      · rw [if_neg later, if_pos here, if_pos (here ▸ List.mem_cons_self)]
      · rw [if_neg later, if_neg here,
          if_neg fun member => (List.mem_cons.mp member).elim here later]

theorem statusOf_eq (wf : Run) (id : String) :
    statusOf wf.nodes id = (wf.recorded id).getD .pending := rfl

theorem due_iff {wf : Run} {item : String × YamlNode} :
    due wf item = true ↔ wf.recorded item.1 = some .pending ∧ item.2.depsMet wf.nodes = true := by
  rw [due, Bool.and_eq_true, Run.recorded]
  cases wf.nodes.get item.1 <;> simp

theorem mem_readyNodes {yaml : YamlNodes} {wf : Run} {id : String} :
    id ∈ readyNodes evaluate yaml wf ↔
      ∃ ynode, (id, ynode) ∈ yaml ∧ due wf (id, ynode) = true ∧
        ynode.conditionMet evaluate wf = true := by
  simp [readyNodes, and_assoc]

theorem mem_skippedByCondition {yaml : YamlNodes} {wf : Run} {id : String} :
    id ∈ skippedByCondition evaluate yaml wf ↔
      ∃ ynode, (id, ynode) ∈ yaml ∧ due wf (id, ynode) = true ∧
        ynode.conditionMet evaluate wf = false := by
  simp [skippedByCondition, and_assoc]

theorem computeReadyNodes_eq_nil_iff {yaml : YamlNodes} {wf : Run} :
    computeReadyNodes evaluate yaml wf = ([], []) ↔ ∀ item ∈ yaml, due wf item = false := by
  simp only [computeReadyNodes, Prod.mk.injEq, readyNodes, skippedByCondition, List.map_eq_nil_iff,
    List.filter_eq_nil_iff, Bool.and_eq_true, not_and, Bool.not_eq_true]
  constructor
  · rintro ⟨unready, unskipped⟩ item member
    by_contra due
    rw [Bool.not_eq_false] at due
    have unmet := unready item member due
    simpa [unmet] using unskipped item member due
  · intro idle
    exact ⟨fun item member due => absurd due (by simp [idle item member]),
      fun item member due => absurd due (by simp [idle item member])⟩

end Status

section Stranded

/-- A pending node that the turn does not skip waits by `all_done` for nothing but nodes that have
ended and nodes the turn skips. -/
def Stranded (yaml : YamlNodes) (wf : Run) : Prop :=
  ∃ item ∈ yaml, wf.recorded item.1 = some .pending ∧ item.1 ∉ skippedByCondition evaluate yaml wf ∧
    item.2.triggerRule = .allDone ∧
    ∀ d ∈ item.2.dependsOn, (statusOf wf.nodes d).ended = true ∨
      d ∈ skippedByCondition evaluate yaml wf

theorem statusOf_markSkipped (reason now : String) (ids : List String) (wf : Run) (id : String) :
    statusOf (wf.markSkipped reason now ids).nodes id =
      if id ∈ ids then .skipped else statusOf wf.nodes id := by
  rw [statusOf_eq, Run.recorded_markSkipped]
  split <;> rfl

/-- To skip pending nodes meets no rule but `all_done`. -/
theorem TriggerRule.met_of_skipped {rule : TriggerRule} {deps ids : List String}
    {before after : String → NodeStatus}
    (skips : ∀ d, after d = if d ∈ ids then .skipped else before d)
    (met : rule.met (deps.map after) = true) (unmet : rule.met (deps.map before) = false) :
    rule = .allDone := by
  have same {d : String} (other : after d ≠ .skipped) : after d = before d := by
    rw [skips d] at other ⊢
    split
    next h => exact absurd (if_pos h) other
    next => rfl
  cases rule with
  | allDone => rfl
  | other rule => cases met
  | allSuccess =>
    refine absurd unmet (Bool.not_eq_false _ ▸ ?_)
    simp only [TriggerRule.met, List.all_map, List.all_eq_true, Function.comp_apply] at met ⊢
    intro d member
    have here := met d member
    rwa [same fun h => by cases (h ▸ here : NodeStatus.skipped.succeeded = true)] at here
  | oneSuccess =>
    refine absurd unmet (Bool.not_eq_false _ ▸ ?_)
    simp only [TriggerRule.met, List.any_map, List.any_eq_true, Function.comp_apply,
      decide_eq_true_eq] at met ⊢
    obtain ⟨d, member, here⟩ := met
    exact ⟨d, member, (same fun h => by cases h.symm.trans here) ▸ here⟩

theorem due_markSkipped_iff {yaml : YamlNodes} {wf : Run}
    (unready : readyNodes evaluate yaml wf = []) (reason now : String) :
    (∃ item ∈ yaml, due (wf.markSkipped reason now (skippedByCondition evaluate yaml wf)) item =
      true) ↔
      Stranded evaluate yaml wf := by
  have skipped {item : String × YamlNode} (member : item ∈ yaml) (due : due wf item = true) :
      item.1 ∈ skippedByCondition evaluate yaml wf := by
    cases met : item.2.conditionMet evaluate wf with
    | false => exact (mem_skippedByCondition evaluate).mpr ⟨item.2, member, due, met⟩
    | true =>
      have ready := (mem_readyNodes evaluate).mpr ⟨item.2, member, due, met⟩
      rw [unready] at ready
      cases ready
  have statuses := statusOf_markSkipped reason now (skippedByCondition evaluate yaml wf) wf
  constructor
  · rintro ⟨item, member, waiting⟩
    obtain ⟨pending, met⟩ := due_iff.mp waiting
    rw [Run.recorded_markSkipped] at pending
    split at pending
    · cases pending
    next stays =>
      have undue : ¬due wf item = true := fun due => stays (skipped member due)
      have unmet : item.2.depsMet wf.nodes = false :=
        Bool.not_eq_true _ ▸ fun met => undue (due_iff.mpr ⟨pending, met⟩)
      rw [YamlNode.depsMet, Bool.or_eq_false_iff] at unmet
      rw [YamlNode.depsMet, unmet.1, Bool.false_or] at met
      have rule := TriggerRule.met_of_skipped statuses met unmet.2
      refine ⟨item, member, pending, stays, rule, fun d dep => ?_⟩
      rw [rule, TriggerRule.met, List.all_map, List.all_eq_true] at met
      have ended := met d dep
      rw [Function.comp_apply, statuses d] at ended
      split at ended
      next gone => exact .inr gone
      next => exact .inl ended
  · rintro ⟨item, member, pending, stays, rule, ended⟩
    refine ⟨item, member, due_iff.mpr ⟨?_, ?_⟩⟩
    · rw [Run.recorded_markSkipped, if_neg stays, pending]
    · rw [YamlNode.depsMet, rule, Bool.or_eq_true]
      refine .inr ?_
      rw [TriggerRule.met, List.all_map, List.all_eq_true]
      intro d dep
      rw [Function.comp_apply, statuses d]
      split
      · rfl
      next gone => exact (ended d dep).resolve_right gone

end Stranded

section Loop

/-- The answers that are drawn at the end of the loop, `running` apart. -/
def Stop.drawn : Stop → Bool
  | .completed | .completedWithUnverified | .completedWithFailures | .blocked => true
  | _ => false

variable {evaluate resolveTemplates}

theorem Run.turn_drawn {yaml : YamlNodes} {dryRun : Bool} {t : Turn} {wf left : Run} {stop : Stop}
    (stopped : wf.turn evaluate resolveTemplates (some yaml) dryRun t = (left, some stop))
    (drawn : stop.drawn = true) :
    readyNodes evaluate yaml wf = [] ∧
      left = wf.markSkipped "condition false" t.now (skippedByCondition evaluate yaml wf) ∧
        stop = left.stop := by
  rw [Run.turn] at stopped
  split at stopped
  · obtain rfl := Option.some.inj (Prod.mk.inj stopped).2
    cases drawn
  · change (if (computeReadyNodes evaluate yaml wf).1 = [] then _ else _) = _ at stopped
    by_cases unready : (computeReadyNodes evaluate yaml wf).1 = []
    · rw [if_pos unready] at stopped
      obtain ⟨rfl, same⟩ := Prod.mk.inj stopped
      exact ⟨unready, rfl, (Option.some.inj same).symm⟩
    · rw [if_neg unready] at stopped
      split at stopped <;> cases (Prod.mk.inj stopped).2

theorem Run.loop_stopped {yaml : Option YamlNodes} {dryRun : Bool} {turns : List Turn}
    {wf before left : Run} {stop : Stop}
    (ran : wf.loop evaluate resolveTemplates yaml dryRun turns = some (before, left, stop)) :
    ∃ t, before.turn evaluate resolveTemplates yaml dryRun t = (left, some stop) := by
  induction turns generalizing wf with
  | nil => cases ran
  | cons t turns ih =>
    rw [Run.loop] at ran
    split at ran
    next left' stop' here =>
      simp only [Option.some.injEq, Prod.mk.injEq] at ran
      obtain ⟨rfl, rfl, rfl⟩ := ran
      exact ⟨t, here⟩
    next => exact ih ran

/-- What `run` leaves when it draws its answer holds nothing ready and nothing to skip, unless the
skips of the last turn have freed a node. -/
theorem loop_idle_iff {yaml : YamlNodes} {dryRun : Bool} {turns : List Turn}
    {wf before left : Run} {stop : Stop}
    (ran : wf.loop evaluate resolveTemplates (some yaml) dryRun turns = some (before, left, stop))
    (drawn : stop.drawn = true) :
    computeReadyNodes evaluate yaml left = ([], []) ↔ ¬Stranded evaluate yaml before := by
  obtain ⟨t, stopped⟩ := Run.loop_stopped ran
  obtain ⟨unready, rfl, -⟩ := Run.turn_drawn stopped drawn
  rw [computeReadyNodes_eq_nil_iff, ← due_markSkipped_iff evaluate unready "condition false" t.now]
  simp

end Loop

section Examples

def plainly (text : String) (_ : Run) : String := text

def neverMet (_ : String) (_ : Run) : Bool := false

def twoNodes : Run where
  workflow := "build"
  started := "t0"
  yamlPath := "build.yaml"
  nodes := [("a", {}), ("b", {})]

def unobserved : Turn where
  outcome _ := { success := true, verdict := .blocked }

/-- The check of `a` does not hold, so `b` waits for it. -/
theorem loop_idle_iff_blocked :
    ∃ before left, twoNodes.loop neverMet plainly
      (some [("a", { command := true }), ("b", { dependsOn := ["a"] })]) false
        [unobserved, unobserved] = some (before, left, .blocked) ∧
      (computeReadyNodes neverMet [("a", { command := true }), ("b", { dependsOn := ["a"] })] left =
        ([], []) ↔
        ¬Stranded neverMet [("a", { command := true }), ("b", { dependsOn := ["a"] })] before) := by
  have reached :
      (twoNodes.loop neverMet plainly
        (some [("a", { command := true }), ("b", { dependsOn := ["a"] })]) false
        [unobserved, unobserved]).map (·.2.2) = some .blocked := by decide +kernel
  obtain ⟨⟨before, left, stop⟩, ran, rfl⟩ := Option.map_eq_some_iff.mp reached
  exact ⟨before, left, ran, loop_idle_iff ran rfl⟩

/-- The condition of `a` is false and `b` waits for it by `all_done`. -/
def freeingYaml : YamlNodes :=
  [("a", { condition := some "{{a.output}}", command := true }),
    ("b", { dependsOn := ["a"], triggerRule := .allDone, command := true })]

/-- The answer is `blocked` though the skip of `a` has made `b` ready. -/
theorem skip_frees_node :
    ¬∀ (evaluate : String → Run → Bool) (resolveTemplates : String → Run → String)
    (yaml : YamlNodes) (dryRun : Bool) (turns : List Turn) (wf before left : Run) (stop : Stop),
    wf.loop evaluate resolveTemplates (some yaml) dryRun turns = some (before, left, stop) →
      stop.drawn = true →
    computeReadyNodes evaluate yaml left = ([], []) := by
  intro all
  have reached :
      (twoNodes.loop neverMet plainly (some freeingYaml) false [unobserved]).map (fun ran =>
        (ran.2.2, computeReadyNodes neverMet freeingYaml ran.2.1)) =
        some (.blocked, ["b"], []) := by
    decide +kernel
  obtain ⟨⟨before, left, stop⟩, ran, same⟩ := Option.map_eq_some_iff.mp reached
  obtain ⟨rfl, ready⟩ := Prod.mk.inj same
  cases ready.symm.trans (all _ _ _ _ _ _ _ _ _ ran rfl)

end Examples

end DreamStudio.Workflow
