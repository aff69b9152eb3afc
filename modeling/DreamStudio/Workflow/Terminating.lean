import DreamStudio.Workflow.Stranded

namespace DreamStudio.Workflow

open Library

section Pending

theorem Outcome.status_ne_pending (o : Outcome) : o.status ≠ .pending := by
  rw [Outcome.status]
  split
  · cases o.verdict <;> exact nofun
  · exact nofun

theorem filter_set {κ ν : Type*} [DecidableEq κ] {p : κ × ν → Bool} {key : κ} {value : ν}
    (uncounted : p (key, value) = false) (d : Dict κ ν) :
    (d.set key value).filter p = (d.filter p).filter (·.1 ≠ key) := by
  have replaced : (d.map fun item => if item.1 = key then (key, value) else item).filter p =
      (d.filter p).filter (·.1 ≠ key) := by
    induction d with
    | nil => rfl
    | cons item d ih =>
      rw [List.map_cons, List.filter_cons, ih, List.filter_cons]
      by_cases here : item.1 = key
      · rw [if_pos here, uncounted, if_neg Bool.false_ne_true]
        cases p item with
        | false => rfl
        | true => rw [if_pos rfl, List.filter_cons_of_neg (by simp [here])]
      · rw [if_neg here]
        cases p item with
        | false => rfl
        | true => rw [if_pos rfl, if_pos rfl, List.filter_cons_of_pos (by simp [here])]
  rw [Dict.set]
  split
  next => exact replaced
  next absent =>
    have other : ∀ item ∈ d.filter p, decide (item.1 ≠ key) = true := by
      intro item member
      apply decide_eq_true
      intro here
      exact absent (Dict.any_key.mpr (List.mem_map.mpr ⟨item, List.mem_of_mem_filter member, here⟩))
    rw [List.filter_append, List.filter_singleton, uncounted, List.filter_eq_self.mpr other]
    exact List.append_nil _

def Run.pendings (wf : Run) : Nodes := wf.nodes.filter (·.2.status = .pending)

theorem pendings_report {r : Report} (done : r.status ≠ .pending) (wf : Run) :
    (wf.report r).pendings = wf.pendings.filter (·.1 ≠ r.nodeId) :=
  filter_set (decide_eq_false done) wf.nodes

theorem pendings_foldl {f : Run → String → Run}
    (takes : ∀ wf id, (f wf id).pendings = wf.pendings.filter (·.1 ≠ id))
    (ids : List String) (wf : Run) :
    (ids.foldl f wf).pendings = wf.pendings.filter (·.1 ∉ ids) := by
  induction ids generalizing wf with
  | nil => exact (List.filter_eq_self.mpr fun item _ => decide_eq_true List.not_mem_nil).symm
  | cons id ids ih =>
    rw [List.foldl_cons, ih, takes, List.filter_filter]
    apply List.filter_congr
    intro item _
    simp only [List.mem_cons, not_or, Bool.decide_and, Bool.and_comm]

theorem pendings_markSkipped (reason now : String) (ids : List String) (wf : Run) :
    (wf.markSkipped reason now ids).pendings = wf.pendings.filter (·.1 ∉ ids) := by
  apply pendings_foldl
  intro wf id
  exact pendings_report (by exact nofun) wf

variable {evaluate : String → Run → Bool} {resolveTemplates : String → Run → String}

variable (resolveTemplates) in
/-- Every branch of a node's execution ends with a report that is not `pending`. -/
theorem pendings_executeNode (loaded wf : Run) (yaml : YamlNodes) (o : Outcome) (id : String) :
    (executeNode resolveTemplates loaded yaml o id wf).pendings =
      wf.pendings.filter (·.1 ≠ id) := by
  rw [executeNode]
  split
  next => exact pendings_report (by simp) wf
  next =>
    apply (pendings_report o.status_ne_pending _).trans
    rw [pendings_report (by simp) wf, List.filter_filter]
    apply List.filter_congr
    intro item _
    exact Bool.and_self _

theorem pendings_executeWave (yaml : YamlNodes) (ready : List String) (t : Turn) (wf : Run) :
    (wf.executeWave resolveTemplates yaml ready t).pendings = wf.pendings.filter (·.1 ∉ ready) := by
  apply pendings_foldl
  intro left id
  exact pendings_executeNode resolveTemplates wf left yaml (t.outcome id) id

end Pending

section Turns

variable {evaluate : String → Run → Bool} {resolveTemplates : String → Run → String}
    {yaml : Option YamlNodes}
  {dryRun : Bool} {t : Turn} {wf left : Run}

theorem turn_cases {answer : Option Stop}
    (turned : wf.turn evaluate resolveTemplates yaml dryRun t = (left, answer)) :
    (answer ≠ none ∧ left = wf) ∨
      ∃ (yaml' : YamlNodes) (skipped ready : List String), yaml = some yaml' ∧
        ready = readyNodes evaluate yaml' wf ∧
        (answer = none → ready ≠ []) ∧
        left.pendings = (wf.pendings.filter (·.1 ∉ skipped)).filter (·.1 ∉ ready) := by
  rw [Run.turn.eq_def] at turned
  split at turned
  next =>
    apply Or.inl
    obtain ⟨rfl, rfl⟩ := Prod.mk.inj turned
    exact ⟨nofun, rfl⟩
  next =>
    cases yaml with
    | none =>
      apply Or.inl
      obtain ⟨rfl, rfl⟩ := Prod.mk.inj turned
      exact ⟨nofun, rfl⟩
    | some yaml =>
      apply Or.inr
      refine ⟨yaml, skippedByCondition evaluate yaml wf, _, rfl, rfl, ?_⟩
      change (if readyNodes evaluate yaml wf = [] then _ else _) = _ at turned
      by_cases unready : readyNodes evaluate yaml wf = []
      · rw [if_pos unready] at turned
        obtain ⟨rfl, rfl⟩ := Prod.mk.inj turned
        apply And.intro nofun
        rw [unready, List.filter_eq_self.mpr fun item _ => decide_eq_true List.not_mem_nil]
        exact pendings_markSkipped ..
      · rw [if_neg unready] at turned
        apply And.intro fun _ => unready
        split at turned
        next =>
          rw [← (Prod.mk.inj turned).1]
          apply (pendings_markSkipped ..).trans
          exact congrArg _ (pendings_markSkipped ..)
        next =>
          rw [← (Prod.mk.inj turned).1]
          apply (pendings_executeWave ..).trans
          exact congrArg _ (pendings_markSkipped ..)

theorem pendings_turn {answer : Option Stop}
    (turned : wf.turn evaluate resolveTemplates yaml dryRun t = (left, answer)) :
    left.pendings.Sublist wf.pendings := by
  cases turn_cases turned with
  | inl stays => exact stays.2 ▸ List.Sublist.refl _
  | inr leaves =>
    obtain ⟨_, _, _, -, -, -, same⟩ := leaves
    rw [same]
    exact List.filter_sublist.trans List.filter_sublist

theorem pendings_lt (goes_on : wf.turn evaluate resolveTemplates yaml dryRun t = (left, none)) :
    left.pendings.length < wf.pendings.length := by
  cases turn_cases goes_on with
  | inl stays => exact absurd rfl stays.1
  | inr leaves =>
    obtain ⟨yaml, skipped, ready, -, rfl, waits, same⟩ := leaves
    obtain ⟨id, member⟩ := List.exists_mem_of_ne_nil _ (waits rfl)
    obtain ⟨ynode, -, due, -⟩ := (mem_readyNodes evaluate).mp member
    obtain ⟨node, found, pending⟩ := Option.map_eq_some_iff.mp (due_iff.mp due).1
    have here : (id, node) ∈ wf.pendings :=
      List.mem_filter.mpr ⟨Dict.mem_of_get found, decide_eq_true pending⟩
    rw [same, List.filter_filter]
    apply List.length_filter_lt_length_iff_exists.mpr
    apply Exists.intro (id, node)
    apply And.intro here
    simp [member]

end Turns

section Running

/-- What comes of `run`. -/
inductive Ending
  | returned (stop : Stop)
  | raised

/-- `WorkflowRunner.run`: what an iteration meets is none where something raises, and nothing
catches it. -/
def Run.run (evaluate : String → Run → Bool) (resolveTemplates : String → Run → String)
    (yaml : Option YamlNodes) (dryRun : Bool) : List (Option Turn) → Run → Option Ending
  | [], _ => none
  | none :: _, _ => some .raised
  | some t :: turns, wf =>
    match wf.turn evaluate resolveTemplates yaml dryRun t with
    | (_, some stop) => some (.returned stop)
    | (left, none) => left.run evaluate resolveTemplates yaml dryRun turns

variable (evaluate : String → Run → Bool) (resolveTemplates : String → Run → String)
    (yaml : Option YamlNodes)
  (dryRun : Bool)

theorem run_eq_loop (turns : List Turn) (wf : Run) :
    wf.run evaluate resolveTemplates yaml dryRun (turns.map some) =
      (wf.loop evaluate resolveTemplates yaml dryRun turns).map fun ran => .returned ran.2.2 := by
  induction turns generalizing wf with
  | nil => rfl
  | cons t turns ih =>
    rw [List.map_cons, Run.run, Run.loop]
    cases turned : wf.turn evaluate resolveTemplates yaml dryRun t with
    | mk left answer =>
      cases answer with
      | none => exact ih left
      | some stop => rfl

theorem run_ends {turns : List (Option Turn)} {wf : Run}
    (enough : wf.pendings.length < turns.length) :
    ∃ ending, wf.run evaluate resolveTemplates yaml dryRun turns = some ending ∧
      (ending = .raised → none ∈ turns) := by
  induction turns generalizing wf with
  | nil => exact absurd enough (Nat.not_lt_zero _)
  | cons turn turns ih =>
    cases turn with
    | none => exact ⟨.raised, rfl, fun _ => List.mem_cons_self⟩
    | some t =>
      rw [Run.run]
      cases turned : wf.turn evaluate resolveTemplates yaml dryRun t with
      | mk left answer =>
        cases answer with
        | some stop => exact ⟨.returned stop, rfl, nofun⟩
        | none =>
          have fewer := Nat.lt_of_lt_of_le (pendings_lt turned) (Nat.le_of_lt_succ enough)
          apply (ih fewer).imp
          intro ending ends
          exact ends.imp_right fun raised same => List.mem_cons_of_mem _ (raised same)

/-- No iteration makes a node pending, one that does not return leaves fewer of them, and so `run`
returns in the iteration after as many as were pending, if not before, for whatever its iterations
meet. -/
theorem run_terminates (wf : Run) :
    (∀ t left answer, wf.turn evaluate resolveTemplates yaml dryRun t = (left, answer) →
      left.pendings.Sublist wf.pendings ∧
        (answer = none → left.pendings.length < wf.pendings.length)) ∧
    ∀ turns : List (Option Turn), turns.length = wf.pendings.length + 1 →
      ∃ ending, wf.run evaluate resolveTemplates yaml dryRun turns = some ending ∧
        (ending = .raised → none ∈ turns) := by
  apply And.intro
  · intro t left answer turned
    apply And.intro (pendings_turn turned)
    rintro rfl
    exact pendings_lt turned
  · intro turns enough
    exact run_ends evaluate resolveTemplates yaml dryRun
      (Nat.lt_of_lt_of_eq (Nat.lt_succ_self _) enough.symm)

end Running

end DreamStudio.Workflow
