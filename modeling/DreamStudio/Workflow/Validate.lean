import DreamStudio.Library.Except
import DreamStudio.Library.Json
import DreamStudio.Library.Kahn
import DreamStudio.Workflow.Stranded

namespace DreamStudio.Workflow

open Library

/-- A node as the YAML file has it: what its `- id:` line says, and its other fields. -/
structure RawNode where
  id : String
  fields : List (String × Json) := []

/-- What `parse_workflow` returns: the nodes, the names of the gates, and `on_failure`. -/
structure Document where
  nodes : List RawNode := []
  gates : List String := []
  onFailure : Json := .null

abbrev Document.ids (d : Document) : List String := d.nodes.map (·.id)

def RawNode.get (n : RawNode) (key : String) : Json := Json.lookup n.fields key

def typeError {α : Type} (text : String) : Except String α := .error ("TypeError: " ++ text)

/-- `n.get("depends_on", [])`, a string being a list of one. -/
def RawNode.dependsOn (n : RawNode) : Except String (List Json) :=
  match Json.lookupD n.fields "depends_on" (.arr []) with
  | .str d => .ok [.str d]
  | .arr items => .ok items
  | .obj fields => .ok (fields.map fun field => .str field.1)
  | v => typeError ("'" ++ v.pyType ++ "' object is not iterable")

/-- `value in names`, which a value that has no hash raises on. -/
def isIn (names : List String) : Json → Except String Bool
  | .str s => .ok (s ∈ names)
  | .arr _ => typeError "unhashable type: 'list'"
  | .obj _ => typeError "unhashable type: 'dict'"
  | _ => .ok false

/-- `isinstance(value, int)`. -/
def asInt : Json → Option Int
  | .int n => some n
  | .bool b => some (if b then 1 else 0)
  | _ => none

section Validate

-- How `str` spells what is no scalar, and whether the SKILL.md of a skill is there.
variable (repr : Json → String) (resolves : String → Bool)

def collectId (acc : List String × List String) (n : RawNode) : List String × List String :=
  if n.id = "" then (acc.1, acc.2 ++ ["Node missing 'id' field"])
  else if n.id ∈ acc.1 then (acc.1, acc.2 ++ ["Duplicate node id: \"" ++ n.id ++ "\""])
  else (acc.1 ++ [n.id], acc.2)

def collectIds (nodes : List RawNode) : List String × List String := nodes.foldl collectId ([], [])

def actionErrors (n : RawNode) : List String :=
  let hasSkill := Json.hasKey n.fields "skill"
  let hasCommand := Json.hasKey n.fields "command"
  (if !hasSkill && !hasCommand then ["Node \"" ++ n.id ++ "\": needs 'skill' or 'command'"] else
    []) ++
    if hasSkill && hasCommand then ["Node \"" ++ n.id ++ "\": has both 'skill' and 'command'"] else
      []

def dependencyError (ids : List String) (n : RawNode) (dep : Json) :
    Except String (List String) := do
  if ← isIn ids dep then return []
  else return ["Node \"" ++ n.id ++ "\": depends_on \"" ++ dep.pyStr repr ++ "\" — not found"]

def gateErrors (gates : List String) (n : RawNode) : Except String (List String) := do
  let gate := n.get "gate"
  if gate.truthy then
    if ← isIn gates gate then return []
    else return ["Node \"" ++ n.id ++ "\": gate \"" ++ gate.pyStr repr ++ "\" not in gates section"]
  else return []

def skillErrors (n : RawNode) : Except String (List String) :=
  let skill := n.get "skill"
  if skill.truthy then
    match skill with
    | .str skill =>
      .ok (if resolves skill then []
        else ["Node \"" ++ n.id ++ "\": skill \"" ++ skill ++ "\" — " ++ skill ++
          " not found in skills/ or any pack mode"])
    | v => typeError ("unsupported operand type(s) for /: 'PosixPath' and '" ++ v.pyType ++ "'")
  else .ok []

def nodeErrors (gates ids : List String) (n : RawNode) : Except String (List String) := do
  let deps ← (← n.dependsOn).mapM (dependencyError repr ids n)
  let gate ← gateErrors repr gates n
  let skill ← skillErrors resolves n
  return actionErrors n ++ deps.flatten ++ gate ++ skill

def onFailureErrors (ids : List String) : Json → List String
  | .null => []
  | .str s =>
    if s = "abort" ∨ s ∈ ids then []
    else ["Warning: on_failure \"" ++ s ++ "\" is not \"abort\" or a known node ID"]
  | _ => ["Warning: on_failure must be a string (\"abort\" or a node ID)"]

def fieldErrors (n : RawNode) : List String :=
  let complaint (text : String) := ["Node \"" ++ n.id ++ "\": " ++ text]
  let timeout := n.get "timeout_seconds"
  let retry := n.get "retry"
  let estimatedTokens := n.get "estimated_tokens"
  (if !timeout.isNull && !(asInt timeout).any (0 < ·) then
    complaint "timeout_seconds must be a positive integer" else []) ++
  (match retry with
    | .null => []
    | .obj fields =>
      let max := Json.lookup fields "max"
      if max.isNull then complaint "retry.max is required"
      else if !(asInt max).any (0 < ·) then complaint "retry.max must be a positive integer"
      else []
    | _ => complaint "retry must be a mapping") ++
  if !estimatedTokens.isNull && !(asInt estimatedTokens).any (0 ≤ ·) then
    complaint "estimated_tokens must be a non-negative integer" else []

def edgesOf (ids : List String) (nodes : List RawNode) : List (String × String) :=
  nodes.flatMap fun n =>
    if n.id = "" then []
    else (n.dependsOn.toOption.getD []).filterMap fun
      | .str dep => if dep ∈ ids then some (dep, n.id) else none
      | _ => none

/-- Kahn's algorithm. The nodes of a cycle are named in the order of the ids, which a set leaves
open. -/
def cycleErrors (ids : List String) (nodes : List RawNode) : List String :=
  let edges := edgesOf ids nodes
  let ended := Kahn.run edges ids.length (Kahn.start edges ids)
  if ended.visited < ids.length then
    ["Cycle detected: " ++ String.intercalate ", " (ids.filter (0 < ended.degree ·))]
  else []

def validate (d : Document) : Except String (List String) := do
  let (ids, idErrors) := collectIds d.nodes
  let perNode ← d.nodes.mapM (nodeErrors repr resolves d.gates ids)
  return idErrors ++ perNode.flatten ++ onFailureErrors ids d.onFailure ++
    d.nodes.flatMap fieldErrors ++
    cycleErrors ids d.nodes

end Validate

section Load

def TriggerRule.ofJson : Json → TriggerRule
  | .str "all_success" => .allSuccess
  | .str "all_done" => .allDone
  | .str "one_success" => .oneSuccess
  | .str rule => .other rule
  | v => .other v.pyType

/-- A node as the engine reads it. -/
def RawNode.yaml (n : RawNode) : YamlNode where
  dependsOn := (n.dependsOn.toOption.getD []).filterMap fun
    | .str dep => some dep
    | _ => none
  triggerRule := .ofJson (Json.lookupD n.fields "trigger_rule" (.str "all_success"))
  condition := if (n.get "condition").truthy then some ((n.get "condition").pyStr Json.pyType) else
    none
  skill := match n.get "skill" with
    | .str skill => some skill
    | _ => none
  command := (n.get "command").truthy

/-- `{n["id"]: n for n in yaml_data.get("nodes", []) if "id" in n}`. -/
def Document.yamlNodes (d : Document) : YamlNodes :=
  d.nodes.foldl (fun yaml n => Dict.set yaml n.id n.yaml) []

end Load

section Sound

variable {repr : Json → String} {resolves : String → Bool} {d : Document} {n : RawNode}
  {ids : List String}

theorem errors_nil (nodes : List RawNode) {acc : List String × List String}
    (clean : (nodes.foldl collectId acc).2 = []) : acc.2 = [] := by
  induction nodes generalizing acc with
  | nil => exact clean
  | cons n nodes ih =>
    have here := ih clean
    unfold collectId at here
    split at here
    · simp at here
    · split at here
      · simp at here
      · exact here

theorem collectId_clean {acc : List String × List String} (clean : (collectId acc n).2 = []) :
    acc.2 = [] ∧ (collectId acc n).1 = acc.1 ++ [n.id] ∧ n.id ∉ acc.1 ∧ n.id ≠ "" := by
  unfold collectId at clean ⊢
  split at clean
  next => simp at clean
  next named =>
    split at clean
    next => simp at clean
    next new =>
      rw [if_neg named, if_neg new]
      exact ⟨clean, rfl, new, named⟩

theorem collectIds_clean {nodes : List RawNode} (clean : (collectIds nodes).2 = []) :
    (collectIds nodes).1 = nodes.map (·.id) ∧ (nodes.map (·.id)).Nodup ∧
      ∀ n ∈ nodes, n.id ≠ "" := by
  have scan : ∀ (nodes : List RawNode) (acc : List String × List String),
      (nodes.foldl collectId acc).2 = [] → acc.1.Nodup →
        acc.2 = [] ∧ (nodes.foldl collectId acc).1 = acc.1 ++ nodes.map (·.id) ∧
          (acc.1 ++ nodes.map (·.id)).Nodup ∧ ∀ n ∈ nodes, n.id ≠ "" := by
    intro nodes
    induction nodes with
    | nil => exact fun acc clean nodup => ⟨clean, by simp, by simpa using nodup, by simp⟩
    | cons n nodes ih =>
      intro acc clean nodup
      rw [List.foldl_cons] at clean ⊢
      have here : (collectId acc n).2 = [] := errors_nil nodes clean
      obtain ⟨before, added, new, named⟩ := collectId_clean here
      have nodup' : (collectId acc n).1.Nodup := by
        rw [added]
        exact List.nodup_append.mpr ⟨nodup, List.nodup_singleton _, by
          rintro a member b same rfl
          exact new (List.mem_singleton.mp same ▸ member)⟩
      obtain ⟨-, ids, nodup'', names⟩ := ih (collectId acc n) clean nodup'
      rw [added, List.append_assoc] at ids nodup''
      exact ⟨before, ids, nodup'', List.forall_mem_cons.mpr ⟨named, names⟩⟩
  obtain ⟨-, ids, nodup, named⟩ := scan nodes ([], []) clean List.nodup_nil
  exact ⟨ids, nodup, named⟩

theorem isIn_true {names : List String} {v : Json} (h : isIn names v = .ok true) :
    ∃ s ∈ names, v = .str s := by
  cases v with
  | str s => exact ⟨s, by simpa [isIn] using h, rfl⟩
  | _ => cases h

theorem nodeErrors_sound {gates : List String}
    (clean : nodeErrors repr resolves gates ids n = .ok []) :
    ∃ deps : List String, n.dependsOn = .ok (deps.map .str) ∧ deps ⊆ ids := by
  unfold nodeErrors at clean
  simp only [bind_eq_ok, pure_eq_ok] at clean
  obtain ⟨items, depends, perDep, loop, gate, -, skill, -, none⟩ := clean
  simp only [List.append_eq_nil_iff, List.flatten_eq_nil_iff] at none
  have found : ∀ item ∈ items, ∃ s ∈ ids, item = .str s := fun item member => by
    obtain ⟨errors, reported, ran⟩ := (mapM_eq_ok loop).1 item member
    rw [none.1.1.2 errors reported] at ran
    unfold dependencyError at ran
    obtain ⟨present, checked, ran⟩ := bind_eq_ok.mp ran
    cases present with
    | true => exact isIn_true checked
    | false => cases ran
  rw [depends]
  clear loop depends
  induction items with
  | nil => exact ⟨[], rfl, by simp⟩
  | cons item items ih =>
    obtain ⟨here, rest⟩ := List.forall_mem_cons.mp found
    obtain ⟨s, inside, rfl⟩ := here
    obtain ⟨deps, same, sub⟩ := ih rest
    refine ⟨s :: deps, ?_, List.cons_subset.mpr ⟨inside, sub⟩⟩
    rw [List.map_cons, ← Except.ok.inj same]

theorem validate_sound (clean : validate repr resolves d = .ok []) :
    (collectIds d.nodes).2 = [] ∧
      (∀ n ∈ d.nodes, nodeErrors repr resolves d.gates (collectIds d.nodes).1 n = .ok []) ∧
      cycleErrors (collectIds d.nodes).1 d.nodes = [] := by
  unfold validate at clean
  simp only [bind_eq_ok, pure_eq_ok] at clean
  obtain ⟨perNode, loop, none⟩ := clean
  simp only [List.append_eq_nil_iff, List.flatten_eq_nil_iff] at none
  refine ⟨none.1.1.1.1, fun n member => ?_, none.2⟩
  obtain ⟨errors, reported, ran⟩ := (mapM_eq_ok loop).1 n member
  rw [ran, none.1.1.1.2 errors reported]

/-- What the checks leave of a document: its ids differ, its nodes depend on its nodes, and no node
depends on itself. -/
structure WellShaped (d : Document) : Prop where
  nodup : d.ids.Nodup
  depends : ∀ n ∈ d.nodes, n.yaml.dependsOn ⊆ d.ids
  acyclic : Acyclic fun x y => ∃ n ∈ d.nodes, n.id = x ∧ y ∈ n.yaml.dependsOn

theorem mem_yaml_dependsOn {y : String} :
    y ∈ n.yaml.dependsOn ↔ Json.str y ∈ n.dependsOn.toOption.getD [] := by
  change y ∈ List.filterMap _ _ ↔ _
  rw [List.mem_filterMap]
  constructor
  · rintro ⟨item, member, same⟩
    cases item with
    | str dep =>
      cases same
      exact member
    | _ => cases same
  · intro member
    exact ⟨.str y, member, rfl⟩

theorem mem_edgesOf {nodes : List RawNode} {x y : String} :
    (y, x) ∈ edgesOf ids nodes ↔
      y ∈ ids ∧ x ≠ "" ∧ ∃ n ∈ nodes, n.id = x ∧ y ∈ n.yaml.dependsOn := by
  rw [edgesOf]
  simp only [List.mem_flatMap, mem_yaml_dependsOn]
  constructor
  · rintro ⟨n, member, edge⟩
    split at edge
    next => cases edge
    next named =>
      obtain ⟨item, dep, same⟩ := List.mem_filterMap.mp edge
      cases item with
      | str d' =>
        simp only at same
        split at same
        next inside =>
          cases same
          exact ⟨inside, named, n, member, rfl, dep⟩
        next => cases same
      | _ => cases same
  · rintro ⟨inside, named, n, member, rfl, dep⟩
    apply Exists.intro n
    apply And.intro member
    rw [if_neg named, List.mem_filterMap]
    exact ⟨.str y, dep, if_pos inside⟩

theorem validate_shapes (clean : validate repr resolves d = .ok []) : WellShaped d := by
  obtain ⟨idsClean, nodesClean, cycleClean⟩ := validate_sound clean
  obtain ⟨ids, nodup, named⟩ := collectIds_clean idsClean
  rw [ids] at nodesClean cycleClean
  have depends : ∀ n ∈ d.nodes, n.yaml.dependsOn ⊆ d.ids := fun n member y dep => by
    obtain ⟨deps, depends, sub⟩ := nodeErrors_sound (nodesClean n member)
    rw [mem_yaml_dependsOn, depends] at dep
    obtain ⟨s, inside, same⟩ := List.mem_map.mp dep
    cases same
    exact sub inside
  have visited : d.ids.length ≤ (Kahn.run (edgesOf d.ids d.nodes) d.ids.length
      (Kahn.start (edgesOf d.ids d.nodes) d.ids)).visited := by
    unfold cycleErrors at cycleClean
    by_contra short
    rw [if_pos (not_le.mp short)] at cycleClean
    cases cycleClean
  have closed : ∀ e ∈ edgesOf d.ids d.nodes, e.2 ∈ d.ids := fun e edge => by
    obtain ⟨-, -, n, member, same, -⟩ := mem_edgesOf.mp edge
    exact List.mem_map.mpr ⟨n, member, same⟩
  refine ⟨nodup, depends, (Kahn.acyclic_of_visited nodup closed visited).mono fun x y edge => ?_⟩
  obtain ⟨n, member, same, dep⟩ := edge
  exact mem_edgesOf.mpr ⟨depends n member dep, same ▸ named n member, n, member, same, dep⟩

theorem yamlNodes_eq (nodup : d.ids.Nodup) : d.yamlNodes = d.nodes.map fun n => (n.id, n.yaml) := by
  have scan : ∀ (nodes : List RawNode) (yaml : YamlNodes),
      (Dict.keys yaml ++ nodes.map (·.id)).Nodup →
      nodes.foldl (fun yaml n => Dict.set yaml n.id n.yaml) yaml =
        yaml ++ nodes.map fun n => (n.id, n.yaml) := by
    intro nodes
    induction nodes with
    | nil => exact fun yaml _ => (List.append_nil yaml).symm
    | cons n nodes ih =>
      intro yaml nodup
      have absent : n.id ∉ Dict.keys yaml := fun held =>
        List.disjoint_of_nodup_append nodup held List.mem_cons_self
      have added : Dict.set yaml n.id n.yaml = yaml ++ [(n.id, n.yaml)] :=
        if_neg (Dict.any_key.not.mpr absent)
      rw [List.foldl_cons, added, ih]
      · simp
      · simpa [Dict.keys] using nodup
  exact scan d.nodes [] nodup

end Sound

section Deadlock

variable {d : Document}

def Waiting (d : Document) (wf : Run) : Prop :=
  (∃ n ∈ d.nodes, wf.recorded n.id = some .pending) ∧
    ∀ n ∈ d.nodes, wf.recorded n.id = some .pending ∨ wf.recorded n.id = some .completed ∨
      wf.recorded n.id = some .unverified

/-- Whatever the conditions say, a node is ready or skipped. -/
def Advances (d : Document) : Prop :=
  ∀ (evaluate : String → Run → Bool) (wf : Run), Waiting d wf →
    computeReadyNodes evaluate d.yamlNodes wf ≠ ([], [])

/-- The node waits for all it depends on, by a rule that an unverified dependency meets. -/
def RawNode.Releasable (n : RawNode) : Prop :=
  n.yaml.dependsOn = [] ∨ n.yaml.triggerRule = .allSuccess ∨ n.yaml.triggerRule = .allDone

theorem advances_of_releasable (shaped : WellShaped d) (releasable : ∀ n ∈ d.nodes, n.Releasable) :
    Advances d := by
  intro evaluate wf ⟨⟨n, member, pending⟩, states⟩ idle
  rw [computeReadyNodes_eq_nil_iff, yamlNodes_eq shaped.nodup] at idle
  let waiting := d.ids.filter fun id => wf.recorded id = some .pending
  have held : n.id ∈ waiting :=
    List.mem_filter.mpr ⟨List.mem_map_of_mem member, decide_eq_true pending⟩
  obtain ⟨x, last, free⟩ := shaped.acyclic.exists_terminal (List.ne_nil_of_mem held)
  obtain ⟨inside, pending⟩ := List.mem_filter.mp last
  obtain ⟨n, member, rfl⟩ := List.mem_map.mp inside
  have succeeded : ∀ y ∈ n.yaml.dependsOn,
      statusOf wf.nodes y = .completed ∨ statusOf wf.nodes y = .unverified := fun y dep => by
    obtain ⟨m, there, rfl⟩ := List.mem_map.mp (shaped.depends n member dep)
    rw [statusOf_eq]
    rcases states m there with waits | completed | unverified
    · refine absurd ⟨n, member, rfl, dep⟩ (free m.id ?_)
      exact List.mem_filter.mpr ⟨List.mem_map_of_mem there, decide_eq_true waits⟩
    · exact Or.inl (by rw [completed]; rfl)
    · exact Or.inr (by rw [unverified]; rfl)
  have undue := idle (n.id, n.yaml) (List.mem_map.mpr ⟨n, member, rfl⟩)
  refine Bool.false_ne_true (undue.symm.trans (due_iff.mpr ⟨of_decide_eq_true pending, ?_⟩))
  unfold YamlNode.depsMet
  rcases releasable n member with none | rule | rule
  · simp [none]
  · rw [rule, TriggerRule.met, List.all_map, Bool.or_eq_true, List.all_eq_true]
    refine Or.inr fun y dep => ?_
    rcases succeeded y dep with status | status <;> rw [Function.comp_apply, status] <;> rfl
  · rw [rule, TriggerRule.met, List.all_map, Bool.or_eq_true, List.all_eq_true]
    refine Or.inr fun y dep => ?_
    rcases succeeded y dep with status | status <;> rw [Function.comp_apply, status] <;> rfl

def alone (d : Document) (id : String) : Run where
  workflow := ""
  started := ""
  yamlPath := ""
  nodes := d.nodes.map fun n => (n.id, { status := if n.id = id then .pending else .unverified })

theorem alone_recorded (nodup : d.ids.Nodup) {n : RawNode} (member : n ∈ d.nodes) (id : String) :
    (alone d id).recorded n.id = some (if n.id = id then .pending else .unverified) := by
  have keys : (Dict.keys (alone d id).nodes).Nodup := by
    simpa [Dict.keys, alone, Function.comp_def] using nodup
  unfold Run.recorded
  rw [Dict.get_of_mem keys (List.mem_map.mpr ⟨n, member, rfl⟩)]
  rfl

theorem releasable_of_advances (shaped : WellShaped d) (advances : Advances d) :
    ∀ n ∈ d.nodes, n.Releasable := by
  intro n member
  by_contra stuck
  obtain ⟨some_, notAll, notDone⟩ := not_or.mp stuck |>.imp id not_or.mp
  have status : ∀ m ∈ d.nodes, (alone d n.id).recorded m.id = _ := fun m there =>
    alone_recorded shaped.nodup there n.id
  refine advances (fun _ _ => true) (alone d n.id) ⟨⟨n, member, ?_⟩, fun m there => ?_⟩ ?_
  · rw [status n member, if_pos rfl]
  · rw [status m there]
    split
    · exact Or.inl rfl
    · exact Or.inr (Or.inr rfl)
  · rw [computeReadyNodes_eq_nil_iff, yamlNodes_eq shaped.nodup]
    intro item listed
    obtain ⟨m, there, rfl⟩ := List.mem_map.mp listed
    refine Bool.eq_false_iff.mpr fun due => ?_
    obtain ⟨pending, met⟩ := due_iff.mp due
    rw [status m there] at pending
    split at pending
    next same =>
      obtain rfl := List.inj_on_of_nodup_map shaped.nodup there member same
      have unverified : ∀ y ∈ m.yaml.dependsOn, statusOf (alone d m.id).nodes y = .unverified :=
        fun y dep => by
          obtain ⟨k, held, rfl⟩ := List.mem_map.mp (shaped.depends m there dep)
          have other : k.id ≠ m.id := fun same =>
            shaped.acyclic m.id (.single ⟨m, there, rfl, same ▸ dep⟩)
          rw [statusOf_eq, status k held, if_neg other]
          rfl
      unfold YamlNode.depsMet at met
      rw [List.isEmpty_eq_false_iff.mpr some_, Bool.false_or] at met
      cases rule : m.yaml.triggerRule with
      | allSuccess => exact notAll rule
      | allDone => exact notDone rule
      | other text =>
        rw [rule] at met
        cases met
      | oneSuccess =>
        rw [rule, TriggerRule.met, List.any_map, List.any_eq_true] at met
        obtain ⟨y, dep, completed⟩ := met
        rw [Function.comp_apply, unverified y dep] at completed
        cases completed
    next => cases pending

end Deadlock

/-- A workflow that passes its checks never waits on its own shape exactly if each node that depends
on others has the rule `all_success` or `all_done`. -/
theorem advances_iff (repr : Json → String) (resolves : String → Bool) (d : Document)
    (clean : validate repr resolves d = .ok []) : Advances d ↔ ∀ n ∈ d.nodes, n.Releasable := by
  have shaped := validate_shapes clean
  exact ⟨releasable_of_advances shaped, advances_of_releasable shaped⟩

def twoSteps (rule : String) : Document where
  nodes := [
    { id := "build", fields := [("skill", .str "builder")] },
    { id := "ship",
      fields := [("skill", .str "shipper"), ("depends_on", .arr [.str "build"]),
        ("trigger_rule", .str rule)] }]

theorem twoSteps_advance_iff :
    validate Json.pyType (fun _ => true) (twoSteps "all_done") = .ok [] ∧
      (Advances (twoSteps "all_done") ↔ ∀ n ∈ (twoSteps "all_done").nodes, n.Releasable) :=
  ⟨rfl, advances_iff Json.pyType (fun _ => true) (twoSteps "all_done") rfl⟩

/-- A workflow that passes waits forever by a rule that nothing meets. -/
theorem twoSteps_deadlock :
    ¬∀ (repr : Json → String) (resolves : String → Bool) (d : Document),
      validate repr resolves d = .ok [] → Advances d := by
  intro advances
  let wf : Run := {
    workflow := "", started := "", yamlPath := ""
    nodes := [("build", { status := .completed }), ("ship", { status := .pending })] }
  have waiting : Waiting (twoSteps "any_done") wf := by
    unfold Waiting
    decide +kernel
  have idle : computeReadyNodes (fun _ _ => true) (twoSteps "any_done").yamlNodes wf =
      ([], []) := by
    decide +kernel
  have clean : validate Json.pyType (fun _ => true) (twoSteps "any_done") = .ok [] := rfl
  exact advances Json.pyType (fun _ => true) (twoSteps "any_done") clean (fun _ _ => true)
    wf waiting idle

end DreamStudio.Workflow
