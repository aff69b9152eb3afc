import DreamStudio.Workflow.State

namespace DreamStudio.Workflow

open Library

inductive TriggerRule
  | allSuccess
  | allDone
  | oneSuccess
  | other (rule : String)
  deriving DecidableEq

structure YamlNode where
  dependsOn : List String := []
  triggerRule : TriggerRule := .allSuccess
  condition : Option String := none
  skill : Option String := none
  command : Bool := false

abbrev YamlNodes := Dict String YamlNode

def statusOf (nodes : Nodes) (id : String) : NodeStatus :=
  ((nodes.get id).map (·.status)).getD .pending

def NodeStatus.succeeded : NodeStatus → Bool
  | .completed | .unverified => true
  | _ => false

def NodeStatus.ended : NodeStatus → Bool
  | .completed | .failed | .skipped | .unverified => true
  | _ => false

def TriggerRule.met : TriggerRule → List NodeStatus → Bool
  | .allSuccess, statuses => statuses.all (·.succeeded)
  | .allDone, statuses => statuses.all (·.ended)
  | .oneSuccess, statuses => statuses.any (· = .completed)
  | .other _, _ => false

def YamlNode.depsMet (nodes : Nodes) (ynode : YamlNode) : Bool :=
  ynode.dependsOn.isEmpty || ynode.triggerRule.met (ynode.dependsOn.map (statusOf nodes))

section Ready

variable (evaluate : String → Run → Bool)

/-- `evaluate` is `_evaluate(condition, wf)`, false where that raises. -/
def YamlNode.conditionMet (wf : Run) (ynode : YamlNode) : Bool :=
  match ynode.condition with
  | none => true
  | some condition => condition = "" || evaluate condition wf

/-- A pending node whose dependencies are met. -/
def due (wf : Run) (item : String × YamlNode) : Bool :=
  (wf.nodes.get item.1).any (·.status = .pending) && item.2.depsMet wf.nodes

def readyNodes (yaml : YamlNodes) (wf : Run) : List String :=
  (yaml.filter fun item => due wf item && item.2.conditionMet evaluate wf).map (·.1)

def skippedByCondition (yaml : YamlNodes) (wf : Run) : List String :=
  (yaml.filter fun item => due wf item && !item.2.conditionMet evaluate wf).map (·.1)

/-- `(ready, skipped_by_condition)`. -/
def computeReadyNodes (yaml : YamlNodes) (wf : Run) : List String × List String :=
  (readyNodes evaluate yaml wf, skippedByCondition evaluate yaml wf)

end Ready

section Next

/-- What `cmd_next` finds outside the lock. -/
structure Plan where
  skipped : Nodes
  ready : List String
  deriving DecidableEq

variable (evaluate : String → Run → Bool)

def Node.skip (output now : String) (node : Node) : Node :=
  { node with status := .skipped, finished := some now, output := some output }

def skipRecords (now : String) (nodes : Nodes) (ids : List String) : Nodes :=
  ids.map fun id => (id, ((nodes.get id).getD {}).skip "SKIPPED: condition false" now)

/-- The unlocked part: `none` where `cmd_next` only prints. `yaml` is what the YAML file says. -/
def Run.planNext (yaml : Option YamlNodes) (now : String) (wf : Run) : Option Plan :=
  match yaml with
  | none => none
  | some yaml =>
    if wf.status = .paused ∨ wf.status.terminal then none
    else
      let (ready, skipped) := computeReadyNodes evaluate yaml wf
      some ⟨skipRecords now wf.nodes skipped, ready⟩

/-- `wf2.get("nodes", {}).setdefault(nid, {}).update(record)` for each record. -/
def mergeNodes (records nodes : Nodes) : Nodes :=
  records.foldl (fun nodes item => nodes.set item.1 (((nodes.get item.1).getD {}).update item.2))
    nodes

def Run.merge (records : Nodes) (wf : Run) : Run := { wf with nodes := mergeNodes records wf.nodes }

def writeRecords (key : String) (records : Nodes) (runs : Runs) : Runs :=
  match runs.get key with
  | none => runs
  | some wf => runs.set key (wf.merge records)

def budgetRecords (now : String) (ready : List String) : Nodes :=
  ready.map fun id =>
    (id, ({} : Node).skip "WARNING: parallel dispatch skipped — context budget too high" now)

/-- The records of the two locked sections, in their order. -/
def Plan.writes (budget : Bool) (now : String) (plan : Plan) : List Nodes :=
  (if plan.skipped.isEmpty then [] else [plan.skipped]) ++
    if 1 < plan.ready.length ∧ budget then [budgetRecords now plan.ready] else []

def cmdNext (key : String) (yaml : Option YamlNodes) (budget : Bool) (now : String) (runs : Runs) :
    Runs :=
  match (runs.get key).bind (·.planNext evaluate yaml now) with
  | none => runs
  | some plan => (plan.writes budget now).foldl (fun runs records => writeRecords key records runs)
    runs

end Next

end DreamStudio.Workflow
