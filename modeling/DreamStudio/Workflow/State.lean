import DreamStudio.Library.Dict

namespace DreamStudio.Workflow

open Library

inductive NodeStatus
  | pending
  | running
  | completed
  | failed
  | skipped
  | unverified
  | blocked
  | blockedByDeps
  deriving DecidableEq, Repr

inductive Status
  | running
  | paused
  | completed
  | completedWithFailures
  | aborted
  deriving DecidableEq, Repr

/-- `_TERMINAL`. -/
def Status.terminal : Status → Bool
  | .completed | .completedWithFailures | .aborted => true
  | _ => false

/-- A node's record in `workflows.json`; `none` is a key it does not have, a duration is its text. -/
structure Node where
  status : NodeStatus := .pending
  started : Option String := none
  finished : Option String := none
  output : Option String := none
  executed : Option Bool := none
  durationS : Option String := none
  deriving DecidableEq, Repr

/-- `record.update(other)`. -/
def Node.update (record other : Node) : Node where
  status := other.status
  started := other.started.or record.started
  finished := other.finished.or record.finished
  output := other.output.or record.output
  executed := other.executed.or record.executed
  durationS := other.durationS.or record.durationS

abbrev Nodes := Dict String Node

structure Run where
  workflow : String
  started : String
  status : Status := .running
  currentNode : Option String := none
  yamlPath : String
  nodes : Nodes
  completedNodes : List String := []
  gatesPassed : List String := []
  gatesPending : List String := []
  workOrderId : String := ""
  deriving DecidableEq, Repr

/-- The `active_workflows` of `workflows.json`. -/
abbrev Runs := Dict String Run

def NodeStatus.done : NodeStatus → Bool
  | .completed | .skipped => true
  | _ => false

def NodeStatus.through : NodeStatus → Bool
  | .completed | .skipped | .failed => true
  | _ => false

def allDone (nodes : Nodes) : Bool := nodes.all (·.2.status.done)

def allThrough (nodes : Nodes) : Bool := nodes.all (·.2.status.through)

def settle (nodes : Nodes) (status : Status) : Status :=
  if allDone nodes then .completed
  else if allThrough nodes then .completedWithFailures
  else status

/-- What `cmd_update` and `_update_node` are told about a node. -/
structure Report where
  nodeId : String
  status : NodeStatus
  output : Option String := none
  executed : Option Bool := none
  duration : Option String := none
  now : String
  deriving DecidableEq, Repr

def Report.apply (r : Report) (node : Node) : Node where
  status := r.status
  started := if r.status = .running then node.started.or (some r.now) else node.started
  finished := if r.status = .completed ∨ r.status = .failed ∨ r.status = .skipped then
    some r.now else node.finished
  output := r.output.or node.output
  executed := r.executed.or node.executed
  durationS := r.duration.or node.durationS

def Report.nodes (r : Report) (nodes : Nodes) : Nodes :=
  nodes.set r.nodeId (r.apply ((nodes.get r.nodeId).getD {}))

def Run.report (r : Report) (wf : Run) : Run :=
  { wf with
    nodes := r.nodes wf.nodes
    completedNodes :=
      if r.status = .completed ∧ r.nodeId ∉ wf.completedNodes then wf.completedNodes ++ [r.nodeId]
      else wf.completedNodes
    currentNode := some r.nodeId
    status := settle (r.nodes wf.nodes) wf.status }

/-- `_try_archive_and_prune`; `emitted` says whether the completion events were spooled. -/
def tryArchiveAndPrune (emitted : Bool) (key : String) (runs : Runs) : Runs :=
  if emitted then runs.erase key else runs

section Commands

variable (key : String)

def cmdUpdate (r : Report) (emitted : Bool) (runs : Runs) : Runs :=
  match runs.get key with
  | none => runs
  | some wf =>
    if r.nodeId ∉ wf.nodes.keys then runs
    else
      let wf' := wf.report r
      let runs' := runs.set key wf'
      if wf'.status.terminal then tryArchiveAndPrune emitted key runs' else runs'

/-- `WorkflowRunner._update_node`. -/
def updateNode (r : Report) (runs : Runs) : Runs :=
  match runs.get key with
  | none => runs
  | some wf => runs.set key (wf.report r)

def Run.pause (nodeId gateName : String) (wf : Run) : Run :=
  { wf with
    status := .paused
    currentNode := some nodeId
    gatesPending := if gateName ∈ wf.gatesPending then wf.gatesPending else wf.gatesPending ++
      [gateName] }

def cmdPause (nodeId gateName : String) (runs : Runs) : Runs :=
  match runs.get key with
  | none => runs
  | some wf => runs.set key (wf.pause nodeId gateName)

def Run.resume (wf : Run) : Run :=
  match wf.gatesPending with
  | [] => { wf with status := .running }
  | gate :: pending =>
    { wf with
      status := .running
      gatesPending := pending
      gatesPassed := wf.gatesPassed ++ [wf.currentNode.getD "None" ++ ":" ++ gate] }

def cmdResume (runs : Runs) : Runs :=
  match runs.get key with
  | none => runs
  | some wf => runs.set key wf.resume

def NodeStatus.aborted : NodeStatus → NodeStatus
  | .pending | .running | .blockedByDeps => .skipped
  | status => status

def Run.abort (wf : Run) : Run :=
  { wf with
    nodes := wf.nodes.map fun (id, node) => (id, { node with status := node.status.aborted })
    status := .aborted }

def cmdAbort (emitted : Bool) (runs : Runs) : Runs :=
  match runs.get key with
  | none => runs
  | some wf => tryArchiveAndPrune emitted key (runs.set key wf.abort)

end Commands

section Start

/-- `cmd_start`, once the YAML file has been read. -/
structure Start where
  name : String
  yamlPath : String
  nodeIds : List String
  workOrder : String := ""
  seconds : Nat
  now : String
  deriving DecidableEq, Repr

def Start.key (s : Start) : String := s.name ++ "-" ++ toString s.seconds

def Start.run (s : Start) : Run where
  workflow := s.name
  started := s.now
  yamlPath := s.yamlPath
  nodes := s.nodeIds.foldl (fun nodes id => nodes.set id {}) []
  workOrderId := s.workOrder

def findResumable (runs : Runs) (name : String) : Option (String × Run) :=
  runs.find? fun (_, wf) => wf.workflow = name ∧ ¬wf.status.terminal

def cmdStart (s : Start) (runs : Runs) : Runs :=
  if s.nodeIds = [] ∨ (findResumable runs s.name).isSome then runs
  else runs.set s.key s.run

end Start

end DreamStudio.Workflow
