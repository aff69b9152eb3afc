import DreamStudio.Workflow.Engine

namespace DreamStudio.Workflow

open Library

variable (evaluate : String → Run → Bool) (resolveTemplates : String → Run → String)

/-- What `_verify_completion` finds of a node whose skill was invoked. -/
inductive Verdict
  | completed
  | unverified
  | blocked
  deriving DecidableEq

structure Outcome where
  success : Bool
  verdict : Verdict
  output : String := ""
  started : String := ""
  finished : String := ""
  duration : String := "0.0"

def Outcome.status (o : Outcome) : NodeStatus :=
  if o.success then
    match o.verdict with
    | .completed => .completed
    | .unverified => .unverified
    | .blocked => .blocked
  else .failed

/-- What one turn of the loop meets outside the state: the context budget and the outcomes of the
nodes. -/
structure Turn where
  budget : Bool := false
  outcome : String → Outcome
  now : String := ""

/-- Why `run` returns: `status` is the run's own status at the head of the loop. -/
inductive Stop
  | status (s : Status)
  | noYaml
  | running
  | completed
  | completedWithUnverified
  | completedWithFailures
  | blocked
  deriving DecidableEq

def Run.markSkipped (reason now : String) (ids : List String) (wf : Run) : Run :=
  ids.foldl (fun wf id =>
    wf.report
      { nodeId := id, status := .skipped, output := some ("SKIPPED: " ++ reason), now := now }) wf

/-- One node of a wave; `loaded` is the run as the wave found it. -/
def executeNode (loaded : Run) (yaml : YamlNodes) (o : Outcome) (id : String) (wf : Run) : Run :=
  let ynode := (yaml.get id).getD {}
  let skill := resolveTemplates (ynode.skill.getD "") loaded
  if skill = "" ∧ !ynode.command then
    wf.report
      { nodeId := id, status := .skipped, output := some "no skill or command defined",
        now := o.finished }
  else
    (wf.report { nodeId := id, status := .running, now := o.started }).report
      { nodeId := id, status := o.status, output := some o.output, executed := some (skill = ""),
        duration := some o.duration, now := o.finished }

def Run.executeWave (yaml : YamlNodes) (ready : List String) (turn : Turn) (wf : Run) : Run :=
  ready.foldl (fun left id => executeNode resolveTemplates wf yaml (turn.outcome id) id left) wf

def Run.statuses (wf : Run) : List NodeStatus := wf.nodes.map (·.2.status)

/-- Nothing is ready: the answer, drawn from the nodes as they are after the skips. -/
def Run.stop (wf : Run) : Stop :=
  if wf.statuses.any (· = .running) then .running
  else if wf.statuses.all ([.completed, .skipped].contains ·) then .completed
  else if wf.statuses.all ([.completed, .skipped, .unverified].contains ·) then
    .completedWithUnverified
  else if wf.statuses.all ([.completed, .skipped, .failed, .unverified].contains ·) then
    .completedWithFailures
  else .blocked

/-- One turn of the `while` loop; a stop ends it. -/
def Run.turn (yaml : Option YamlNodes) (dryRun : Bool) (turn : Turn) (wf : Run) :
    Run × Option Stop :=
  if wf.status = .paused ∨ wf.status.terminal then (wf, some (.status wf.status))
  else
    match yaml with
    | none => (wf, some .noYaml)
    | some yaml =>
      let (ready, skipped) := computeReadyNodes evaluate yaml wf
      let left := wf.markSkipped "condition false" turn.now skipped
      if ready = [] then (left, some left.stop)
      else if 1 < ready.length ∧ !dryRun ∧ turn.budget then
        (left.markSkipped "context budget too high for parallel dispatch" turn.now ready, none)
      else (left.executeWave resolveTemplates yaml ready turn, none)

/-- `WorkflowRunner.run`, with what its turns meet: the run that the last turn loaded, the run it
leaves, and the answer. -/
def Run.loop (yaml : Option YamlNodes) (dryRun : Bool) : List Turn → Run → Option (Run × Run × Stop)
  | [], _ => none
  | t :: turns, wf =>
    match wf.turn evaluate resolveTemplates yaml dryRun t with
    | (left, some stop) => some (wf, left, stop)
    | (left, none) => left.loop yaml dryRun turns

end DreamStudio.Workflow
