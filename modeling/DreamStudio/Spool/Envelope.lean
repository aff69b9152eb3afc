import DreamStudio.Library.Table

namespace DreamStudio.Spool

open Library

abbrev Fields := List (String × Json)

/-- What `json.loads` makes of a text: a value, a `JSONDecodeError`, or any other exception, such as
the `UnicodeDecodeError` of a file that is not UTF-8. -/
inductive Loaded
  | value (v : Json)
  | malformed (message : String)
  | raises (message : String)

/-- The exceptions `ingest` tells apart. -/
inductive Raised
  | operational (message : String)
  | fileNotFound (message : String)
  | other (message : String)

inductive Destination
  | business
  | ai
  deriving DecidableEq

/-- What the ingestor is given: `json.loads` on strings inside an envelope, how `str` spells lists,
objects and floats, and the event type registry. -/
structure Env where
  loads : String → Loaded
  repr : Json → String
  registry : String → Option (List Destination)

/-- `get_routes`. Only a string can be a key of the registry; what is no key at all has no hash. -/
def Env.getRoutes (env : Env) : Json → Except Raised (List Destination)
  | .str s => .ok ((env.registry s).getD [.business, .ai])
  | .arr _ => .error (.other "unhashable type: 'list'")
  | .obj _ => .error (.other "unhashable type: 'dict'")
  | _ => .ok [.business, .ai]

/-- The levels of `_COMPONENT_ORDER`. -/
inductive Component
  | session
  | workflow
  | skill
  | agent
  | hook
  | tool

namespace Component

def order : List Component := [.session, .workflow, .skill, .agent, .hook, .tool]

/-- `_PREFIX`. -/
def tag : Component → String
  | .session => "sess"
  | .workflow => "wf"
  | .skill => "skill"
  | .agent => "agent"
  | .hook => "hook"
  | .tool => "tool"

end Component

/-- `compose` of the correlation composer. -/
def compose (repr : Json → String) (parts : Component → Json) : Text :=
  let segments := (Component.order.filter fun c => !(parts c).isNull).map fun c =>
    c.tag ++ "-" ++ (parts c).pyStr repr
  if segments.isEmpty then none else some (":".intercalate segments)

/-- `_first`. -/
def first (candidates : List Json) : Json := (candidates.find? fun v => !v.isNull).getD .null

/-- How `_extract_correlation_ids` reads `trace` and `payload`: a string is parsed, and what is no
dict in the end counts as an empty one. -/
def Env.normalize (env : Env) : Json → Except Raised Fields
  | .obj fields => .ok fields
  | .str s =>
    match env.loads s with
    | .value (.obj fields) => .ok fields
    | .value _ => .ok []
    | .malformed _ => .ok []
    | .raises message => .error (.other message)
  | _ => .ok []

structure CorrelationIds where
  sessionId : Json
  projectId : Json
  workflowId : Json
  skillId : Json
  agentId : Json
  hookId : Json
  toolId : Json
  modelId : Json
  adapterId : Json
  correlationId : Text

/-- `_extract_correlation_ids`. -/
def Env.extractCorrelationIds (env : Env) (envelope : Fields) : Except Raised CorrelationIds := do
  let trace ← env.normalize (Json.lookupD envelope "trace" (.obj []))
  let payload ← env.normalize (Json.lookupD envelope "payload" (.obj []))
  let ofEnvelope := Json.lookup envelope
  let ofTrace := Json.lookup trace
  let ofPayload := Json.lookup payload
  let sessionId := first [ofEnvelope "session_id", ofTrace "session_id", ofPayload "session_id"]
  let workflowId := first [ofTrace "workflow_id", ofTrace "stream_id", ofPayload "workflow_id"]
  let skillId := first [ofTrace "skill_id", ofTrace "skill_specifier"]
  let agentId := first [ofTrace "agent_id", ofPayload "agent_id"]
  let hookId := ofTrace "hook_id"
  let toolId := ofTrace "tool_id"
  return {
    sessionId := sessionId
    projectId := first [ofEnvelope "project_id", ofTrace "project_id", ofPayload "project_id"]
    workflowId := workflowId
    skillId := skillId
    agentId := agentId
    hookId := hookId
    toolId := toolId
    modelId := first [ofTrace "model_id", ofPayload "model"]
    adapterId := ofTrace "adapter_id"
    correlationId := compose env.repr fun
      | .session => sessionId
      | .workflow => workflowId
      | .skill => skillId
      | .agent => agentId
      | .hook => hookId
      | .tool => toolId }

/-- `REQUIRED_FIELDS`, sorted. -/
def requiredFields : List String := ["event_id", "event_type", "schema_version", "timestamp"]

def lowerOrDigit (c : Char) : Bool := c.isLower || c.isDigit || c = '-'

/-- `_SKILL_ID_RE.match`: the `$` of the pattern also matches before a final newline. -/
def matchesSkillId (s : String) : Bool :=
  let cs := s.toList
  match if cs.getLast? = some '\n' then cs.dropLast else cs with
  | 'd' :: 's' :: '-' :: c :: rest => c.isLower && rest.all lowerOrDigit
  | _ => false

def getAttribute (v : Json) (key : String) : Except Raised Json :=
  match v with
  | .obj fields => .ok (Json.lookup fields key)
  | v => .error (.other ("'" ++ v.pyType ++ "' object has no attribute 'get'"))

/-- The chain of `or` that finds the skill id of a `skill.invoked` event. -/
def skillId (envelope : Fields) : Except Raised Json := do
  let trace := (Json.lookup envelope "trace").or (.obj [])
  let own := Json.lookup envelope "skill_id"
  if own.truthy then return own
  let traced ← getAttribute trace "skill_id"
  if traced.truthy then return traced
  let specifier ← getAttribute trace "skill_specifier"
  return specifier.or (.str "")

/-- The checks before the writes: nothing, the reason the file is moved to failed/, or a raise. -/
def check (data : Json) : Except Raised (Option String) :=
  match data with
  | .obj envelope =>
    let missing := requiredFields.filter fun key => !Json.hasKey envelope key
    if missing ≠ [] then
      .ok
        (some ("missing_fields: [" ++ ", ".intercalate (missing.map fun key => "'" ++ key ++ "'") ++
        "]"))
    else
      match Json.lookup envelope "event_type" with
      | .str "skill.invoked" => do
        match ← skillId envelope with
        | .str s => return if matchesSkillId s then none else some "malformed_skill_id"
        | v => throw (.other ("expected string or bytes-like object, got '" ++ v.pyType ++ "'"))
      | _ => .ok none
  | v => .error (.other ("'" ++ v.pyType ++ "' object has no attribute 'keys'"))

end DreamStudio.Spool
