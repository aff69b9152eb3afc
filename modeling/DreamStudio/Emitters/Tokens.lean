import DreamStudio.Emitters.Redactor
import DreamStudio.Spool.Envelope
import Mathlib.Algebra.BigOperators.Group.List.Basic
import Mathlib.Algebra.Group.Pi.Basic
import Mathlib.Algebra.Ring.Int.Defs

namespace DreamStudio.Emitters

open Library Spool

inductive Counter
  | input
  | output
  | cacheCreation
  | cacheRead
  deriving DecidableEq

namespace Counter

def all : List Counter := [.input, .output, .cacheCreation, .cacheRead]

def key : Counter → String
  | .input => "input_tokens"
  | .output => "output_tokens"
  | .cacheCreation => "cache_creation_input_tokens"
  | .cacheRead => "cache_read_input_tokens"

@[simp] theorem mem_all (c : Counter) : c ∈ all := by cases c <;> decide

def gather {ε : Type} (read : Counter → Except ε Int) : Except ε (Counter → Int) := do
  let inp ← read .input
  let out ← read .output
  let cacheWrite ← read .cacheCreation
  let cacheRead ← read .cacheRead
  return fun
    | .input => inp
    | .output => out
    | .cacheCreation => cacheWrite
    | .cacheRead => cacheRead

theorem gather_ok {ε : Type} (counts : Counter → Int) :
    gather (fun c => (.ok (counts c) : Except ε Int)) = .ok counts := by
  apply congrArg Except.ok
  funext c
  cases c <;> rfl

end Counter

abbrev Usage := Counter → Int

def Usage.zero (usage : Usage) : Bool := Counter.all.all fun c => usage c = 0

theorem Usage.zero_iff (usage : Usage) : usage.zero = true ↔ usage = 0 := by
  rw [Usage.zero, List.all_eq_true, funext_iff]
  apply forall_congr'
  intro c
  simp

inductive PyError
  | valueError
  | typeError
  | overflowError
  | other (message : String)
  deriving DecidableEq

/-- What `int` makes of a text and of a float, and how `str` spells lists, objects and floats. -/
structure Interpreter where
  intOfText : String → Option Int
  intOfFloat : PyFloat → Except PyError Int
  repr : Json → String

/-- A line of a transcript, and what `json.loads` makes of it. -/
structure Line where
  text : String
  loaded : Loaded

/-- What `_iter_usage_entries` yields. -/
structure UsageEntry where
  uid : String
  usage : Fields
  model : String
  isSidechain : Bool

/-- An event is named after its transcript entry, or by a fresh `uuid4`. -/
inductive EventId
  | turn (uid : String)
  | drawn (n : Nat)
  deriving DecidableEq

structure Stamp where
  projectId : Text
  workOrderId : Text
  taskId : Text
  attributionStatus : String
  deriving DecidableEq

/-- A `token.consumed` event. -/
structure TokenEvent where
  eventId : EventId
  usage : Usage
  model : Json
  granularity : String
  stamp : Stamp
  isSidechain : Option Bool
  agentId : Text

/-- `value if isinstance(value, dict) else default`. -/
def dictOr : Json → Fields → Fields
  | .obj fields, _ => fields
  | _, default => default

namespace Interpreter

variable (py : Interpreter)

/-- `int(value)`. -/
def int : Json → Except PyError Int
  | .int n => .ok n
  | .bool b => .ok (if b then 1 else 0)
  | .str s =>
    match py.intOfText s with
    | some n => .ok n
    | none => .error .valueError
  | .float x => py.intOfFloat x
  | .null | .arr _ | .obj _ => .error .typeError

/-- `_int` of the Stop emitter: an infinite float is not among the errors it catches. -/
def count (usage : Fields) (c : Counter) : Except PyError Int :=
  match py.int ((Json.lookup usage c.key).or (.int 0)) with
  | .error .typeError | .error .valueError => .ok 0
  | read => read

/-- One round of `_iter_usage_entries`. -/
def usageEntry (line : Line) : Except PyError (Option UsageEntry) :=
  match line.loaded with
  | .raises message => .error (.other message)
  | .value (.obj entry) =>
    let msg := dictOr (Json.lookup entry "message") []
    let usage := dictOr (Json.lookup entry "usage") (dictOr (Json.lookup msg "usage") [])
    let uid := (Json.lookup entry "uuid").or (Json.lookup msg "id")
    let model := ((Json.lookup entry "model").or (Json.lookup msg "model")).or (.str "")
    if usage.isEmpty || !uid.truthy then .ok none
    else
      .ok (some {
        uid := uid.pyStr py.repr
        usage := usage
        model := model.pyStr py.repr
        isSidechain := (Json.lookup entry "isSidechain").truthy })
  | .value _ | .malformed _ => .ok none

def turnEvent (stamp : Stamp) (entry : UsageEntry) : Except PyError (Option TokenEvent) := do
  let usage ← Counter.gather (py.count entry.usage)
  if Usage.zero usage then return none
  return some {
    eventId := .turn entry.uid
    usage := usage
    model := .str entry.model
    granularity := "assistant_turn"
    stamp := stamp
    isSidechain := some entry.isSidechain
    agentId := none }

/-- One round of the loop of `normalize_stop_token_usage`. -/
def lineEvent (stamp : Stamp) (line : Line) : Except PyError (Option TokenEvent) := do
  match ← py.usageEntry line with
  | some entry => py.turnEvent stamp entry
  | none => return none

/-- `normalize_stop_token_usage`. There is no transcript without a path to a file that can be
read. -/
def normalizeStopTokenUsage (stamp : Stamp) (transcript : Option (List Line)) :
    Except PyError (List TokenEvent) :=
  match transcript with
  | some lines => List.reduceOption <$> lines.mapM (py.lineEvent stamp)
  | none => .ok []

/-- `any(int(usage.get(k) or 0) > 0 for k in …)`. -/
def hasNonzeroTokens (usage : Fields) : List Counter → Except PyError Bool
  | [] => .ok false
  | c :: cs => do
    let n ← py.int ((Json.lookup usage c.key).or (.int 0))
    if 0 < n then return true else hasNonzeroTokens usage cs

def hasNegativeTokens (usage : Fields) : List Counter → Except PyError Bool
  | [] => .ok false
  | c :: cs =>
    match Json.lookup usage c.key with
    | .null => hasNegativeTokens usage cs
    | val => do
      if (← py.int val) < 0 then return true else hasNegativeTokens usage cs

def tokenPayload (usage : Fields) : Except PyError Usage :=
  Counter.gather fun c => py.int ((Json.lookup usage c.key).or (.int 0))

end Interpreter

/-- `_extract_usage`. -/
def extractUsage (payload : Fields) : Option Fields :=
  match Json.lookup payload "usage" with
  | .obj usage => some usage
  | _ =>
    match Json.lookup (dictOr (Json.lookup payload "tool_response") []) "usage" with
    | .obj usage => some usage
    | _ => none

/-- `MODEL_UNRESOLVED`. -/
def modelUnresolved : String := "unknown"

/-- `_PLACEHOLDER_MODELS`. -/
def placeholderModels : List String :=
  ["<synthetic>", "synthetic", "unspecified", modelUnresolved, ""]

/-- `model and model not in _PLACEHOLDER_MODELS`: a list or an object has no hash. -/
def isRealModel (model : Json) : Except PyError Bool :=
  if model.truthy then
    match model with
    | .str s => .ok (s ∉ placeholderModels)
    | .arr _ | .obj _ => .error .typeError
    | _ => .ok true
  else .ok false

/-- One round of the scan of `_model_from_transcript`; an exception there ends the scan. -/
def lineModel (line : Line) : Except PyError (Option Json) :=
  if contains line.text "\"model\"" then
    match line.loaded with
    | .malformed _ => .ok none
    | .raises message => .error (.other message)
    | .value (.obj rec) =>
      match Json.lookup rec "type" with
      | .str "assistant" =>
        match (Json.lookup rec "message").or (.obj []) with
        | .obj message => do
          let model := Json.lookup message "model"
          if ← isRealModel model then return some model else return none
        | _ => .error (.other "object has no attribute 'get'")
      | _ => .ok none
    | .value _ => .error (.other "object has no attribute 'get'")
  else .ok none

def scanModel : List Line → Except PyError (Option Json)
  | [] => .ok none
  | line :: lines => do
    match ← lineModel line with
    | some model => return some model
    | none => scanModel lines

/-- `_model_from_transcript`. -/
def modelFromTranscript (lines : List Line) : Option Json :=
  match scanModel lines.reverse with
  | .ok model => model
  | .error _ => none

/-- `_resolve_model(payload) or MODEL_UNRESOLVED`. -/
def resolveModel (payload : Fields) (transcript : Option (List Line)) : Except PyError Json := do
  let model := Json.lookup payload "model"
  if ← isRealModel model then return model
  else return (transcript.bind modelFromTranscript).getD (.str modelUnresolved)

def subagent (repr : Json → String) (payload : Fields) : Text :=
  match Json.lookupD payload "tool_name" (Json.lookupD payload "tool" (.str "")),
      Json.lookupD payload "tool_input" (Json.lookupD payload "input" (.obj [])) with
  | .str "Task", .obj toolInput =>
    let agent := (Json.lookup toolInput "subagent_type").or (Json.lookup toolInput "subagentType")
    if agent.truthy then some (pyStrip (agent.pyStr repr)) else none
  | _, _ => none

/-- The body of `handle_post_tool_use`: what it writes to the spool, `n` being the id it draws. -/
def Interpreter.postToolUse (py : Interpreter) (stamp : Stamp) (n : Nat) (payload : Fields)
    (transcript : Option (List Line)) : Except PyError (Option TokenEvent) :=
  match extractUsage payload with
  | none => .ok none
  | some usage => do
    if !(← py.hasNonzeroTokens usage Counter.all) then return none
    if ← py.hasNegativeTokens usage Counter.all then return none
    let counts ← py.tokenPayload usage
    let model ← resolveModel payload transcript
    return some {
      eventId := .drawn n
      usage := counts
      model := model
      granularity := "tool_invocation"
      stamp := stamp
      isSidechain := none
      agentId := subagent py.repr payload }

/-- `handle_post_tool_use`, which never raises. -/
def Interpreter.handlePostToolUse (py : Interpreter) (stamp : Stamp) (n : Nat) (payload : Fields)
    (transcript : Option (List Line)) : Option TokenEvent :=
  match py.postToolUse stamp n payload transcript with
  | .ok event => event
  | .error _ => none

end DreamStudio.Emitters
