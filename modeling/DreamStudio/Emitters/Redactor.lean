import DreamStudio.Library.Json

namespace DreamStudio.Emitters

open Library

abbrev Fields := List (String × Json)

/-- What the redactor uses of Python: `str.lower`, `repr`, `json.dumps`, and `urlparse` with the
network location and the path it gives, or the exception it raises. -/
structure Python where
  lower : String → String
  repr : Json → String
  dumps : Json → String
  urlparse : String → Option (String × String)

section Redactor

variable (py : Python)

/-- `output.count("\n")`. -/
def newlines (s : String) : Nat := s.toList.count '\n'

/-- `redact_tool_output`. -/
def redactToolOutput (output : Json) (isError : Bool) : Fields :=
  if isError then
    [("success", .bool false),
      ("error_class", .str (if output.pyType = "str" then "Error" else output.pyType)),
      ("raw_output_retained", .bool false)]
  else
    match output with
    | .str s =>
      [("success", .bool true), ("byte_count", .int s.utf8ByteSize),
        ("line_count", .int (newlines s + if s = "" then 0 else 1)),
          ("raw_output_retained", .bool false)]
    | .obj _ | .arr _ =>
      [("success", .bool true), ("byte_count", .int (py.dumps output).utf8ByteSize),
        ("raw_output_retained", .bool false)]
    | _ => [("success", .bool true), ("raw_output_retained", .bool false)]

/-- `command.split()`. -/
def words (command : String) : List String :=
  ((command.toList.splitOnP pySpace).filter (· ≠ [])).map String.ofList

/-- `redact_bash_command`. -/
def redactBashCommand (command : String) : Fields :=
  let parts := words command
  [("binary", .str (parts.head?.getD "")), ("arg_count", .int (parts.length - 1)),
    ("args_retained", .bool false)]

/-- `path.split("/")[0]`. -/
def firstSegment (path : String) : String := String.ofList (path.toList.takeWhile (· ≠ '/'))

/-- `redact_url`. -/
def redactUrl (url : String) : Fields :=
  match py.urlparse url with
  | some (netloc, path) =>
    let domain := if netloc ≠ "" then netloc else if path ≠ "" then firstSegment path else "unknown"
    [("domain", .str domain), ("path_retained", .bool false)]
  | none => [("domain", .str "unknown"), ("path_retained", .bool false)]

/-- `str(tool_input.get("command", ""))`. -/
def commandOf (input : Fields) : String := (Json.lookupD input "command" (.str "")).pyStr py.repr

/-- `str(tool_input.get("url") or tool_input.get("query", ""))`. -/
def addressOf (input : Fields) : String :=
  ((Json.lookup input "url").or (Json.lookupD input "query" (.str ""))).pyStr py.repr

/-- `str(tool_input.get("file_path") or tool_input.get("path", ""))`. -/
def pathOf (input : Fields) : String :=
  ((Json.lookup input "file_path").or (Json.lookupD input "path" (.str ""))).pyStr py.repr

/-- What `_redact_tool_input` sorts tools into. -/
inductive ToolKind
  | file
  | bash
  | web
  | other
  deriving DecidableEq

def toolKind (name : String) : ToolKind :=
  let toolLower := py.lower name
  if toolLower ∈ ["read", "edit", "write"] then .file
  else if toolLower = "bash" then .bash
  else if toolLower ∈ ["webfetch", "websearch"] then .web
  else .other

/-- `_redact_tool_input`. A name that is no text has no `lower`. -/
def redactToolInput (name input : Json) : Option Fields :=
  match input, name with
  | .obj fields, .str name =>
    match toolKind py name with
    | .file => some [("file_path", .str (pathOf py fields)), ("contents_retained", .bool false)]
    | .bash => some (redactBashCommand (commandOf py fields))
    | .web => some (redactUrl py (addressOf py fields))
    | .other => some [("arg_count", .int fields.length), ("args_retained", .bool false)]
  | .obj _, _ => none
  | _, _ => some [("arg_count", .int 1), ("args_retained", .bool false)]

def toolName (payload : Fields) : Json :=
  Json.lookupD payload "tool_name" (Json.lookupD payload "tool" (.str ""))

def toolInput (payload : Fields) : Json :=
  Json.lookupD payload "tool_input" (Json.lookupD payload "input" (.obj []))

def toolResponse (payload : Fields) : Json :=
  Json.lookupD payload "tool_response" (Json.lookup payload "output")

def isError (payload : Fields) : Bool := (Json.lookupD payload "is_error" (.bool false)).truthy

/-- The input and output summaries of `normalize_post_tool_use`. -/
def summaries (payload : Fields) : Option (Fields × Fields) :=
  (redactToolInput py (toolName payload) (toolInput payload)).map fun input =>
    (input, redactToolOutput py (toolResponse payload) (isError payload))

end Redactor

end DreamStudio.Emitters
