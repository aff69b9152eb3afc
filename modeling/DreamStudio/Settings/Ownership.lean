import DreamStudio.Library.Json

namespace DreamStudio.Settings

open Library

/-- `DS_HOOK_MODULES`. -/
def dsHookModules : List String :=
  ["emitters.claude_code.run", "runtime.dispatch.hooks", "runtime.hooks.meta.on-edit-enforce",
    "runtime.hooks.meta.on-stop-enforce"]

/-- `DS_HOOK_FILES`, each with its `_DS_ENTRY_SIGNATURES`. -/
def dsHookFiles : List (String × String) :=
  [("run.py", "Spool emitter for Claude Code hooks"),
    ("dispatch/hooks.py", "Tool-agnostic hook event dispatcher"),
    ("runtime/hooks/meta/on-edit-enforce.py", "Hook: on-edit-enforce"),
    ("runtime/hooks/meta/on-stop-enforce.py", "Hook: on-stop-enforce")]

def retiredStubMarker : String := "# dream-studio retired hook stub"

/-- `_TOKEN.findall`, the fuel a bound on what is left of the text. -/
def findTokens : Nat → List Char → List String
  | 0, _ => []
  | _ + 1, [] => []
  | n + 1, c :: cs =>
    if c = '"' ∧ '"' ∈ cs then
      String.ofList (cs.takeWhile (· ≠ '"')) :: findTokens n ((cs.dropWhile (· ≠ '"')).drop 1)
    else if pySpace c then findTokens n cs
    else String.ofList (c :: cs.takeWhile (!pySpace ·)) :: findTokens n (cs.dropWhile (!pySpace ·))

/-- `_tokens`. -/
def tokens (command : String) : List String := findTokens command.toList.length command.toList

/-- `replace("\\", "/")`. -/
def slashes (s : String) : String :=
  String.ofList (s.toList.map fun c => if c = '\\' then '/' else c)

/-- The parts of a path, as `Path` takes them. -/
def parts (path : String) : List String :=
  ((path.toList.splitOn '/').map String.ofList).filter fun part => part ≠ "" ∧ part ≠ "."

def absolute (parts : List String) : String := "/" ++ "/".intercalate parts

def endsWith (s suffix : String) : Bool := suffix.toList.isSuffixOf s.toList

/-- `(\d+(\.\d+)?)?`. -/
def isVersion (digit : Char → Bool) (cs : List Char) : Bool :=
  match cs.splitOn '.' with
  | [major] => major.all digit
  | [major, minor] =>
    !major.isEmpty && major.all digit && !minor.isEmpty && minor.all digit
  | _ => false

def dropSuffix (cs suffix : List Char) : List Char :=
  if suffix.isSuffixOf cs then cs.take (cs.length - suffix.length) else cs

/-- `_PYTHON.match`; `$` matches before a newline at the end as well. Nothing beyond ASCII is a case
of its letters. -/
def isPython (digit : Char → Bool) (name : String) : Bool :=
  let cs := dropSuffix (dropSuffix (pyLower name).toList ['\n']) ".exe".toList
  cs = "py".toList ||
    ("python".toList.isPrefixOf cs &&
      isVersion digit (dropSuffix (cs.drop "python".toList.length) ['w']))

/-- The flags of the interpreter skipped; `none` at `-c`. -/
def afterFlags : List String → Option (List String)
  | [] => some []
  | flag :: rest =>
    if startsWith flag "-" ∧ flag ≠ "-m" then
      if flag = "-c" then none
      else if flag = "-X" then
        match rest with
        | [] => some []
        | _ :: rest => afterFlags rest
      else afterFlags rest
    else some (flag :: rest)

/-- Where an install runs: the parts of its config root, the first characters of the files there
are, and Python's `lower` and `\d`. -/
structure Host where
  configRoot : List String
  head : String → Option String
  lower : String → String := pyLower
  digit : Char → Bool := Char.isDigit

namespace Host

/-- `config_root / "hooks"`. -/
def hooksDir (host : Host) : String := absolute (host.configRoot ++ ["hooks"])

/-- `_carries_ds_signature`. -/
def carriesDsSignature (host : Host) (path signature : String) : Bool :=
  match host.head path with
  | none => false
  | some head => startsWith head retiredStubMarker || contains head signature

/-- `is_ds_hook_command`, with the hooks directory of the host. -/
def isDsHookCommand (host : Host) (command : String) : Bool :=
  match tokens command with
  | [] => false
  | [_] => false
  | python :: rest =>
    if !isPython host.digit ((parts (slashes python)).getLast?.getD "") then false
    else
      match afterFlags rest with
      | none => false
      | some [] => false
      | some (target :: more) =>
        if target = "-m" then more.head?.any (· ∈ dsHookModules)
        else
          let given := slashes target
          let script := if startsWith given "/" then given else absolute
            (host.configRoot.dropLast ++ parts given)
          let root := slashes host.hooksDir ++ "/"
          if startsWith (host.lower script) (host.lower root) then
            dsHookFiles.any (·.1 = String.ofList (script.toList.drop root.toList.length))
          else
            dsHookFiles.any fun (file, signature) =>
              endsWith script ("/hooks/" ++ file) && host.carriesDsSignature script signature

end Host

/-- `part in value`; `none` where the value is not a container. -/
def isIn (part : String) : Json → Option Bool
  | .str s => some (contains s part)
  | .arr xs => some (xs.any fun x => match x with | .str s => s = part | _ => false)
  | .obj fields => some (Json.hasKey fields part)
  | _ => none

/-- `any(m in value for m in markers)`. -/
def anyIn (markers : List String) (value : Json) : Option Bool := markers.anyM (isIn · value)

def dsEmitterMarkers : List String :=
  ["hooks\\run.py", "hooks/run.py", "emitters/claude_code/run.py",
    "/'emitters'/'claude_code'/'run.py'",
    "-m emitters.claude_code.run"]

def dsEnforcementMarkers : List String :=
  ["on-edit-enforce.py", "on-stop-enforce.py", "-m runtime.hooks.meta.on-edit-enforce",
    "-m runtime.hooks.meta.on-stop-enforce"]

def stableEmitterMarkers : List String :=
  ["hooks\\run.py", "hooks/run.py", "-m emitters.claude_code.run"]

def stableDispatcherMarkers : List String :=
  ["hooks\\dispatch\\hooks.py", "hooks/dispatch/hooks.py", "-m runtime.dispatch.hooks"]

def legacyCommandMarkers : List String := ["python -c", "runpy.run_path", "pathlib.Path"]

def legacyDsTargets : List String :=
  ["'emitters'/'claude_code'/'run.py'", "'dispatch'/'hooks.py'", "'runtime'/'dispatch'/'hooks.py'",
    "'meta'/'on-edit-enforce.py'", "'meta'/'on-stop-enforce.py'"]

/-- `_command_is_ds_emitter`. -/
def commandIsDsEmitter (command : Json) : Option Bool := anyIn dsEmitterMarkers command

/-- `_command_is_ds_enforcement`. -/
def commandIsDsEnforcement (command : Json) : Option Bool := anyIn dsEnforcementMarkers command

/-- `_command_is_legacy_ds_hook`. -/
def commandIsLegacyDsHook (command : Json) : Option Bool := do
  if ← legacyCommandMarkers.allM (isIn · command) then anyIn legacyDsTargets command else return false

/-- What `_event_has_stable_ds_hook` asks of a command. -/
def commandIsStable (command : Json) : Option Bool := do
  if ← anyIn (stableEmitterMarkers ++ stableDispatcherMarkers) command then return true
  else if ← commandIsDsEnforcement command then return !(← commandIsLegacyDsHook command)
  else return false

end DreamStudio.Settings
