import DreamStudio.Library.Dict
import DreamStudio.Library.JsonEq
import DreamStudio.Settings.Ownership

namespace DreamStudio.Settings

open Library

abbrev Fields := Dict String Json

structure TemplateHook where
  fields : Fields
  command : String
  has_command : fields.get "command" = some (.str command)

structure TemplateEntry where
  event : String
  matcher : Option String
  hooks : List TemplateHook

inductive Scope
  | user
  | project
  deriving DecidableEq

/-- `h.get("command", "")`. -/
def commandOf (h : Fields) : Json := Json.lookupD h "command" (.str "")

/-- `for x in value`; `none` where the value is not iterable. -/
def iterate : Json → Option (List Json)
  | .arr xs => some xs
  | .obj fields => some (fields.map fun field => .str field.1)
  | .str s => some (s.toList.map fun c => .str (String.ofList [c]))
  | _ => none

/-- `for h in entry.get("hooks", [])`. -/
def hooksOf (entry : Fields) : Option (List Json) := iterate (Json.lookupD entry "hooks" (.arr []))

def hooksIn : Json → Option (List Json)
  | .obj entry => hooksOf entry
  | _ => none

def asDict : Json → Option Fields
  | .obj h => some h
  | _ => none

/-- `isinstance(h, dict) and …` -/
def ofDict (test : Fields → Option Bool) : Json → Option Bool
  | .obj h => test h
  | _ => some false

section Superseded

variable (host : Host) (keep : List String)

/-- `command and command not in keep_commands and is_ds_hook_command(command, hooks_dir)`. -/
def superseded (h : Fields) : Option Bool :=
  match commandOf h with
  | .str command => some (command ≠ "" && command ∉ keep && host.isDsHookCommand command)
  | command => if command.truthy then none else some false

/-- One turn of the loop over the hooks of an entry; `some none` drops the hook. -/
def purgeHook (h : Json) : Option (Option Json) := do
  if ← ofDict (superseded host keep) h then return none else return some h

def purgeEntry : Json → Option (Option Json)
  | .obj entry => do
    let hooks ← hooksOf entry
    let kept ← hooks.filterMapM (purgeHook host keep)
    if !kept.isEmpty ∨ !(Json.lookup entry "hooks").truthy then return some (.obj (Dict.set entry "hooks" (.arr kept)))
    else return none
  | entry => some (some entry)

def purgeEvent : String × Json → Option (Option (String × Json))
  | (event, .arr entries) => do
    let kept ← entries.filterMapM (purgeEntry host keep)
    if kept.isEmpty then return none else return some (event, .arr kept)
  | item => some (some item)

/-- `purge_superseded_ds_hooks`. -/
def purgeSuperseded (settings : Fields) : Option Fields :=
  match settings.get "hooks" with
  | some (.obj sec) => do
    let kept ← sec.filterMapM (purgeEvent host keep)
    return settings.set "hooks" (.obj kept)
  | _ => some settings

end Superseded

section Merge

/-- `existing_entry.get("matcher") == entry_matcher`. -/
def sameMatcher (entry : Fields) (matcher : Option String) : Bool :=
  match Json.lookup entry "matcher", matcher with
  | .null, none => true
  | .str m, some m' => m = m'
  | _, _ => false

/-- `hh.get("command") == cmd`. -/
def runs (command : String) : Json → Bool
  | .obj h =>
    match Json.lookup h "command" with
    | .str c => c = command
    | _ => false
  | _ => false

/-- The hooks of an entry that `installed` collects; `none` where the comprehension raises. -/
def installedIn (matcher : Option String) (command : String) : Json → Option (List Json)
  | .obj entry => do
    let hooks ← hooksOf entry
    return hooks.filter fun h => sameMatcher entry matcher && runs command h
  | _ => none

/-- `hh.setdefault("timeout", timeout)`. -/
def setDefault (timeout : Json) : Json → Json
  | .obj h => if Json.hasKey h "timeout" then .obj h else .obj (h ++ [("timeout", timeout)])
  | h => h

def fillEntry (matcher : Option String) (command : String) (timeout : Json) : Json → Json
  | .obj entry =>
    match sameMatcher entry matcher, Dict.get entry "hooks" with
    | true, some (.arr hooks) =>
      .obj (Dict.set entry "hooks"
        (.arr (hooks.map fun h => if runs command h then setDefault timeout h else h)))
    | _, _ => .obj entry
  | entry => entry

/-- `_hook_event_has_any_ds_emitter`. -/
def eventHasAnyDsEmitter (entries : List Json) : Option Bool :=
  entries.anyM fun entry => do
    (← hooksIn entry).anyM (ofDict fun h => commandIsDsEmitter (commandOf h))

def newEntry (matcher : Option String) (h : TemplateHook) : Json :=
  .obj (("hooks", .arr [.obj h.fields]) :: (matcher.map fun m => ("matcher", Json.str m)).toList)

def mergeHook (matcher : Option String) (entries : List Json) (h : TemplateHook) :
    Option (List Json) := do
  let installed ← entries.mapM (installedIn matcher h.command)
  if !installed.flatten.isEmpty then
    match h.fields.get "timeout" with
    | some timeout => return entries.map (fillEntry matcher h.command timeout)
    | none => return entries
  else
    if ← commandIsDsEmitter (.str h.command) then let _ ← eventHasAnyDsEmitter entries
    return entries ++ [newEntry matcher h]

/-- `hooks_section.get(event)`, or the empty list it is replaced by. -/
def entriesAt (sec : Fields) (event : String) : List Json :=
  match sec.get event with
  | some (.arr entries) => entries
  | _ => []

def mergeEntry (sec : Fields) (entry : TemplateEntry) : Option Fields :=
  if entry.event = "" ∨ entry.hooks.isEmpty then some sec
  else do
    let entries ← entry.hooks.foldlM (mergeHook entry.matcher) (entriesAt sec entry.event)
    return sec.set entry.event (.arr entries)

/-- The hooks section of a document; `{}` where there is none. -/
def sectionOf (settings : Fields) : Fields :=
  match settings.get "hooks" with
  | some (.obj sec) => sec
  | _ => []

/-- `merge_settings`. -/
def mergeSettings (template : List TemplateEntry) (settings : Fields) : Option Fields := do
  let sec ← template.foldlM mergeEntry (sectionOf settings)
  return settings.set "hooks" (.obj sec)

end Merge

section Legacy

/-- `_event_has_stable_ds_hook`. -/
def eventHasStableDsHook (entries : List Json) : Option Bool :=
  entries.anyM fun entry => do
    (← hooksIn entry).anyM (ofDict fun h => commandIsStable (commandOf h))

def purgeLegacyEntry (entry : Json) : Option (Option Json) := do
  let legacy ← (← hooksIn entry).mapM (ofDict fun h => commandIsLegacyDsHook (commandOf h))
  if legacy.any id then return none else return some entry

def purgeLegacyEvent : String × Json → Option (String × Json)
  | (event, .arr entries) => do
    if ← eventHasStableDsHook entries then return (event, .arr (← entries.filterMapM purgeLegacyEntry))
    else return (event, .arr entries)
  | item => some item

/-- `purge_legacy_hooks`, of a document whose hooks are a dict. -/
def purgeLegacy (settings : Fields) : Option Fields := do
  return settings.set "hooks" (.obj (← (sectionOf settings).mapM purgeLegacyEvent))

end Legacy

section Dedup

/-- `replace("\\\\", "/")`. -/
def doubleSlashes : List Char → List Char
  | '\\' :: '\\' :: cs => '/' :: doubleSlashes cs
  | c :: cs => c :: doubleSlashes cs
  | [] => []

/-- `_norm`. -/
def norm (command : String) : String := slashes (String.ofList (doubleSlashes command.toList))

def asStr : Json → Option String
  | .str s => some s
  | _ => none

/-- `is_ds_hook_command` of a value: no text, no answer. -/
def owns (host : Host) : Json → Option Bool
  | .str command => some (host.isDsHookCommand command)
  | _ => none

def ownedCommands (host : Host) (entry : Fields) : Option (Option (List String)) := do
  let commands := ((← hooksOf entry).filterMap asDict).map commandOf
  let owned ← commands.allM (owns host)
  return if !commands.isEmpty && owned then some (commands.filterMap asStr) else none

/-- The key of an entry: what `json.dumps` writes of its matcher and of its normalized commands. -/
def keyOf (entry : Fields) (commands : List String) : Json :=
  .arr [Json.lookupD entry "matcher" (.str ""), .arr (commands.map fun c => .str (norm c))]

def dedupEntries (host : Host) : List Json → List Json → Option (List Json)
  | _, [] => some []
  | seen, .obj entry :: rest => do
    match ← ownedCommands host entry with
    | none => return .obj entry :: (← dedupEntries host seen rest)
    | some commands =>
      let key := keyOf entry commands
      if key ∈ seen then dedupEntries host seen rest
      else return .obj entry :: (← dedupEntries host (key :: seen) rest)
  | seen, entry :: rest => return entry :: (← dedupEntries host seen rest)

def dedupEvent (host : Host) : String × Json → Option (String × Json)
  | (event, entries) => do return (event, .arr (← dedupEntries host [] (← iterate entries)))

/-- `dedup_hooks_by_normalized_command`. -/
def dedupHooks (host : Host) (settings : Fields) : Option Fields := do
  return settings.set "hooks" (.obj (← (sectionOf settings).mapM (dedupEvent host)))

end Dedup

section Plan

/-- `entry.get("matcher") != "Read"`. -/
def keepsMatcher : Json → Option (Option Json)
  | .obj entry => some (if sameMatcher entry (some "Read") then none else some (.obj entry))
  | _ => none

/-- `purge_read_posttooluse_matcher`. -/
def purgeRead (settings : Fields) : Option Fields :=
  match (sectionOf settings).get "PostToolUse" with
  | some (.arr entries) => do
    let kept ← entries.filterMapM keepsMatcher
    return settings.set "hooks" (.obj ((sectionOf settings).set "PostToolUse" (.arr kept)))
  | _ => some settings

/-- `dict.pop(key, None)`. -/
def pop (settings : Fields) (key : String) : Fields := settings.filter (·.1 ≠ key)

/-- The document `plan` writes to settings.json, from what is there and the template with its paths
filled in; `none` where it raises. -/
def plan (host : Host) (scope : Scope) (template : List TemplateEntry) (existing : Fields) :
    Option Fields := do
  let keep := template.flatMap fun entry => entry.hooks.map (·.command)
  let settings ← purgeSuperseded host keep existing
  let settings ← mergeSettings template settings
  let settings ← purgeLegacy settings
  let settings ← dedupHooks host settings
  let settings ← purgeRead settings
  let settings := if scope = .project then pop settings "hooks" else settings
  return pop settings "statusLine"

end Plan

end DreamStudio.Settings
