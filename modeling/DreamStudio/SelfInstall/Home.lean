import DreamStudio.Library.Machine
import Mathlib.Logic.Function.Basic

namespace DreamStudio.SelfInstall

open Library

/-- A commit of the source: its version and its hash, as `installed-version` and `app.json` give
them. -/
structure Commit where
  version : String
  sha : String
  deriving DecidableEq

/-- `app_id`. -/
def Commit.appId (c : Commit) : String := c.version ++ "-" ++ String.ofList (c.sha.toList.take 10)

/-- The directory of an app: its `app.json`, and whether its venv has an interpreter. -/
structure App where
  record : Option Commit := none
  python : Bool := false

inductive Marker (α : Type)
  | absent
  | empty
  | text (a : α)
  deriving DecidableEq

structure Home where
  path : String
  apps : String → Option App := fun _ => none
  current : Option String := none
  staged : Option String := none
  previous : Marker String := .absent
  installed : Marker Commit := .absent
  launcher : Bool := false

namespace Home

/-- `app_record`: the record of a complete app. -/
def appRecord (h : Home) (id : String) : Option Commit :=
  (h.apps id).bind fun app => if app.python then app.record else none

def setApp (h : Home) (id : String) (app : Option App) : Home :=
  { h with apps := Function.update h.apps id app }

end Home

/-- The operations of `switch_current`. On Windows the old link is removed and the new one renamed,
and the old one is put back if that fails: either way a failed swap leaves the old link. -/
inductive SwitchFault
  | removeStaged
  | makeLink
  | swap
  deriving DecidableEq

/-- The operations of `_activate`. A write either cannot open its file or leaves it empty. -/
inductive ActivateFault
  | previous (truncates : Bool)
  | switch (fault : SwitchFault)
  | stateDir
  | installedVersion (truncates : Bool)
  | launcher
  deriving DecidableEq

/-- The operations of `_build_app`. A removal that fails leaves some of the directory; what fails
inside the `try` is cleaned up. -/
inductive BuildFault
  | appRoot
  | removal (record python : Bool)
  | buildDir
  | inside
  | cleanup
  deriving DecidableEq

namespace Home

/-- `switch_current`, and whether it goes through. -/
def switchCurrent (fault : Option SwitchFault) (id : String) (h : Home) : Home × Bool :=
  if fault = some .removeStaged ∧ h.staged.isSome then (h, false)
  else if fault = some .makeLink then ({ h with staged := none }, false)
  else if fault = some .swap then ({ h with staged := some id }, false)
  else ({ h with current := some id, staged := none }, true)

/-- `if current and current != app_dir.name: … write_text(current)`. -/
def recordPrevious (fault : Option ActivateFault) (id : String) (h : Home) : Home × Bool :=
  match h.current with
  | none => (h, true)
  | some live =>
    if live = id then (h, true)
    else
      match fault with
      | some (.previous true) => ({ h with previous := .empty }, false)
      | some (.previous false) => (h, false)
      | _ => ({ h with previous := .text live }, true)

def announce (fault : Option ActivateFault) (c : Commit) (h : Home) : Home × Bool :=
  match fault with
  | some .stateDir => (h, false)
  | some (.installedVersion true) => ({ h with installed := .empty }, false)
  | some (.installedVersion false) => (h, false)
  | some .launcher => ({ h with installed := .text c }, false)
  | _ => ({ h with installed := .text c, launcher := true }, true)

end Home

def ActivateFault.inSwitch : ActivateFault → Option SwitchFault
  | switch fault => some fault
  | _ => none

namespace Home

def andThen (first second : Home → Home × Bool) (h : Home) : Home × Bool :=
  match first h with
  | (h, true) => second h
  | (h, false) => (h, false)

/-- `_activate`. -/
def activate (fault : Option ActivateFault) (id : String) (c : Commit) : Home → Home × Bool :=
  andThen (recordPrevious fault id)
    (andThen (switchCurrent (fault.bind (·.inSwitch)) id) (announce fault c))

/-- `_live_app_refusal`. -/
def liveAppRefusal (h : Home) (id : String) : Option String :=
  if (h.apps id).isSome ∧ h.current = some id then
    some (h.path ++ "/app/" ++ id ++
      " is the live app (app/current points at it) but has no app.json; refusing " ++
      "to remove and rebuild it under running hooks. Move `current` off it first: install another commit " ++
      "(`ds --home " ++ h.path ++ " self-install --repo <checkout> --ref <ref> --execute`)" ++
      (match h.previous with
      | .text previous =>
        " or roll back to " ++ previous ++ " (`ds --home " ++ h.path ++
          " self-install --rollback --execute`)"
      | _ => "") ++ "; then this commit can be installed again.")
  else none

def remains (app : App) (record python : Bool) : App :=
  ⟨if record then app.record else none, app.python && python⟩

/-- `_build_app`, of a commit that has no complete app. -/
def buildApp (fault : Option BuildFault) (c : Commit) (h : Home) : Home × Bool :=
  if fault = some .appRoot ∨ (h.liveAppRefusal c.appId).isSome then (h, false)
  else
    match fault, h.apps c.appId with
    | some (.removal record python),
      some app => (h.setApp c.appId (some (remains app record python)), false)
    | some .buildDir, _ => (h.setApp c.appId none, false)
    | some .inside, _ => (h.setApp c.appId none, false)
    | some .cleanup, _ => (h.setApp c.appId (some ⟨some c, true⟩), false)
    | _, _ => (h.setApp c.appId (some ⟨some c, true⟩), true)

end Home

/-- A run of `self_install`: what the checks of the authority refuse, whether the smoke test, the
backup and the migration go through, and the operation that fails. -/
structure Install where
  commit : Commit
  refusal : Option String := none
  build : Option BuildFault := none
  prepared : Bool := true
  activation : Option ActivateFault := none

/-- A run of `rollback`. -/
structure Rollback where
  refusal : Option String := none
  prepared : Bool := true
  activation : Option ActivateFault := none

inductive Reply
  | refused (error : String)
  | failed
  | raised
  | switched

def Reply.ofActivation : Home × Bool → Home × Reply
  | (h, true) => (h, switched)
  | (h, false) => (h, raised)

/-- `APP_ID.fullmatch`. -/
def isAppId (id : String) : Bool :=
  let cs := id.toList
  let name := cs.take (cs.length - 11)
  let tail := cs.drop (cs.length - 11)
  name.head?.any (·.isAlphanum) && name.all (fun c => c.isAlphanum || c ∈ ['.', '+', '_']) &&
    tail.length = 11 && tail.head? = some '-' && tail.tail.all fun c => c.isDigit ||
      ('a' ≤ c && c ≤ 'f')

namespace Home

/-- `self_install`. -/
def selfInstall (i : Install) (h : Home) : Home × Reply :=
  match i.refusal with
  | some error => (h, .refused error)
  | none =>
    let id := i.commit.appId
    let reuse := (h.appRecord id).isSome
    match if reuse then none else h.liveAppRefusal id with
    | some error => (h, .refused error)
    | none =>
      match if reuse then (h, true) else h.buildApp i.build i.commit with
      | (h, false) => (h, .failed)
      | (h, true) =>
        if i.prepared then Reply.ofActivation
          (h.activate i.activation id i.commit) else (h, .failed)

/-- `rollback`. -/
def rollback (r : Rollback) (h : Home) : Home × Reply :=
  match h.previous with
  | .text id =>
    if !isAppId id then
      (h, .refused (h.path ++ "/app/previous does not hold a bare app id: '" ++ id ++ "'"))
    else
      match h.appRecord id with
      | none => (h, .refused (h.path ++ "/app/" ++ id ++ " is missing or incomplete"))
      | some c =>
        match r.refusal with
        | some error => (h, .refused error)
        | none => if r.prepared then Reply.ofActivation
          (h.activate r.activation id c) else (h, .raised)
  | _ =>
    (h, .refused ("no previous app recorded in " ++ h.path ++
      "/app/previous: this home has had one installed " ++
      "app, so there is nothing to roll back to. To run another version, install it from a checkout: `ds " ++
      "--home " ++ h.path ++ " self-install --repo <checkout> --ref <ref> --execute`."))

end Home

inductive Run
  | install (i : Install)
  | rollback (r : Rollback)

def Home.after (h : Home) : Run → Home
  | .install i => (h.selfInstall i).1
  | .rollback r => (h.rollback r).1

def machine : Machine Home Run where
  step h run := some (h.after run)

end DreamStudio.SelfInstall
