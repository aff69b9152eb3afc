import DreamStudio.Hooks.Native
import DreamStudio.Hooks.Session
import DreamStudio.Hooks.Tier
import DreamStudio.Hooks.WriteTargets
import DreamStudio.Library.Stopping

namespace DreamStudio.Hooks

open Library WorkOrders

/-- `tool_input`, as far as the gate reads it. -/
structure ToolInput where
  filePath : Option String := none
  notebookPath : Option String := none
  path : Option String := none
  command : Option String := none

structure ToolCall where
  toolName : Option String := none
  toolInput : ToolInput := {}
  sessionId : Option String := none

inductive PathKind
  | source
  | doc
  | docstoreOnly
  | exempt
  deriving DecidableEq

inductive Decision
  | allow
  | deny
  | observe
  | noop
  | error
  deriving DecidableEq

def Decision.name : Decision → String
  | .allow => "allow"
  | .deny => "deny"
  | .observe => "observe"
  | .noop => "noop"
  | .error => "error"

/-- What a run leaves behind: records in the queue, the denial on stdout, a reason on stderr. -/
inductive Mark
  | bypass (hookName rule detail : String) (session : Option String)
  | observation (rule reason tier : String) (session : Option String)
  | denial (reason : String)
  | warning (reason : String)
  | execution (decision status : String) (session : Option String)
  deriving DecidableEq

structure Moment where
  opened : Instant
  now : Instant
  peek : Disk := {}
  disk : Disk := {}

structure GateRun where
  decision : Decision := .noop
  marks : List Mark := []
  file : SessionFile
  deriving DecidableEq

/-- Where the hooks run, how they name their database, and what each language has of its own: how
`resolve_weak` resolves a path, and what `extract_write_targets` finds in a command. -/
structure GateEnv extends HookEnv where
  authorityDb : String
  resolveWeak : String → Option ResolvedPath
  resolveWeak_empty : resolveWeak "" = none
  targets : String → List String × Bool
  targets_ascii : ∀ c : Command, targets c.text = Enforcement.extractWriteTargets c
  nativeTargets : String → List String × Bool
  nativeTargets_ascii : ∀ c : Command, nativeTargets c.text = Native.extractWriteTargets c

def GateEnv.native (env : GateEnv) : HookEnv := { env.toHookEnv with resolve := env.resolveWeak }

/-- `_OBSERVE_ONLY`. -/
def observeOnly : List String := ["authority_source_edit"]

/-- `_EXEMPT_SEGMENTS`. -/
def exemptSegments : List String := [".git", ".claude", ".venv", "__pycache__", "node_modules"]

/-- `f"{value}"`. -/
def formatted (value : Text) : String := value.getD "None"

def zeroDiskReason : String :=
  "[dream-studio] Zero-disk .planning: working notes, specs, plans, and" ++
    " reports are authored in the files.db docstore, never on disk. Use:\n" ++
    "  ds files write \"<name>\" --category planning" ++ " [--work-order <id>]\n" ++
    "  (read: ds files read <name>  ·  list: ds files list --category planning)\n" ++
    "Operator escape hatch: set DS_ENFORCE=0 (or run at a lower DS_ENFORCE_TIER)."

def unownedReason (project : RegisteredProject) (next : Option NextWorkOrder) : String :=
  "\n".intercalate <|
    ["[dream-studio] Authority enforcement: no work order is in_progress for project '" ++
      project.name ++ "'. Product-source edits require an active work order in the SQLite" ++
      " authority."] ++
    next.toList.map (fun n => "Run: ds work-order start " ++ formatted n.workOrderId ++
      "  (next: " ++ formatted n.title ++ ")") ++
    ["Or list work orders: ds work-order list " ++ formatted project.projectId,
      "Operator escape hatch: set DS_ENFORCE=0 (or run at a lower DS_ENFORCE_TIER)."]

/-- `_apply`, and `apply`. -/
def applyTier (tier : Tier) (rule reason : String) (session : Option String) :
    List Mark × Decision :=
  let tier := if rule ∈ observeOnly ∧ tier = .enforce then .observe else tier
  if tier = .enforce then ([.denial reason], .deny)
  else
    (.observation rule reason tier.name session :: if tier = .warn then [.warning reason] else [],
      .observe)

def GateRun.refuse (w : GateRun) (tier : Tier) (rule reason : String) (session : Option String) :
    GateRun :=
  let applied := applyTier tier rule reason session
  { w with decision := applied.2, marks := w.marks ++ applied.1 }

inductive WriteTargets
  | paths (candidates : List String)
  | inspected (command : String) (hasWrite : Bool)
  | nothing

def WriteTargets.list : WriteTargets → List String
  | .paths candidates => candidates
  | _ => []

/-- The candidates of `_enforce` and of `extract_candidates`. -/
def ToolCall.candidates (call : ToolCall) (extract : String → List String × Bool) :
    WriteTargets :=
  let input := call.toolInput
  match (given input.filePath).or ((given input.notebookPath).or (given input.path)) with
  | some filePath => .paths [filePath]
  | none =>
    match given input.command with
    | none => if call.toolName = some "Bash" then .inspected "" false else .nothing
    | some command =>
      match extract command with
      | ([], hasWrite) => .inspected command hasWrite
      | (targets, _) => .paths targets

/-- `active_skill_posture`. -/
def activeSkillPosture (session : Option String) (disk : Disk) (f : SessionFile) :
    Option Posture :=
  session.bind fun _ => (loadSession disk f).bind (·.activeSkillPosture)

def boundaryAdvisory (workOrderId title cand : String) (session : Option String) : Mark :=
  .observation "module_boundary_advisory"
    ("edit outside the module boundary of WO " ++ pyTake 8 workOrderId ++ " (" ++
      pyTake 60 title ++ "): " ++ cand) "observe" session

/-- The `write_posture` advisory. -/
def postureAdvisory (cand : String) (session : Option String) (m : Moment) (f : SessionFile) :
    List Mark :=
  match activeSkillPosture session m.peek f with
  | none => []
  | some active =>
    if active.posture = "read-only" then
      [.observation "write_posture_advisory"
        ("mode " ++ active.mode ++
          " declares write_posture read-only, and a source write reached " ++
          cand) "observe" session]
    else []

def Attribution.name : Attribution → String
  | .moduleBoundary => "module_boundary"
  | .mostRecentlyStarted => "most_recently_started"

/-- The call of `record_edit`. -/
def editArgs (cand : String) (kind : PathKind) (project : RegisteredProject)
    (wo : Option ActiveWorkOrder) : EditArgs where
  filePath := cand
  kind := if kind = .source then .source else .doc
  projectId := formatted project.projectId
  workOrderId := wo.bind (·.workOrderId)
  claimants := wo.map fun w => w.claimants.map formatted
  attribution := wo.map (·.attribution.name)

/-- A candidate in a registered project, where the gate has a say. -/
structure Site where
  file : ResolvedPath
  root : ResolvedPath
  project : RegisteredProject
  kind : PathKind
  deriving DecidableEq

/-- `str(_resolve(path))`. -/
def HookEnv.resolveText (env : HookEnv) (path : String) : Option String :=
  (env.resolve path).map ResolvedPath.text

def disabledMark : Mark :=
  .bypass "on_edit_enforce" "enforcement_disabled"
    "DS_ENFORCE=0 / DS_ENFORCE_TIER=off — edit enforcement short-circuited" none

/-- Where a candidate is: in no project the gate watches, with no authority to ask, where asking it
raises, or at a site. -/
inductive Location
  | nowhere
  | unavailable
  | raised
  | inside (t : HookAuthority) (s : Site)

/-- The two hooks take one course. They differ in how they find a candidate, its work order and the
next one, whether they see it stray from a boundary, and how they record an edit. -/
structure Gate where
  extractWriteTargets : String → List String × Bool
  locate : String → Location
  unavailableMarks : List Mark
  workOrderAt : HookAuthority → Site → Option ActiveWorkOrder
  nextAt : HookAuthority → Site → Option NextWorkOrder
  strays : Site → ActiveWorkOrder → Option (String × String)
  recordEdit : String → EditArgs → Moment → SessionFile → SessionFile
  status : Decision → String

namespace Gate

variable (g : Gate)

def advisories (cand : String) (s : Site) (wo : Option ActiveWorkOrder) (session : Option String)
    (m : Moment) (f : SessionFile) : List Mark :=
  if s.kind = .source then
    ((wo.bind (g.strays s)).map fun stray => boundaryAdvisory stray.1 stray.2 cand
      session).toList ++
      postureAdvisory cand session m f
  else []

def consider (tier : Tier) (session : Option String) (w : GateRun) (c : String × Moment) :
    Except GateRun GateRun :=
  match g.locate c.1 with
  | .nowhere => .ok w
  | .unavailable => .ok { w with marks := w.marks ++ g.unavailableMarks }
  | .raised => .error { w with decision := .error }
  | .inside t s =>
    if s.kind = .docstoreOnly then
      .error (w.refuse tier "zero_disk_planning" zeroDiskReason session)
    else
      let wo := g.workOrderAt t s
      if wo = none ∧ s.kind = .source then
        .error (w.refuse tier "authority_source_edit"
          (unownedReason s.project (g.nextAt t s)) session)
      else
        .ok
          { decision := .allow
            marks := w.marks ++ g.advisories c.1 s wo session c.2 w.file
            file := session.elim w.file fun id =>
              g.recordEdit id (editArgs c.1 s.kind s.project wo) c.2 w.file }

/-- The candidates with the moments at which the loop comes to them. -/
def turns (moments : Nat → Moment) (candidates : List String) : List (String × Moment) :=
  candidates.zipIdx.map fun c => (c.1, moments c.2)

/-- `_enforce`, and `enforce`: the run, and the session it is reported for. -/
def enforce (tier : Tier) (call : ToolCall) (moments : Nat → Moment) (f : SessionFile) :
    GateRun × Option String :=
  let session := given call.sessionId
  match call.candidates g.extractWriteTargets with
  | .nothing => ({ file := f }, none)
  | .inspected command hasWrite =>
    ({ marks := if hasWrite then [.bypass "on_edit_enforce" "unparsed_write"
        ("write-shaped command, no resolvable target: " ++ pyTake 300 command) session] else []
       file := f }, session)
  | .paths candidates =>
    (ended ((turns moments candidates).foldlM (g.consider tier session) { file := f }), session)

/-- `main`, once the tier is resolved. -/
def main (tier : Tier) (call : ToolCall) (moments : Nat → Moment) (f : SessionFile) : GateRun :=
  if tier = .off then { marks := [disabledMark], file := f }
  else
    let run := g.enforce tier call moments f
    { run.1 with marks := run.1.marks ++
        [.execution run.1.decision.name (g.status run.1.decision) run.2] }

end Gate

namespace Enforcement

variable (env : GateEnv) (authority : Option HookAuthority)

/-- `classify_path`, on paths that are resolved. -/
def classifyPath (file root : ResolvedPath) : PathKind :=
  match relativeTo env.py.lower file root with
  | none => .exempt
  | some relParts =>
    match relParts with
    | [] => .exempt
    | first :: _ =>
      if relParts.any (· ∈ exemptSegments) then .exempt
      else if first = ".planning" then .docstoreOnly
      else if first = "docs" then .doc
      else .source

/-- `match_registered_project` and `classify_path`, one after the other. -/
def locate (cand : String) : Location :=
  match (env.resolve cand).filter (!env.exempt ·), authority with
  | none, _ => .nowhere
  | some _, none => .unavailable
  | some file, some t =>
    match matchRegisteredProject env.toHookEnv t file with
    | .error _ => .raised
    | .ok none => .nowhere
    | .ok (some project) =>
      match project.projectPath.bind env.resolve with
      | none => .nowhere
      | some root =>
        let kind := classifyPath env file root
        if kind = .exempt then .nowhere else .inside t ⟨file, root, project, kind⟩

/-- A path that is stored as an empty text is none for `in_progress_work_order`. -/
def workOrderAt (t : HookAuthority) (s : Site) : Option ActiveWorkOrder :=
  s.project.projectId.bind fun projectId =>
    inProgressWorkOrder env.toHookEnv t projectId
      (if s.project.projectPath = some "" then none else some (s.file, s.root))

def strays (s : Site) (wo : ActiveWorkOrder) : Option (String × String) :=
  let globs := boundaryGlobs env.py wo.description
  if globs ≠ [] && !pathInBoundary env.toHookEnv s.file s.root globs then
    wo.workOrderId.bind fun workOrderId => wo.title.map fun title => (workOrderId, title)
  else none

/-- `on-edit-enforce.py`. -/
def gate : Gate where
  extractWriteTargets := env.targets
  locate := locate env authority
  unavailableMarks := [.bypass "enforcement_lib" "fail_open_authority_db"
    ("authority DB unavailable at " ++ env.authorityDb ++ " — enforcement fails open") none]
  workOrderAt := workOrderAt env
  nextAt t s := s.project.projectId.bind (nextCreatedWorkOrder t)
  strays := strays env
  recordEdit id e m := recordEdit env.resolveText id e m.opened m.now m.disk
  status d := if d = .error then "failed" else "success"

end Enforcement

namespace Native

variable (env : GateEnv) (authority : Option HookAuthority)

/-- `trim_start_matches("./")`. -/
def trimDotSlash : List Char → List Char
  | '.' :: '/' :: cs => trimDotSlash cs
  | cs => cs

/-- `decision::classify`. -/
def classify (relPath : String) : PathKind :=
  let p := trimDotSlash (slashed relPath.toList)
  if p = [] then .exempt
  else
    let parts := (p.splitOn '/').map String.ofList
    if parts.any (· ∈ exemptSegments) then .exempt
    else if parts.head? = some ".planning" then .docstoreOnly
    else if parts.head? = some "docs" then .doc
    else .source

/-- `relative_posix`. -/
def relativePosix (file root : ResolvedPath) : Option String :=
  (relativeTo env.py.lower file root).map ("/".intercalate ·)

/-- The head of the loop in `enforce`. Without an authority no project matches. -/
def locate (cand : String) : Location :=
  match (env.resolveWeak cand).filter (!env.exempt ·), authority with
  | some file, some t =>
    match matchRegisteredProject env.native t file with
    | none => .nowhere
    | some project =>
      match project.projectPath.bind env.resolveWeak with
      | none => .nowhere
      | some root =>
        let kind := (relativePosix env file root).elim .exempt classify
        if kind = .exempt then .nowhere else .inside t ⟨file, root, project, kind⟩
  | _, _ => .nowhere

def workOrderAt (t : HookAuthority) (s : Site) : Option ActiveWorkOrder :=
  inProgressWorkOrder env.toHookEnv t (s.project.projectId.getD "") (some (s.file, s.root))

def strays (s : Site) (wo : ActiveWorkOrder) : Option (String × String) :=
  let globs := boundaryGlobs wo.description
  let inBoundary := (relativePosix env s.file s.root).elim true (pathInBoundary · globs)
  if globs ≠ [] && !inBoundary then some (wo.workOrderId.getD "", wo.title.getD "") else none

/-- `effective_claimants`: a work order claims an edit though its id is empty. -/
def effectiveClaimants (e : EditArgs) : List String :=
  match e.claimants with
  | some (c :: cs) => c :: cs
  | _ => e.workOrderId.toList

/-- `record_edit` of `session.rs`. A session that is an empty object is taken as it is. -/
def recordEdit (sessionId : String) (e : EditArgs) (m : Moment) (f : SessionFile) : SessionFile :=
  saveSession m.disk (((loadSession m.disk f).getD (freshSession sessionId m.opened)).record
    env.native.resolveText { e with claimants := some (effectiveClaimants e) } m.now) f

/-- `enforce.rs` and `main.rs`. -/
def gate : Gate where
  extractWriteTargets := env.nativeTargets
  locate := locate env authority
  unavailableMarks := []
  workOrderAt := workOrderAt env
  nextAt t s := nextCreatedWorkOrder t (s.project.projectId.getD "")
  strays := strays env
  recordEdit := recordEdit env
  status _ := "success"

end Native

inductive Hook
  | python
  | native

def Hook.gate (env : GateEnv) (authority : Option HookAuthority) : Hook → Gate
  | .python => Enforcement.gate env authority
  | .native => Native.gate env authority

end DreamStudio.Hooks
