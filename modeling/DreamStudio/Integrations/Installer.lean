import DreamStudio.Integrations.ClaudeMd
import DreamStudio.Library.Json
import Mathlib.Logic.Function.Basic

namespace DreamStudio.Integrations

open Library

abbrev Path := List String

/-- `ancestor in path.parents`. -/
def isParent (ancestor path : Path) : Bool := ancestor.isPrefixOf path && ancestor ≠ path

def posix (path : Path) : String := "/".intercalate path

/-- `path.suffix` of a last name. -/
def suffix (name : String) : String :=
  let ext := name.toList.reverse.takeWhile (· ≠ '.')
  let stem := (name.toList.reverse.dropWhile (· ≠ '.')).drop 1
  if ext = [] ∨ stem = [] then "" else String.ofList ('.' :: ext.reverse)

/-- The regular files. -/
abbrev Disk := Path → Option String

inductive Operation
  | create
  | mergeJson
  | unchanged
  | keep
  | skip
  | delete
  deriving DecidableEq

structure FileOp where
  target : Path
  op : Operation
  content : String := ""

structure Entry where
  path : Path
  operation : Operation
  deriving DecidableEq

abbrev Manifest := List Entry

/-- `entry.get("operation") in ("skip", "delete")`. -/
def Entry.passed (e : Entry) : Bool := e.operation = .skip ∨ e.operation = .delete

inductive HookMode
  | module
  | files
  deriving DecidableEq

structure SourceFile where
  rel : Path
  text : String

namespace SourceFile

def name (f : SourceFile) : String := f.rel.getLast?.getD ""

end SourceFile

/-- A directory under canonical/skills: its files and those of the support trees it ships, with the
text that is installed. -/
structure SkillDir where
  name : String
  files : List SourceFile

/-- `_skill_id_from_dir_name`. -/
def SkillDir.skillId (d : SkillDir) : String :=
  if startsWith d.name "ds-" then d.name else "ds-" ++ d.name

/-- An agent profile with its pinned model, and the provider its seat is assigned to. -/
structure AgentFile extends SourceFile where
  provider : String

structure HookSources where
  root : Path
  file : Path → Option String
  lib : List SourceFile
  handlers : List (String × SourceFile)
  shim : String → Nat → String

/-- What a run is given: the canonical tree, what the compiler makes of it, the options, and the
stub of a retired entry point. -/
structure Install where
  skillDirs : List SkillDir
  claudeMd : Option String
  agentsMd : Option String
  mergedSettings : Option String → String
  canonicalAgents : List AgentFile
  projectReviewers : List AgentFile
  allowed : Option (List String)
  contract : Option String
  hookMode : HookMode
  hooks : HookSources
  purgeRetiredHooks : Bool
  stub : String → String
  gitHook : Option SourceFile
  version : Option String

structure Site where
  configRoot : Path
  dsHome : Path

namespace Site

variable (site : Site)

def skills : Path := site.configRoot ++ ["skills"]

def hooks : Path := site.configRoot ++ ["hooks"]

def agents : Path := site.configRoot ++ ["agents"]

def claudeMd : Path := site.configRoot ++ ["CLAUDE.md"]

def agentsMd : Path := site.configRoot ++ ["AGENTS.md"]

def settings : Path := site.configRoot ++ ["settings.json"]

def localSettings : Path := site.configRoot ++ ["settings.local.json"]

def contract : Path := site.skills ++ ["ds-workflow", "docs", "contracts", "workflow-contract.md"]

def installedVersion : Path := site.dsHome ++ ["state", "installed-version"]

end Site

def create (target : Path) (content : String) : FileOp := ⟨target, .create, content⟩

/-- `merge_claude_md`: the text to write; none when the file is refused. -/
def mergeClaudeMd (existing : Option String) (generated : String) : Option String :=
  (ClaudeMd.mergeClaudeMd (existing.map String.toList) generated.toList).textToWrite.map
    String.ofList

def excludedSkillDirs : List String :=
  ["__pycache__", ".pytest_cache", ".mypy_cache", ".ruff_cache"]

def excludedSkillSuffixes : List String := [".pyc", ".pyo", ".pyd"]

def excludedSkillNames : List String := ["REVIEWS.md"]

def SourceFile.excluded (f : SourceFile) : Bool :=
  f.rel.any (· ∈ excludedSkillDirs) || suffix f.name ∈ excludedSkillSuffixes ||
    f.name ∈ excludedSkillNames

/-- `_collect_skill_dir_ops`. -/
def collectSkillDirOps (target : Path) (d : SkillDir) : List FileOp :=
  (d.files.filter (!·.excluded)).map fun f => create (target ++ f.rel) f.text

def hookScripts : List (Path × Path) := [
  (["emitters", "claude_code", "run.py"], ["run.py"]),
  (["runtime", "dispatch", "hooks.py"], ["dispatch", "hooks.py"]),
  (["runtime", "dispatch", "__init__.py"], ["dispatch", "__init__.py"]),
  (["control", "execution", "dispatch_tracking.py"],
    ["control", "execution", "dispatch_tracking.py"]),
  (["runtime", "hooks", "meta", "__init__.py"], ["runtime", "hooks", "meta", "__init__.py"]),
  (["runtime", "session_config.py"], ["runtime", "session_config.py"]),
  (["runtime", "__init__.py"], ["runtime", "__init__.py"])]

def handlerPacks : List String := ["meta", "quality", "apps", "core", "security"]

/-- The files `_collect_hook_file_ops` puts under hooks/. -/
def HookSources.projection (h : HookSources) (hooksDir : Path) : List SourceFile :=
  (hookScripts.filterMap fun (src, tgt) => (h.file src).map fun text => ⟨tgt, text⟩) ++
    ((h.lib.filter fun f => "__pycache__" ∉ f.rel).map fun f =>
      ⟨["runtime", "lib"] ++ f.rel, f.text⟩) ++
    [⟨["control", "__init__.py"], h.shim "control" 2⟩,
      ⟨["control", "execution", "__init__.py"], h.shim "control/execution" 3⟩] ++
    ((handlerPacks.flatMap fun pack => h.handlers.filter fun (p, f) => p = pack ∧
      f.name ≠ "__init__.py").map
      fun (pack, f) => ⟨["runtime", "hooks", pack, f.name], f.text⟩) ++
    [⟨[".plugin-root"], "/" ++ posix hooksDir ++ "\n"⟩,
      ⟨[".ds-source-root"], "/" ++ posix h.root ++ "\n"⟩]

/-- `_collect_hook_file_ops`. -/
def collectHookFileOps (h : HookSources) (hooksDir : Path) : List FileOp :=
  (h.projection hooksDir).map fun f => create (hooksDir ++ f.rel) f.text

/-- `DS_HOOK_FILES`. -/
def dsHookFiles : List String :=
  ["run.py", "dispatch/hooks.py", "runtime/hooks/meta/on-edit-enforce.py",
    "runtime/hooks/meta/on-stop-enforce.py"]

namespace Install

variable (i : Install) (site : Site) (disk : Disk)

/-- Step 1: the skill directories. -/
def skillOps : List FileOp :=
  (i.skillDirs.filter fun d => d.files.any (·.rel = ["SKILL.md"])).flatMap fun d =>
    collectSkillDirOps (site.skills ++ [d.skillId]) d

/-- Step 1b: what the manifest records under skills/ and the canonical tree no longer produces. -/
def orphanOps (manifest : Manifest) : List FileOp :=
  (manifest.filter fun e => e.path ≠ [] ∧ !e.passed ∧ e.path ∉ (i.skillOps site).map (·.target) ∧
    isParent site.skills e.path).map fun e => ⟨e.path, .delete, ""⟩

/-- Step 2. -/
def claudeMdOps : List FileOp :=
  match i.claudeMd with
  | none => []
  | some generated =>
    match mergeClaudeMd (disk site.claudeMd) generated with
    | none => [⟨site.claudeMd, .skip, ""⟩]
    | some merged => [create site.claudeMd merged]

/-- Step 2b. -/
def agentsMdOps : List FileOp :=
  match i.agentsMd with
  | none => []
  | some content => if content = "" then [] else [create site.agentsMd content]

/-- Steps 3 and 4. -/
def settingsOps : List FileOp :=
  [⟨site.settings, .mergeJson, i.mergedSettings (disk site.settings)⟩,
    ⟨site.localSettings, .skip, ""⟩]

/-- An agent of the canonical tree that step 5 installs: only the reviewers can be left out. -/
def takes (a : AgentFile) : Bool :=
  a.name ≠ "README.md" && (!startsWith a.name "review-" ||
    match i.allowed with
    | some names => a.name ∈ names
    | none => a.provider = "claude_code")

def takesProject (a : AgentFile) : Bool :=
  match i.allowed with
  | some names => a.name ∈ names
  | none => a.provider = "claude_code"

/-- Steps 5 and 5b. -/
def agentOps : List FileOp :=
  ((i.canonicalAgents.filter i.takes).map fun a => create (site.agents ++ a.rel) a.text) ++
    (i.projectReviewers.filter i.takesProject).map fun a => create (site.agents ++ [a.name]) a.text

/-- Step 6b. -/
def contractOps : List FileOp := (i.contract.map (create site.contract ·)).toList

/-- One recorded file in `_stale_hook_copy_ops`. -/
def staleHookOp (target : Path) : Option FileOp :=
  if i.purgeRetiredHooks then some ⟨target, .delete, ""⟩
  else
    let rel := posix (target.drop site.hooks.length)
    if rel ∈ dsHookFiles then
      match disk target with
      | none => none
      | some current =>
        if current = i.stub rel then some ⟨target, .keep, ""⟩ else some (create target (i.stub rel))
    else some ⟨target, .keep, ""⟩

/-- `_stale_hook_copy_ops`. -/
def staleHookOps (manifest : Manifest) : List FileOp :=
  let recorded := (manifest.filter fun e => e.path ≠ [] ∧ !e.passed ∧
    isParent site.hooks e.path).map (·.path)
  recorded.reverse.dedup.reverse.filterMap (i.staleHookOp site disk)

/-- Step 7. -/
def hookOps (manifest : Manifest) : List FileOp :=
  match i.hookMode with
  | .files => collectHookFileOps i.hooks site.hooks
  | .module => i.staleHookOps site disk manifest

/-- Step 7b: `rel` is the whole path of the hook. -/
def gitHookOps : List FileOp := (i.gitHook.map fun f => create f.rel f.text).toList

/-- Step 8. -/
def versionOps : List FileOp :=
  match i.hookMode, i.version with
  | .files, some version => [create site.installedVersion (pyStrip version ++ "\n")]
  | _, _ => []

def collected (manifest : Option Manifest) : List FileOp :=
  i.skillOps site ++ i.orphanOps site (manifest.getD []) ++ i.claudeMdOps site disk ++
    i.agentsMdOps site ++
    i.settingsOps site disk ++ i.agentOps site ++ i.contractOps site ++
      i.hookOps site disk (manifest.getD []) ++
    i.gitHookOps ++ i.versionOps site

end Install

def FileOp.writes (op : FileOp) : Bool := op.op ≠ .delete ∧ op.op ≠ .skip ∧ op.op ≠ .keep

/-- `plan`: a path that is written is not also deleted. -/
def plan (i : Install) (site : Site) (disk : Disk) (manifest : Option Manifest) : List FileOp :=
  let ops := i.collected site disk manifest
  let written := (ops.filter (·.writes)).map (·.target)
  ops.filter fun op => !(op.op = .delete ∧ op.target ∈ written)

structure Work where
  disk : Disk
  files : Manifest
  created : List Path

def Work.execute (w : Work) (op : FileOp) : Work :=
  match op.op with
  | .skip => w
  | .keep => { w with files := w.files ++ [⟨op.target, .keep⟩] }
  | .delete => { w with disk := Function.update w.disk op.target none }
  | kind =>
    if w.disk op.target = some op.content then
      { w with files := w.files ++ [⟨op.target, .unchanged⟩] }
    else {
      disk := Function.update w.disk op.target (some op.content)
      files := w.files ++ [⟨op.target, kind⟩]
      created := if (w.disk op.target).isNone then w.created ++ [op.target] else w.created }

structure Root where
  disk : Disk
  manifest : Option Manifest
  created : List Path := []

def Root.work (site : Site) (r : Root) (i : Install) : Work :=
  (plan i site r.disk r.manifest).foldl Work.execute ⟨r.disk, [], r.created⟩

/-- `install(mode="execute")`, when it succeeds. -/
def Root.install (site : Site) (r : Root) (i : Install) : Root :=
  let done := r.work site i
  { disk := done.disk, manifest := some done.files, created := done.created }

end DreamStudio.Integrations
