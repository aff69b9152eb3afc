import DreamStudio.Hooks.Enforcement

namespace DreamStudio.Hooks

open Library WorkOrders

namespace Native

variable (env : HookEnv) (t : HookAuthority)

/-- `resolve_weak(&project_path)`. -/
def root (r : HookProject) : Option ResolvedPath :=
  r.projectPath.bind fun path => if path = "" then none else env.resolve path

/-- A row that has no id is no `String`, and `flatten` drops it. -/
def projectRows : List HookProject := t.registeredRows.filter (·.projectId.isSome)

/-- `len` counts bytes. -/
def pathKey : HookProject → Bool ×ₗ Int := candidateKey String.utf8ByteSize (root env)

/-- `match_registered_project`, behind the exemption of `enforce`. -/
def matchRegisteredProject (path : ResolvedPath) : Option RegisteredProject :=
  if env.exempt path then none
  else (firstLeast (pathKey env) (candidates env (root env) path (projectRows t))).map
    (·.registered)

/-- `char::is_whitespace`. -/
def whitespace (c : Char) : Bool := pySpace c && !(0x1c ≤ c.val && c.val ≤ 0x1f)

/-- `s.trim()`. -/
def trim (s : List Char) : List Char :=
  ((s.dropWhile whitespace).reverse.dropWhile whitespace).reverse

/-- `s.trim_end_matches(c)`. -/
def trimEndMatches (c : Char) (s : List Char) : List Char := (s.reverse.dropWhile (· = c)).reverse

/-- A clause ends at a newline, and at a dot that no lowercase letter follows. -/
def clause : List Char → List Char
  | [] => []
  | c :: cs =>
    if c = '\n' then []
    else if c = '.' ∧ ¬cs.head?.any fun n => 'a' ≤ n ∧ n ≤ 'z' then []
    else c :: clause cs

/-- `boundary_globs`. -/
def boundaryGlobs (description : String) : List String :=
  match splitMarker description.toList with
  | none => []
  | some (_, after) =>
    ((splitCommas (String.ofList (clause after))).map fun p =>
      String.ofList (trim (trimEndMatches '.' (trim p.toList)))).filter (· ≠ "")

/-- `s.to_ascii_lowercase()`. -/
def asciiLowercase (s : List Char) : List Char := s.map Char.toLower

def slashed (s : List Char) : List Char := s.map fun c => if c = '\\' then '/' else c

/-- `path_in_boundary`. -/
def pathInBoundary (relPath : String) (globs : List String) : Bool :=
  if globs = [] then true
  else
    let p := asciiLowercase (slashed relPath.toList)
    globs.any fun g =>
      let g := asciiLowercase (trimEndMatches '/' ((slashed g.toList).dropWhile (· = '/')))
      p = g || (trimEndMatches '/' g ++ ['/']).isPrefixOf p

/-- A declared boundary of the row has the path. -/
def holds (file root : ResolvedPath) (r : HookWorkOrder) : Bool :=
  let globs := boundaryGlobs (r.description.getD "")
  globs ≠ [] && (relativeTo env.py.lower file root).any fun rel =>
    pathInBoundary ("/".intercalate rel) globs

/-- The row has what is read as a `String`. -/
def decodes (r : HookWorkOrder) : Bool := r.workOrderId.isSome && r.title.isSome

def matched (edited : Option (ResolvedPath × ResolvedPath)) (rows : List HookWorkOrder) :
    List HookWorkOrder :=
  match edited with
  | none => []
  | some (file, root) => rows.filter (holds env file root)

/-- `in_progress_work_order`. -/
def inProgressWorkOrder (projectId : String) (edited : Option (ResolvedPath × ResolvedPath)) :
    Option ActiveWorkOrder :=
  match (t.inProgressRows projectId).filter decodes with
  | [] => none
  | first :: rest =>
    match matched env edited (first :: rest) with
    | [] =>
      some {
        workOrderId := first.workOrderId, title := first.title
        description := first.description.getD ""
        attribution := .mostRecentlyStarted }
    | chosen :: others =>
      some {
        workOrderId := chosen.workOrderId, title := chosen.title
        description := chosen.description.getD ""
        attribution := .moduleBoundary, claimants := (chosen :: others).map (·.workOrderId) }

def suggestion (r : HookWorkOrder) : NextWorkOrder := ⟨r.workOrderId, r.title⟩

/-- `next_created_work_order`. A row that does not decode is an error, and the query is made again
without the dependencies. -/
def nextCreatedWorkOrder (projectId : String) : Option NextWorkOrder :=
  match (t.createdRows (!t.waits ·) projectId).head? with
  | none => none
  | some r =>
    if decodes r then some (suggestion r)
    else ((t.createdRows (fun _ => true) projectId).head?.filter decodes).map suggestion

end Native

end DreamStudio.Hooks
