import DreamStudio.WorkOrders.Verdict

namespace DreamStudio.WorkOrders

open Library

/-- `s.rstrip()`. -/
def pyRstrip (s : String) : String := String.ofList ((s.toList.reverse.dropWhile pySpace).reverse)

/-- `s.split(",")`. -/
def splitCommas (s : String) : List String := (s.toList.splitOnP (· = ',')).map String.ofList

/-- `p.strip().rstrip(".").strip()`. -/
def stripPart (p : String) : String :=
  pyStrip (String.ofList (((pyStrip p).toList.reverse.dropWhile (· = '.')).reverse))

/-- `_is_boundary_path`, its `_BARE_PATH_NAME` written out. -/
def isBoundaryPath (part : String) : Bool :=
  part ≠ "" && (contains part "/" || contains part "." ||
    part.toList.all fun c => c.isAlphanum || c = '_' || c = '-')

def boundaryMarker : String := "Module boundary:"

def splitMarker : List Char → Option (List Char × List Char)
  | [] => none
  | c :: cs =>
    if boundaryMarker.toList.isPrefixOf (c :: cs) then
      some ([], (c :: cs).drop boundaryMarker.length)
    else (splitMarker cs).map fun (before, after) => (c :: before, after)

def afterClause : List Char → List Char
  | [] => []
  | c :: cs =>
    if c = '\n' then c :: cs
    else if c = '.' ∧ (cs.head? = none ∨ cs.head? = some ' ' ∨ cs.head? = some '\n') then cs
    else afterClause cs

/-- `_strip_clause`. -/
def stripClause (description : String) : String :=
  match splitMarker description.toList with
  | none => pyRstrip description
  | some (before, after) => pyRstrip (String.ofList (before ++ afterClause after))

/-- `boundary_globs`. -/
def boundaryGlobs (py : Stdlib) (description : String) : List String :=
  match py.search "Module boundary:\\s*([^.\\n]+(?:\\.[a-z]+[^.\\n]*)*)" description with
  | some (clause :: _) => ((splitCommas clause).map stripPart).filter isBoundaryPath
  | _ => []

inductive ModuleBoundary
  | text (s : String)
  | parts (ps : List String)

namespace ModuleBoundary

def given : ModuleBoundary → Bool
  | text s => s ≠ ""
  | parts ps => !ps.isEmpty

def names : ModuleBoundary → List String
  | text s => (splitCommas s).map pyStrip
  | parts ps => ps.map pyStrip

end ModuleBoundary

/-- `compose_module_boundary`. -/
def composeModuleBoundary (description : String) (boundary : Option ModuleBoundary) : String :=
  match boundary with
  | none => description
  | some boundary =>
    let usable := boundary.names.filter isBoundaryPath
    if !boundary.given ∨ contains description boundaryMarker ∨ usable = [] then description
    else
      let clause := "Module boundary: " ++ ", ".intercalate usable ++ "."
      let body := pyRstrip description
      if body = "" then clause else body ++ "\n\n" ++ clause

structure Amendment where
  moduleBoundary : List String
  previous : List String
  reason : String
  description : String

/-- `_MIN_REASON`. -/
def minReason : Nat := 30

/-- `amend_module_boundary` up to its event and its UPDATE. `present` is whether a path is there. -/
def amendModuleBoundary (py : Stdlib) (present : String → Bool) (description : Option String)
    (moduleBoundary reason : String) : Except String Amendment :=
  let text := pyStrip reason
  let declared := pyStrip moduleBoundary
  let previousDescription := description.getD ""
  let previous := boundaryGlobs py previousDescription
  let parts := ((splitCommas declared).map stripPart).filter (· ≠ "")
  let missing := parts.filter (!present ·)
  let usable := parts.filter isBoundaryPath
  if text.length < minReason then
    .error
      ("Amending a boundary needs a reason a later reader can weigh — enough to tell a correction " ++
      "from a widening (" ++ toString minReason ++
        "+ characters). A boundary quietly widened to admit a " ++
      "refused task is the escape hatch becoming the norm, which is what this records against.")
  else if declared = "" then .error "No module boundary given."
  else if missing ≠ [] then
    .error ("Refused — these paths do not exist: " ++ ", ".intercalate missing ++
      ". A boundary may only " ++
      "name files or directories that are actually here; otherwise this becomes a way to widen scope " ++
      "until a refused task is admitted. Create the path first, or name the directory that will contain it.")
  else if usable = [] then
    .error
      ("Nothing here the boundary parser would keep — it retains comma-separated parts that name a " ++
      "path: one containing '/' or '.', or a plain directory name. Storing an unparseable boundary would " ++
      "look declared and match nothing, which is the failure compose_module_boundary exists to end.")
  else if previous.isPerm usable then .error "That is already the boundary; nothing to amend."
  else
    .ok ⟨usable, previous, text,
      composeModuleBoundary (stripClause previousDescription) (some (.parts usable))⟩

end DreamStudio.WorkOrders
