import DreamStudio.Library.Dict
import DreamStudio.Library.Json
import Mathlib.Data.Finset.Sort
import Mathlib.Data.Finset.Union
import Mathlib.Data.String.Basic

namespace DreamStudio.Gates

open Library

/-- What `read_text(encoding="utf-8")` makes of a file: its text, a `UnicodeDecodeError` or an
`OSError`. -/
inductive FileText
  | text (s : String)
  | undecodable
  | unreadable
  deriving DecidableEq

inductive ImportNode
  | imports (names : List String)
  | importsFrom (module : Option String) (names : List String) (level : Nat)

/-- The import statements `ast` finds in a file; an `OSError` or a `SyntaxError` skips it, anything
else that `ast.parse` raises is not caught. -/
inductive Parsed
  | nodes (found : List ImportNode)
  | skipped
  | raised (error : String)

structure RepoFile where
  path : String
  text : FileText
  parsed : Parsed

/-- The `.py` files of a checkout in the order of the walk, by their path as `_normalize` leaves it,
and the parts of the path to it. -/
structure Checkout where
  root : List String
  files : List RepoFile
  unique : (files.map (·.path)).Nodup

structure ImportGraph where
  nodes : List String
  edges : List (String × String)

def ImportGraph.reverse (g : ImportGraph) : ImportGraph where
  nodes := g.nodes
  edges := g.edges.map Prod.swap

/-- `\w` of `re`, and `networkx.single_source_shortest_path_length`. -/
structure Packages where
  word : Char → Bool
  shortestPathLength : ImportGraph → String → Dict String Nat

section Paths

def endsWith (s suffix : String) : Bool := suffix.toList.isSuffixOf s.toList

def dropEnd (s : String) (n : Nat) : String := String.ofList (s.toList.take (s.length - n))

def replaceChar (old new : Char) (s : String) : String :=
  String.ofList (s.toList.map fun c => if c = old then new else c)

def splitBy (c : Char) (s : String) : List String := (s.toList.splitOn c).map String.ofList

def normalize (path : String) : String := pyStrip (replaceChar '\\' '/' path)

/-- The parts of a `Path`. -/
def parts (path : String) : List String :=
  (splitBy '/' path).filter fun part => part ≠ "" ∧ part ≠ "."

def pathName (path : String) : String := (parts path).getLast?.getD ""

@[irreducible] def isTestFile (path : String) : Bool :=
  let p := normalize path
  startsWith p "tests/" && endsWith p ".py" && startsWith (pathName p) "test_"

@[irreducible] def isConftestFile (relPath : String) : Bool :=
  pathName (normalize relPath) = "conftest.py"

/-- The pattern `test_*.py`. -/
def isTestName (name : String) : Bool := startsWith name "test_" && endsWith name ".py"

/-- `name.rsplit(".", 1)[0]` of a name with a dot, and nothing of another. -/
def parentPackage (name : String) : String :=
  ".".intercalate (splitBy '.' name).dropLast

def moduleTokens (sourcePath : String) : Finset String :=
  let p := normalize sourcePath
  if endsWith p ".py" then
    let mod := replaceChar '/' '.' (dropEnd p 3)
    if endsWith mod ".__init__" then {mod, dropEnd mod 9} else {mod}
  else ∅

def fileToModule (relPath : String) : String :=
  let mod := replaceChar '/' '.' (dropEnd relPath 3)
  if endsWith mod ".__init__" then dropEnd mod 9 else mod

end Paths

section Imports

def climb : Nat → String → Option String
  | 0, base => some base
  | n + 1, base => if base = "" then none else climb n (parentPackage base)

def relativeBase (module relPath : String) (level : Nat) : Option String :=
  let isPkg := relPath = "__init__.py" || endsWith relPath "/__init__.py"
  climb (level - 1) (if isPkg then module else parentPackage module)

/-- The base that the names of a `from` import are taken from. -/
def importBase (module relPath : String) (named : Option String) (level : Nat) : Option String :=
  if level = 0 then some (named.getD "")
  else
    (relativeBase module relPath level).map fun base =>
      match named with
      | none => base
      | some name => if name = "" then base else if base = "" then name else base ++ "." ++ name

def importedTargets (module relPath : String) (known : List String) : ImportNode → List String
  | .imports names => names
  | .importsFrom named names level =>
    match importBase module relPath named level with
    | none => []
    | some base =>
      if base = "" then []
      else
        names.map fun name =>
          if name = "*" then base
          else if base ++ "." ++ name ∈ known then base ++ "." ++ name else base

end Imports

namespace Checkout

def skipDirs : List String :=
  [".git", "__pycache__", ".pytest_cache", "node_modules", ".venv", "venv"]

variable (t : Checkout)

def pythonFiles : List RepoFile :=
  t.files.filter fun f => (t.root ++ parts f.path).all (· ∉ skipDirs)

/-- `_iter_test_files`. -/
def testFiles : List RepoFile :=
  t.files.filter fun f => (parts f.path).dropLast.head? = some "tests" ∧
    isTestName (pathName f.path)

def moduleIndex : Dict String String :=
  t.pythonFiles.foldl (fun index f => index.set (fileToModule f.path) f.path) []

/-- What `ast` makes of the file at a path. -/
def parsedAt (path : String) : Parsed :=
  ((t.files.find? (·.path = path)).map (·.parsed)).getD .skipped

def importGraph : ImportGraph where
  nodes := t.moduleIndex.keys
  edges := t.moduleIndex.flatMap fun (module, rel) =>
    match t.parsedAt rel with
    | .nodes found =>
      ((found.flatMap (importedTargets module rel t.moduleIndex.keys)).filter fun target =>
        target ∈ t.moduleIndex.keys ∧ target ≠ module).map (module, ·)
    | _ => []

def graphRaises : Bool :=
  t.moduleIndex.any fun (_, rel) =>
    match t.parsedAt rel with
    | .raised _ => true
    | _ => false

/-- `_conftest_scope_tests`. -/
def conftestScopeTests (conftestRelPath : String) : Finset String :=
  let dir := (parts conftestRelPath).dropLast
  ((t.files.filter fun f =>
    dir.isPrefixOf (parts f.path).dropLast && isTestName (pathName f.path)).map (·.path)).toFinset

end Checkout

def nearer (changed : List String) (hops : Dict String Nat) (reached : String × Nat) :
    Dict String Nat :=
  if reached.1 ∈ changed then hops
  else
    match hops.get reached.1 with
    | none => hops.set reached.1 reached.2
    | some known => if reached.2 < known then hops.set reached.1 reached.2 else hops

def ancestorHops (packages : Packages) (changed : List String) (graph : ImportGraph) :
    Dict String Nat :=
  (changed.filter (· ∈ graph.nodes)).foldl
    (fun hops module =>
      (packages.shortestPathLength graph.reverse module).foldl (nearer changed) hops) []

section Tokens

def fileTokens (f : String) : Finset String :=
  if isTestFile f then ∅
  else if endsWith f ".py" then
    let stem := dropEnd ((splitBy '/' f).getLast?.getD "") 3
    moduleTokens f ∪ (if '-' ∈ stem.toList then {stem} else ∅) ∪ {f}
  else {f}

def packTokens (f : String) : Finset String :=
  if isTestFile f || endsWith f ".py" then ∅
  else if startsWith f "canonical/skills/" then
    match splitBy '/' f with
    | _ :: _ :: pack :: _ => {pack}
    | _ => ∅
  else ∅

/-- `re.escape(tok) + r"\b"` matches at the head of the rest. -/
def wordHere (word : Char → Bool) (tok : List Char) (before : Option Char) (rest : List Char) :
    Bool :=
  tok.isPrefixOf rest &&
    (((tok.getLast?).or before).any word != ((rest.drop tok.length).head?).any word)

def searchWord (word : Char → Bool) (tok : List Char) : Option Char → List Char → Bool
  | before, [] => wordHere word tok before []
  | before, c :: rest => wordHere word tok before (c :: rest) || searchWord word tok (some c) rest

def quote (c : Char) : Bool := c = '"' || c = '\''

def searchQuoted (tok text : List Char) : Bool :=
  text.tails.any fun
    | [] => false
    | c :: rest => quote c && tok.isPrefixOf rest && ((rest.drop tok.length).head?).any quote

end Tokens

structure ImpactSet where
  changedFiles : List String
  dependentTests : List String
  moduleTokens : List String
  importGraphTruncatedTestCount : Nat

section Impact

variable (packages : Packages) (t : Checkout)

/-- A test file whose text has one of the tokens. -/
def names (tokens quoted : Finset String) (f : RepoFile) : Bool :=
  match f.text with
  | .text s =>
    decide (∃ tok ∈ tokens, searchWord packages.word tok.toList none s.toList) ||
      decide (∃ tok ∈ quoted, searchQuoted tok.toList s.toList)
  | _ => false

def withinDepth (maxDepth : Option Nat) (hops : Nat) : Bool := maxDepth.all (hops ≤ ·)

structure Closure where
  tests : Finset String := ∅
  conftests : Finset String := ∅
  truncated : Nat := 0

def Closure.add (maxDepth : Option Nat) (c : Closure) (rel : String) (hops : Nat) : Closure :=
  if isTestFile rel then
    if withinDepth maxDepth hops then { c with tests := insert rel c.tests }
    else { c with truncated := c.truncated + 1 }
  else if isConftestFile rel then
    if withinDepth maxDepth hops then { c with conftests := insert rel c.conftests }
    else { c with truncated := c.truncated + max 1 (t.conftestScopeTests rel).card }
  else c

def closure (maxDepth : Option Nat) (hops : Dict String Nat) : Closure :=
  hops.foldl (fun c (ancestor, hops) =>
    match t.moduleIndex.get ancestor with
    | some rel => c.add t maxDepth rel hops
    | none => c) {}

def changedSet (changedFiles : List String) : Finset String :=
  ((changedFiles.filter (· ≠ "")).map normalize).toFinset

/-- `module_tokens & set(module_index)`, in an order that does not matter. -/
def knownChanged (tokens : Finset String) : List String := t.moduleIndex.keys.filter (· ∈ tokens)

def computeImpactSet (maxDepth : Option Nat) (changedFiles : List String) :
    Except String ImpactSet :=
  let changed := changedSet changedFiles
  let tests := changed.filter (isTestFile ·)
  let tokens := changed.biUnion fileTokens
  let quoted := changed.biUnion packTokens
  -- A test file that is in the set already is not read.
  let read := t.testFiles.filter (·.path ∉ tests)
  if (tokens ≠ ∅ ∨ quoted ≠ ∅) ∧ (read.any (·.text = .undecodable)) then .error "UnicodeDecodeError"
  else if tokens ≠ ∅ ∧ t.graphRaises then .error "ast.parse"
  else
    let named := ((read.filter (names packages tokens quoted)).map (·.path)).toFinset
    let found :=
      if tokens = ∅ then {}
      else closure t maxDepth (ancestorHops packages (knownChanged t tokens) t.importGraph)
    let conftests := changed.filter (isConftestFile ·) ∪ found.conftests
    let dependent := tests ∪ named ∪ found.tests ∪ conftests.biUnion t.conftestScopeTests
    .ok {
      changedFiles := changed.sort (· ≤ ·)
      dependentTests := dependent.sort (· ≤ ·)
      moduleTokens := tokens.sort (· ≤ ·)
      importGraphTruncatedTestCount := found.truncated }

end Impact

end DreamStudio.Gates
