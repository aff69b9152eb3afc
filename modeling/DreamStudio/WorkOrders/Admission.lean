import DreamStudio.Library.Agree
import DreamStudio.Library.Strip
import DreamStudio.WorkOrders.Criteria

namespace DreamStudio.WorkOrders

open Library

inductive CmdProblem
  | unparseable
  | empty
  deriving DecidableEq

/-- What `cmd_argv` returns. -/
structure CmdArgv where
  isCmd : Bool
  argv : List String := []
  problem : Option CmdProblem := none
  detail : String := ""

structure SeatReport where
  seat : String
  lane : String
  reason : String
  deriving DecidableEq

/-- `_MIN_WHY`. -/
def minWhy : Nat := 20

/-- `DECLARED_PREFIX`. -/
def declaredPrefix : String := "Filed with no executable criterion, on a declared reason:"

/-- `text.split()`. -/
def splitWords (text : List Char) : List (List Char) := (text.splitOnP pySpace).filter (· ≠ [])

/-- `" ".join(text.split())`. -/
def joinWords (text : String) : String :=
  " ".intercalate ((splitWords text.toList).map String.ofList)

def quoteMark (c : Char) : Bool := c = '\x60' || c = '"' || c = '\''

def unquoted (text : List Char) : List Char := (text.dropWhile quoteMark).rdropWhile quoteMark

/-- `TEST-CHECK\s*:\s*(.*)$` where the text begins, with its group stripped. -/
def testCheckAt (text : List Char) : Option String :=
  if "TEST-CHECK".toList.isPrefixOf text then
    match (text.drop 10).dropWhile pySpace with
    | c :: rest => if c = ':' then some (pyStrip (String.ofList rest)) else none
    | [] => none
  else none

def testCheckSearch (line : String) : Option String := line.toList.tails.findSome? testCheckAt

section Admission

-- `shlex.split`, `Path(target).is_file()` and `repr`.
variable (split : String → Except String (List String)) (isFile : String → Bool)
    (repr : String → String)

/-- `cmd_argv`. -/
def cmdArgv (expr : String) : CmdArgv :=
  let stripped := (pyStrip expr).toList
  if pyLower (String.ofList (stripped.take 4)) ≠ "cmd:" then { isCmd := false }
  else
    match split (pyStrip (String.ofList (stripped.drop 4))) with
    | .error detail => { isCmd := true, problem := some .unparseable, detail := detail }
    | .ok [] => { isCmd := true, problem := some .empty }
    | .ok (arg :: args) => { isCmd := true, argv := arg :: args }

/-- `has_executable_criterion`. -/
def hasExecutableCriterion (acceptanceCriteria : Option String) : Bool :=
  (splitLines (acceptanceCriteria.getD "")).any fun line => (checkToken line).isSome

def firstWord (expr : String) : List Char := unquoted ((splitWords expr.toList).headD [])

/-- `raw.split("::")[0].strip()`, without quotes. -/
def fileTarget (raw : List Char) : List Char := unquoted (trimmed (beforePart "::".toList raw))

def looksLikeAPath (target : List Char) : Bool :=
  '/' ∈ target || '\\' ∈ target || ".py".toList.isSuffixOf target

/-- What `unrunnable_target` says of one expression. -/
def expressionTarget (expr : String) : Option String :=
  let cmd := cmdArgv split expr
  if cmd.isCmd then
    cmd.problem.map fun
      | .empty => "(nothing after TEST-CHECK: cmd:)"
      | .unparseable => "cmd:" ++ " " ++ pyStrip (String.ofList (expr.toList.drop 4))
  else
    let raw := firstWord expr
    if raw = [] then some "(nothing after TEST-CHECK:)"
    else if "::".toList.isPrefixOf raw then none
    else
      let target := fileTarget raw
      if target = [] then some "(nothing after TEST-CHECK:)"
      else if !looksLikeAPath target then some (String.ofList target)
      else if isFile (String.ofList target) then none
      else some (String.ofList target)

/-- `unrunnable_target`. -/
def unrunnableTarget (acceptanceCriteria : Option String) : Option String :=
  (splitLines (acceptanceCriteria.getD "")).findSome? fun line =>
    (testCheckSearch line).bind (expressionTarget split isFile)

def behindLast (part : List Char) (text : List Char) : Option (List Char) :=
  ((text.tails.filter (part.isPrefixOf ·)).getLast?).map (·.drop part.length)

/-- `declared_reason`. -/
def declaredReason (description : Option String) : String :=
  match behindLast declaredPrefix.toList (description.getD "").toList with
  | some rest => joinWords (String.ofList rest)
  | none => ""

def criterionRefusalOf (reason : String) : SeatReport where
  seat := "Gate-integrity engineer"
  lane := "a-criterion-nobody-can-run"
  reason := reason

/-- `_warden`. -/
def warden (acceptanceCriteria : Option String) (why : String) : Option SeatReport :=
  if hasExecutableCriterion acceptanceCriteria then
    (unrunnableTarget split isFile acceptanceCriteria).map fun bad =>
      criterionRefusalOf ("TEST-CHECK names " ++ repr bad ++
        ", which is not a file that exists and not" ++
        " a `::node_id`. A criterion nothing can run cannot fail for the" ++
        " right reason, so a close that turns on it reports the paperwork" ++
        " rather than the code. Point it at a test file that exists, or use" ++
        " SQL-CHECK / API-CHECK, or declare a reason with --why.")
  else
    let declared := joinWords why
    if minWhy ≤ declared.length then none
    else if declared ≠ "" then
      some (criterionRefusalOf ("no executable criterion, and the declared reason is " ++
        toString declared.length ++
        " characters -- " ++ toString minWhy ++
          " are required, because a reason shorter than that" ++
        " is a shrug, and an escape hatch that costs nothing becomes the norm"))
    else
      some (criterionRefusalOf
        ("no executable criterion and no declared reason. A task nobody can check is a" ++
        " claim that gets marked done by reading -- name a TEST-CHECK / SQL-CHECK /" ++
        " API-CHECK, or declare in at least" ++
        " " ++ toString minWhy ++ " characters why this claim cannot be computed"))

/-- `criterion_refusal`. -/
def criterionRefusal (acceptanceCriteria : Option String)
    (why description : Option String := none) :
    Option SeatReport :=
  let why := why.getD ""
  warden split isFile repr acceptanceCriteria (if why = "" then declaredReason description else why)

end Admission

section Reading

variable (split : String → Except String (List String)) (isFile : String → Bool)
    (repr : String → String)

def nodeFile (expr : String) : List Char := beforePart "::".toList expr.toList

/-- An expression that the executor can run: a command with words, a node id alone, or one in a file
that exists. -/
def runs (expr : String) : Bool :=
  if (cmdArgv split expr).isCmd then (cmdArgv split expr).argv ≠ []
  else startsWith expr "::" || (nodeFile expr ≠ [] && isFile (String.ofList (nodeFile expr)))

/-- An expression that admission can follow: a command with words, or a first word that, without
quotes, is a node id alone or is in a file that exists and looks like a path. -/
def follows (expr : String) : Bool :=
  if (cmdArgv split expr).isCmd then (cmdArgv split expr).argv ≠ []
  else "::".toList.isPrefixOf (firstWord expr) || (fileTarget (firstWord expr) ≠ [] &&
    looksLikeAPath (fileTarget (firstWord expr)) &&
      isFile (String.ofList (fileTarget (firstWord expr))))

def testExpr (line : String) : Option String :=
  (checkToken line).bind fun (kind, expr) => if kind = "TEST-CHECK" then some expr else none

/-- `check_lines` yields a check, and each test it yields can run. -/
def Reads (task : WorkOrderTask) : Prop :=
  checkLines task ≠ [] ∧ ∀ check ∈ checkLines task, check.1 = "TEST-CHECK" →
    runs split isFile check.2 = true

instance : DecidablePred (Reads split isFile) := fun _ => inferInstanceAs (Decidable (_ ∧ _))

end Reading

section Asking

/-- What an expression asks for: the words of a command, a target, a name that looks like a path, or
a file. -/
inductive Need
  | words
  | target
  | path (name : String)
  | file (name : String)
  deriving DecidableEq

variable (split : String → Except String (List String)) (isFile : String → Bool)

/-- What the executor asks for: the text before the first `::`, all of it. -/
def executorNeed (expr : String) : Option Need :=
  if (cmdArgv split expr).isCmd then
    if (cmdArgv split expr).argv = [] then some .words else none
  else if startsWith expr "::" then none
  else if nodeFile expr = [] then some .target
  else some (.file (String.ofList (nodeFile expr)))

/-- What admission asks for: of the first word, without quotes, what stands before the first
`::`. -/
def admissionNeed (expr : String) : Option Need :=
  let target := fileTarget (firstWord expr)
  if (cmdArgv split expr).isCmd then
    if (cmdArgv split expr).argv = [] then some .words else none
  else if "::".toList.isPrefixOf (firstWord expr) then none
  else if target = [] then some .target
  else if looksLikeAPath target then some (.file (String.ofList target))
  else some (.path (String.ofList target))

/-- What the executor asks for on the lines that begin with `TEST-CHECK:` in any letters. -/
def executed (criteria : String) : List Need :=
  (splitLines criteria).filterMap fun line => (testExpr line).bind (executorNeed split)

/-- What admission asks for behind the first `TEST-CHECK` in capitals of a line that has a colon
after it. -/
def admitted (criteria : String) : List Need :=
  (splitLines criteria).filterMap fun line => (testCheckSearch line).bind (admissionNeed split)

variable {split isFile}

end Asking

section Agreement

variable {split : String → Except String (List String)} {isFile : String → Bool}
    {repr : String → String}

end Agreement

end DreamStudio.WorkOrders
