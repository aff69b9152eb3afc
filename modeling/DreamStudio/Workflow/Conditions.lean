import DreamStudio.Library.Strip
import DreamStudio.Library.Templates
import DreamStudio.Workflow.Engine

namespace DreamStudio.Workflow

open Library

section Refs

/-- What `\{\{(.+?)\}\}` finds. -/
def braces : Marks Char where
  opener := '{'
  closer := '}'
  stops c := c = '\n'
  opener_stays := rfl
  closer_stays := rfl

def NodeStatus.text : NodeStatus → String
  | .pending => "pending"
  | .running => "running"
  | .completed => "completed"
  | .failed => "failed"
  | .skipped => "skipped"
  | .unverified => "unverified"
  | .blocked => "blocked"
  | .blockedByDeps => "blocked_by_deps"

/-- `str(node.get(field, ""))`. -/
def Node.field (node : Node) (field : String) : String :=
  if field = "status" then node.status.text
  else if field = "started" then node.started.getD ""
  else if field = "finished" then node.finished.getD ""
  else if field = "output" then node.output.getD ""
  else if field = "executed" then node.executed.elim "" fun b => if b then "True" else "False"
  else if field = "duration_s" then node.durationS.getD ""
  else ""

/-- `ref.rsplit(".", 1)` where there is a dot. -/
def rsplitDot (ref : List Char) : Option (List Char × List Char) :=
  if '.' ∈ ref then some ((ref.rdropWhile (· ≠ '.')).dropLast, ref.rtakeWhile (· ≠ '.')) else none

/-- `_resolve_ref`. -/
def Run.resolveRef (wf : Run) (ref : List Char) : Option (List Char) :=
  (rsplitDot ref).bind fun parts =>
    (wf.nodes.get (String.ofList parts.1)).map fun node =>
      (node.field (String.ofList parts.2)).toList

def Run.params (wf : Run) : Dict String String := [("work_order_id", wf.workOrderId)]

/-- `_resolve_param`. -/
def Run.resolveParam (wf : Run) (key : List Char) : Option (List Char) :=
  ((wf.params.get (String.ofList key)).filter (· ≠ "")).map String.toList

/-- `_replace` of `resolve_templates`; `session` is `_resolve_session_ref`. -/
def Run.template (session : List Char → Option (List Char)) (wf : Run) (ref : List Char) :
    Option (List Char) :=
  if "workflow.".toList.isPrefixOf ref then wf.resolveParam (ref.drop 9)
  else if "session:".toList.isPrefixOf ref then session (ref.drop 8)
  else wf.resolveRef ref

/-- `resolve_templates`. -/
def Run.resolveTemplates (session : List Char → Option (List Char)) (wf : Run)
    (text : List Char) : List Char :=
  braces.substitute (wf.template session) text

end Refs

section Operators

inductive Operator
  | ne
  | ge
  | le
  | eq
  | gt
  | lt
  deriving DecidableEq

def Operator.text : Operator → List Char
  | .ne => ['!', '=']
  | .ge => ['>', '=']
  | .le => ['<', '=']
  | .eq => ['=', '=']
  | .gt => ['>']
  | .lt => ['<']

def operators : List Operator := [.ne, .ge, .le, .eq, .gt, .lt]

/-- `before.count("{{") - before.count("}}") == 0`. -/
def Level (before : List Char) : Prop :=
  occurrences ['{', '{'] 0 before = occurrences ['}', '}'] 0 before

instance (before : List Char) : Decidable (Level before) :=
  inferInstanceAs (Decidable (_ = _))

def topLevel (op : List Char) (before : List Char) : List Char → Option (List Char × List Char)
  | [] => none
  | c :: s =>
    if op.isPrefixOf (c :: s) ∧ Level before then some (before, (c :: s).drop op.length)
    else topLevel op (before ++ [c]) s

structure Split where
  op : Operator
  left : List Char
  right : List Char
  deriving DecidableEq

def split (expr : List Char) : Option Split :=
  operators.findSome? fun op => (topLevel op.text [] expr).map fun sides => ⟨op, sides.1, sides.2⟩

end Operators

section Values

/-- Numbers as Python reads, compares and prints them, and the score on file. -/
structure Numerals (ν : Type) where
  read : List Char → Option ν
  print : ν → List Char
  holds : Operator → ν → ν → Bool
  qualityScore : ν

inductive Value (ν : Type)
  | number (n : ν)
  | text (cs : List Char)
  deriving DecidableEq

variable {ν : Type} (num : Numerals ν)

/-- `_coerce`. -/
def coerce (val : List Char) : Value ν :=
  if val = "quality-score".toList then .number num.qualityScore
  else (num.read val).elim (.text val) .number

/-- `str(val)`. -/
def Value.str : Value ν → List Char
  | .number n => num.print n
  | .text cs => cs

def compareTexts (op : Operator) (left right : List Char) : Bool :=
  match op with
  | .eq => left = right || (right ++ [':']).isPrefixOf left || (left ++ [':']).isPrefixOf right
  | .ne =>
    left ≠ right && !(right ++ [':']).isPrefixOf left && !(left ++ [':']).isPrefixOf right
  | _ => false

def compare (op : Operator) (left right : Value ν) : Bool :=
  match left, right with
  | .number m, .number n => num.holds op m n
  | _, _ => compareTexts op (left.str num) (right.str num)

end Values

section Evaluate

variable {ν : Type} (num : Numerals ν) (lookup : List Char → Option (List Char))

def missing : Piece Char → Bool
  | .lit _ => false
  | .ref r => (lookup r).isNone

/-- `"{{" in result or "}}" in result`. -/
def marked (result : List Char) : Bool :=
  occurrences ['{', '{'] 0 result ≠ 0 || occurrences ['}', '}'] 0 result ≠ 0

/-- `_resolve` of `_evaluate`: the text, and whether something in it is unresolved. -/
def resolve (s : List Char) : List Char × Bool :=
  let result := braces.substitute (fun r => some ((lookup r).getD [])) s
  (result, (braces.pieces 0 s).any (missing lookup) || marked result)

/-- `_evaluate`, where `lookup` is `_resolve_ref`. -/
def evaluate (expr : List Char) : Bool :=
  match split expr with
  | some sides =>
    let left := resolve lookup (trimmed sides.left)
    let right := resolve lookup (trimmed sides.right)
    if left.2 || right.2 then false
    else compare num sides.op (coerce num (trimmed left.1)) (coerce num (trimmed right.1))
  | none =>
    let whole := resolve lookup expr
    if whole.2 then false else trimmed whole.1 ≠ []

/-- `_evaluate(condition, wf)`. -/
def evaluateIn (condition : String) (wf : Run) : Bool := evaluate num wf.resolveRef condition.toList

end Evaluate

end DreamStudio.Workflow
