import DreamStudio.Library.Walk
import DreamStudio.Library.Dict

namespace DreamStudio.Conftest

open Library

inductive Node
  | name (id : String)
  /-- A string constant, or another one. -/
  | constant (value : Option String)
  | list (elts : List Node)
  | tuple (elts : List Node)
  | attr (value : Node) (name : String)
  | call (func : Node) (args keywords : List Node)
  | importAlias (name : String) (asname : Option String)
  /-- A function, an async function or a class. -/
  | definition (name : String) (fields : List Node)
  | arg (arg : String) (fields : List Node)
  | assign (targets : List Node) (value : Node)
  | annAssign (target annot : Node) (value : Option Node)
  | augAssign (target : Node) (isAdd : Bool) (value : Node)
  | expr (value : Node)
  | other (fields : List Node)

namespace Node

/-- `ast.iter_child_nodes`. -/
def children : Node → List Node
  | name _ | constant _ | importAlias _ _ => []
  | list elts | tuple elts => elts
  | attr value _ => [value]
  | call func args keywords => func :: args ++ keywords
  | definition _ fields | arg _ fields | other fields => fields
  | assign targets value => targets ++ [value]
  | annAssign target annot value => target :: annot :: value.toList
  | augAssign target _ value => [target, value]
  | expr value => [value]

mutual

def size : Node → Nat
  | name _ | constant _ | importAlias _ _ => 1
  | list elts | tuple elts => 1 + sizes elts
  | attr value _ => 1 + value.size
  | call func args keywords => 1 + (func.size + (sizes args + sizes keywords))
  | definition _ fields | arg _ fields | other fields => 1 + sizes fields
  | assign targets value => 1 + (sizes targets + value.size)
  | annAssign target annot none => 1 + (target.size + annot.size)
  | annAssign target annot (some value) =>
    1 + (target.size + (annot.size + value.size))
  | augAssign target _ value => 1 + (target.size + value.size)
  | expr value => 1 + value.size

def sizes : List Node → Nat
  | [] => 0
  | node :: nodes => node.size + sizes nodes

end

/-- `ast.walk`. -/
def walk (node : Node) : List Node := breadth children node.size [node]

theorem sizes_eq (nodes : List Node) : sizes nodes = (nodes.map size).sum := by
  induction nodes with
  | nil => rfl
  | cons node nodes ih => simp only [sizes, ih, List.map_cons, List.sum_cons]

theorem children_smaller (node : Node) : (node.children.map size).sum < node.size := by
  cases node with
  | annAssign target annot value => cases value <;> simp [children, size]
  | _ => simp [children, size, sizes_eq]

theorem mem_walk {node x : Node} : x ∈ node.walk ↔ Within children node x := by
  constructor
  · intro mem
    obtain ⟨root, root_mem, below⟩ := within_of_mem_breadth mem
    exact List.mem_singleton.mp root_mem ▸ below
  · intro below
    apply mem_breadth children_smaller _ List.mem_cons_self below
    simp

def candidates : Node → List String
  | name id => [id]
  | importAlias id asname => [id, asname.getD ""]
  | definition id _ => [id]
  | arg id _ => [id]
  | _ => []

end Node

structure Stmt where
  lineno : Nat
  node : Node

inductive Display
  | list (items : List String)
  | tuple (items : List String)

def Display.items : Display → List String
  | list items | tuple items => items

def stringOf : Node → Option String
  | .constant value => value
  | _ => none

def display : Node → Option Display
  | .list elts => (elts.mapM stringOf).map .list
  | .tuple elts => (elts.mapM stringOf).map .tuple
  | _ => none

/-- `_literal_strings`. -/
def literalStrings (node : Node) : Option (List String) := (display node).map Display.items

/-- The forms that are read: an assignment to one name with its annotation, `name +=`, and
`name.append(argument)` or `name.extend(argument)`. -/
inductive Form
  | bind (name : String) (annot : Option Node) (value : Node)
  | add (name : String) (value : Node)
  | append (name : String) (argument : Node)
  | extend (name : String) (argument : Node)
  | other

def form : Node → Form
  | .assign [.name id] value => .bind id none value
  | .annAssign (.name id) annot (some value) => .bind id (some annot) value
  | .augAssign (.name id) true value => .add id value
  | .expr (.call (.attr (.name id) "append") [argument] []) => .append id argument
  | .expr (.call (.attr (.name id) "extend") [argument] []) => .extend id argument
  | _ => .other

def Form.target? : Form → Option String
  | bind name _ _ | add name _ | append name _ | extend name _ => some name
  | other => none

inductive Report
  | strings (items : List String)
  | unevaluable (why : String)

abbrev Reports := Dict String Report

def Form.more : Form → Option (List String)
  | add _ value => literalStrings value
  | append _ argument => (stringOf argument).map ([·])
  | extend _ argument => literalStrings argument
  | _ => none

/-- `[*current, *literal]`, where both are lists. -/
def grown (current : Option Report) (more : Option (List String)) (why : String) : Report :=
  match current, more with
  | some (.strings items), some more => .strings (items ++ more)
  | _, _ => .unevaluable why

/-- `_apply_literal_form`: none where the statement is no form that can be read. -/
def applyLiteralForm (stmt : Stmt) (names : List String) (values : Reports) : Option Reports :=
  let line := "line " ++ toString stmt.lineno
  match form stmt.node with
  | .bind name _ value =>
    if name ∈ names then
      some (values.set name (match literalStrings value with
        | some items => .strings items
        | none =>
          .unevaluable (line ++ ": `" ++ name ++ "` is not a literal list of strings")))
    else none
  | .add name value =>
    if name ∈ names then
      some (values.set name (grown (values.get name) (Form.add name value).more
        (line ++ ": `" ++ name ++ " +=` is not a literal onto a literal")))
    else none
  | .append name argument =>
    if name ∈ names then
      some (values.set name (grown (values.get name) (Form.append name argument).more
        (line ++ ": `" ++ name ++ ".append` is not a literal onto a literal")))
    else none
  | .extend name argument =>
    if name ∈ names then
      some (values.set name (grown (values.get name) (Form.extend name argument).more
        (line ++ ": `" ++ name ++ ".extend` is not a literal onto a literal")))
    else none
  | .other => none

/-- `_mention`. -/
def mention (stmt : Stmt) (names : List String) : Option String :=
  stmt.node.walk.findSome? fun node => node.candidates.find? (· ∈ names)

/-- The body of the loop of `string_lists`. -/
def readStmt (names : List String) (values : Reports) (stmt : Stmt) : Reports :=
  match applyLiteralForm stmt names values with
  | some values => values
  | none =>
    match mention stmt names with
    | some touched =>
      values.set touched (.unevaluable ("line " ++ toString stmt.lineno ++ ": `" ++ touched ++
        "` is used in a form that is not a plain top-level literal"))
    | none => values

/-- `string_lists`. -/
def stringLists (body : List Stmt) (names : List String) : Reports :=
  body.foldl (readStmt names) []

/-- `_CONFTEST_LISTS`. -/
def conftestLists : List String := ["collect_ignore", "collect_ignore_glob"]

end DreamStudio.Conftest
