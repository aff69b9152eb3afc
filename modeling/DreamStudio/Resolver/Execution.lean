import DreamStudio.Resolver.Namespace

namespace DreamStudio.Resolver

open Library

inductive Object
  | function (node : Nat)
  | classDef (node : Nat)
  deriving DecidableEq

inductive Value
  | object (made : Object)
  | assigned (literal : Literal)
  | item (literal : Literal)

namespace Value

def truth : Value → Bool
  | object _ => true
  | assigned literal | item literal => literal.truth

/-- The value as an element of what it was taken out of. -/
def taken : Value → Value
  | assigned literal => item literal
  | value => value

def literal? : Value → Option Literal
  | object _ => none
  | assigned literal | item literal => some literal

def object? : Value → Option Object
  | object made => some made
  | _ => none

end Value

abbrev State := Dict String Value

/-- What the language does beyond names: what a literal has when it is unpacked, and the truth of
an expression, or none where it raises. -/
structure Python where
  iterate : Literal → Option (List Literal)
  truth : String → State → Option Bool

namespace Python

variable (py : Python)

def isStarred : Target → Bool
  | .starred _ => true
  | _ => false

mutual

def unpack : Target → Value → Option (List (String × Value))
  | .name id, value => some [(id, value)]
  | .starred target, .item value => unpack target (.item value)
  | .starred _, _ => none
  | .sequence targets, value =>
    (value.literal?.bind py.iterate).bind (unpackAll targets)

def unpackAll : List Target → List Literal → Option (List (String × Value))
  | [], [] => some []
  | [], _ :: _ => none
  | target :: targets, items =>
    if isStarred target then
      if items.length < targets.length then none
      else
        let most := items.length - targets.length
        (unpack target (.item (.list (items.take most)))).bind fun first =>
          (unpackAll targets (items.drop most)).map (first ++ ·)
    else
      match items with
      | [] => none
      | item :: items =>
        (unpack target (.item item)).bind fun first =>
          (unpackAll targets items).map (first ++ ·)

end

def assign (σ : State) (target : Target) (value : Value) : Option State :=
  (py.unpack target value).map fun bound => bound.foldl (fun σ item => σ.set item.1 item.2) σ

def evalExpr (σ : State) : Expr → Option Value
  | .literal value => some (.assigned value)
  | .name id => σ.get id

def delete (σ : State) (name : String) : Option State :=
  if (σ.get name).isSome then some (σ.erase name) else none

/-- The elements a `for` goes over. -/
def items (σ : State) : Iter → Option (List Value)
  | .display elements => elements.mapM fun element => (evalExpr σ element).map Value.taken
  | .string value => some (value.toList.map fun c => .item (.str (String.singleton c)))

mutual

def evalTest (σ : State) : Test → Option Bool
  | .literal value => some value.truth
  | .name id => (σ.get id).map Value.truth
  | .typeChecking text => py.truth text σ
  | .not operand => (evalTest σ operand).map (!·)
  | .boolOp isOr values => evalTests σ isOr values
  | .compareMain equal =>
    (σ.get "__name__").map fun value =>
      match value.literal? with
      | some (.str name) => (name = "__main__") = equal
      | _ => !equal
  | .other text => py.truth text σ

/-- `and` and `or` stop at the first value that decides. -/
def evalTests (σ : State) (isOr : Bool) : List Test → Option Bool
  | [] => some !isOr
  | value :: values =>
    (evalTest σ value).bind fun truth =>
      if truth = isOr then some isOr else evalTests σ isOr values

end

/-- The passes of a `for`, each over the state of the one before it. -/
def loop (σ : State) (target : Target) (iter : Iter) (run : State → Option State) : Option State :=
  (items σ iter).bind fun values =>
    values.foldlM (fun σ value => (py.assign σ target value).bind run) σ

mutual

def execStmt (σ : State) : Stmt → Option State
  | .functionDef name node => some (σ.set name (.object (.function node)))
  | .classDef name node => some (σ.set name (.object (.classDef node)))
  | .assign targets value =>
    (evalExpr σ value).bind fun value => targets.foldlM (fun σ target => py.assign σ target value) σ
  | .delete targets => targets.foldlM delete σ
  | .ifThen test body orelse =>
    (py.evalTest σ test).bind fun truth =>
      if truth then execBody σ body else execBody σ orelse
  | .forIn target iter body orelse =>
    (py.loop σ target iter fun σ => execBody σ body).bind fun σ => execBody σ orelse

def execBody (σ : State) : List Stmt → Option State
  | [] => some σ
  | stmt :: body => (execStmt σ stmt).bind fun σ => execBody σ body

end

end Python

/-- The names a module has before its body is executed. -/
def start (names : Dict String Literal) : State := names.map fun item => (item.1, .assigned item.2)

def Binding.object? : Binding → Option Object
  | function node => some (.function node)
  | classDef node => some (.classDef node)
  | other _ => none

/-- The names bound to functions and classes, and their nodes, are those of the execution. -/
def Agrees (scope : Scope) (σ : State) : Prop :=
  ∀ name, (scope.get name).bind Binding.object? = (σ.get name).bind Value.object?

end DreamStudio.Resolver
