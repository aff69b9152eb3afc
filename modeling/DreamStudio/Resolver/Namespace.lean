import DreamStudio.Library.Dict

namespace DreamStudio.Resolver

open Library

/-- What `ast.literal_eval` gives. -/
inductive Literal
  | none
  | ellipsis
  | bool (value : Bool)
  | int (value : Int)
  | float (zero negative : Bool)
  | str (value : String)
  | bytes (value : List Nat)
  | tuple (elements : List Literal)
  | list (elements : List Literal)
  | set (elements : List Literal)
  | dict (keys values : List Literal)

/-- `bool(value)`. -/
def Literal.truth : Literal → Bool
  | none => false
  | ellipsis => true
  | bool value => value
  | int value => value ≠ 0
  | float zero _ => !zero
  | str value => value ≠ ""
  | bytes value => !value.isEmpty
  | tuple elements | list elements | set elements => !elements.isEmpty
  | dict keys _ => !keys.isEmpty

/-- Whether a literal is a single `ast.Constant`; a minus sign is an `ast.UnaryOp` over one. -/
def Literal.isConstant : Literal → Bool
  | int value => 0 ≤ value
  | float _ negative => !negative
  | tuple _ | list _ | set _ | dict _ _ => false
  | _ => true

inductive Expr
  | literal (value : Literal)
  | name (id : String)

inductive Target
  | name (id : String)
  | starred (value : Target)
  | sequence (elements : List Target)

/-- The condition of an `if`. -/
inductive Test
  | literal (value : Literal)
  | name (id : String)
  /-- `….TYPE_CHECKING`. -/
  | typeChecking (text : String)
  | not (operand : Test)
  | boolOp (isOr : Bool) (values : List Test)
  /-- `__name__ == "__main__"`, or `!=`. -/
  | compareMain (equal : Bool)
  | other (text : String)

/-- What a `for` goes over: a list or tuple, or a string. -/
inductive Iter
  | display (elements : List Expr)
  | string (value : String)

inductive Stmt
  | functionDef (name : String) (node : Nat)
  | classDef (name : String) (node : Nat)
  | assign (targets : List Target) (value : Expr)
  | delete (targets : List String)
  | ifThen (test : Test) (body orelse : List Stmt)
  | forIn (target : Target) (iter : Iter) (body orelse : List Stmt)

mutual

def Target.names : Target → List String
  | .name id => [id]
  | .starred value => value.names
  | .sequence elements => namesOf elements

def namesOf : List Target → List String
  | [] => []
  | target :: targets => target.names ++ namesOf targets

end

/-- `_Binding`: `other` has the literal it was assigned, or none for `_UNKNOWN`. -/
inductive Binding
  | function (node : Nat)
  | classDef (node : Nat)
  | other (const : Option Literal)

def Binding.isOther : Binding → Bool
  | other _ => true
  | _ => false

abbrev Scope := Dict String Binding

mutual

/-- `_static_truth`. -/
def staticTruth (scope : Scope) : Test → Option Bool
  | .literal value => if value.isConstant then some value.truth else none
  | .name id =>
    if id = "TYPE_CHECKING" then some false
    else
      match scope.get id with
      | some (.other (some const)) => some const.truth
      | _ => none
  | .typeChecking _ => some false
  | .not operand => (staticTruth scope operand).map (!·)
  | .boolOp isOr values =>
    let parts := staticTruths scope values
    if some isOr ∈ parts then some isOr
    else if none ∈ parts then none else some !isOr
  | .compareMain equal => some !equal
  | .other _ => none

def staticTruths (scope : Scope) : List Test → List (Option Bool)
  | [] => []
  | value :: values => staticTruth scope value :: staticTruths scope values

end

/-- `_certainly_empty`. -/
def Iter.certainlyEmpty : Iter → Bool
  | display elements => elements.isEmpty
  | string value => value = ""

/-- `_non_empty_literal`. -/
def Iter.nonEmptyLiteral : Iter → Bool
  | display elements => !elements.isEmpty
  | string value => value ≠ ""

/-- `_set`. -/
def setBinding (scope : Scope) (name : String) (binding : Binding) (conditional : Bool) : Scope :=
  match scope.get name with
  | some bound =>
    if conditional && binding.isOther then
      if bound.isOther then scope.set name (.other none) else scope
    else scope.set name binding
  | none => scope.set name binding

/-- `_alias_binding`. -/
def aliasBinding (value : Option Expr) (scope : Scope) : Option Binding :=
  match value with
  | some (.name id) => scope.get id
  | _ => none

/-- `_literal`. -/
def literalOf : Option Expr → Option Literal
  | some (.literal value) => some value
  | _ => none

/-- `_bind_target`. -/
def bindTarget (target : Target) (value : Option Expr) (scope : Scope) (conditional : Bool) :
    Scope :=
  match target with
  | .name id =>
    match aliasBinding value scope with
    | some bound => setBinding scope id bound conditional
    | none => setBinding scope id (.other (literalOf value)) conditional
  | target => target.names.foldl (fun scope id => setBinding scope id (.other none) conditional)
    scope

mutual

/-- `_bind_stmt`. -/
def bindStmt (scope : Scope) (cond : Bool) : Stmt → Scope
  | .functionDef name node => scope.set name (.function node)
  | .classDef name node => scope.set name (.classDef node)
  | .assign targets value =>
    targets.foldl (fun scope target => bindTarget target (some value) scope cond) scope
  | .delete targets => if cond then scope else targets.foldl Dict.erase scope
  | .ifThen test body orelse =>
    match staticTruth scope test with
    | some true => bindBody scope cond body
    | some false => bindBody scope cond orelse
    | none => bindBody (bindBody scope true body) true orelse
  | .forIn target iter body orelse =>
    if iter.certainlyEmpty then bindBody scope cond orelse
    else
      let conditional := cond || !iter.nonEmptyLiteral
      bindBody (bindBody (bindTarget target none scope conditional) conditional body) true orelse

/-- `_bind_body`. -/
def bindBody (scope : Scope) (cond : Bool) : List Stmt → Scope
  | [] => scope
  | stmt :: body => bindBody (bindStmt scope cond stmt) cond body

end

/-- `_Module.scope`. -/
def moduleScope (body : List Stmt) : Scope := bindBody [] false body

mutual

/-- Each test is decided where `_bind_stmt` meets it. -/
def Decided (scope : Scope) (cond : Bool) : Stmt → Prop
  | .ifThen test body orelse =>
    match staticTruth scope test with
    | some true => DecidedBody scope cond body
    | some false => DecidedBody scope cond orelse
    | none => False
  | .forIn target iter body orelse =>
    if iter.certainlyEmpty then DecidedBody scope cond orelse
    else
      let conditional := cond || !iter.nonEmptyLiteral
      DecidedBody (bindTarget target none scope conditional) conditional body ∧
        DecidedBody (bindBody (bindTarget target none scope conditional) conditional body) true
          orelse
  | _ => True

def DecidedBody (scope : Scope) (cond : Bool) : List Stmt → Prop
  | [] => True
  | stmt :: body => Decided scope cond stmt ∧ DecidedBody (bindStmt scope cond stmt) cond body

end

end DreamStudio.Resolver
