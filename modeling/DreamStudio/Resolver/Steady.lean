import DreamStudio.Resolver.Execution

namespace DreamStudio.Resolver

open Library

/-- What the reading of a body tells apart in a value. -/
inductive Kind
  | object (made : Object)
  | literal (value : Literal)
  | item

def Value.kind : Value → Kind
  | object made => .object made
  | assigned literal => .literal literal
  | item _ => .item

def kindOf (σ : State) (name : String) : Option Kind := (σ.get name).map Value.kind

/-- No function or class is bound to the name. -/
def Plain (σ : State) (name : String) : Prop := ∀ made, kindOf σ name ≠ some (.object made)

/-- Each pass after the first, from the state the one before it left. -/
def Passes (bind : State → Value → Option State) (body : State → Option State)
    (meets : State → Prop) : List Value → State → Prop
  | [], _ => True
  | value :: values, σ => ∀ σ₁, bind σ value = some σ₁ →
    meets σ₁ ∧ ∀ σ₂, body σ₁ = some σ₂ → Passes bind body meets values σ₂

namespace Python

variable (py : Python)

mutual

/-- What `_static_truth` takes for granted holds where the test is evaluated. -/
def Assumed (σ : State) : Test → Prop
  | .name id => id = "TYPE_CHECKING" → ∀ value ∈ σ.get id, value.truth = false
  | .typeChecking text => py.truth text σ ≠ some true
  | .not operand => Assumed σ operand
  | .boolOp _ values => AssumedAll σ values
  | .compareMain _ =>
    ∀ value ∈ σ.get "__name__", ∀ name, value.literal? = some (.str name) → name ≠ "__main__"
  | _ => True

def AssumedAll (σ : State) : List Test → Prop
  | [] => True
  | value :: values => Assumed σ value ∧ AssumedAll σ values

end

mutual

/-- A second run of a statement finds what the first one found: in each assignment of a name the
same function, class or assigned literal, and in each test the same truth. -/
def Again (σ τ : State) : Stmt → Prop
  | .assign _ (.name id) => kindOf σ id = kindOf τ id
  | .ifThen test body orelse =>
    py.evalTest σ test = py.evalTest τ test ∧
      ∀ truth, py.evalTest σ test = some truth →
        if truth then AgainBody σ τ body else AgainBody σ τ orelse
  | .forIn target iter body orelse =>
    (∀ v vs w ws, items σ iter = some (v :: vs) → items τ iter = some (w :: ws) →
      ∀ σ₁ τ₁, py.assign σ target v = some σ₁ → py.assign τ target w = some τ₁ →
        AgainBody σ₁ τ₁ body) ∧
    ∀ σ₁ τ₁, py.loop σ target iter (py.execBody · body) = some σ₁ →
      py.loop τ target iter (py.execBody · body) = some τ₁ → AgainBody σ₁ τ₁ orelse
  | _ => True

def AgainBody (σ τ : State) : List Stmt → Prop
  | [] => True
  | stmt :: body => Again σ τ stmt ∧
    ∀ σ₁ τ₁, py.execStmt σ stmt = some σ₁ → py.execStmt τ stmt = some τ₁ → AgainBody σ₁ τ₁ body

end

mutual

/-- The conditions of the steps. What is taken out of a `for`'s list is data, and each pass of its
body after the first finds what the first one found. Where a statement of an `else` assigns data
or deletes, the name is no function or class. -/
def Steady (cond : Bool) (σ : State) : Stmt → Prop
  | .assign targets value => cond = true → (∀ made, evalExpr σ value ≠ some (.object made)) →
    ∀ id ∈ namesOf targets, Plain σ id
  | .delete targets => cond = true → ∀ id ∈ targets, Plain σ id
  | .ifThen test body orelse => py.Assumed σ test ∧
    ∀ truth, py.evalTest σ test = some truth →
      if truth then SteadyBody cond σ body else SteadyBody cond σ orelse
  | .forIn target iter body orelse =>
    (∀ values, items σ iter = some values → (∀ value ∈ values, ∀ made, value ≠ .object made) ∧
      match values with
      | [] => True
      | value :: values => (cond = true → ∀ id ∈ target.names, Plain σ id) ∧
        ∀ σ₁, py.assign σ target value = some σ₁ → SteadyBody cond σ₁ body ∧
          ∀ σ₂, py.execBody σ₁ body = some σ₂ →
            Passes (py.assign · target) (py.execBody · body)
              (fun τ => py.AgainBody σ₁ τ body ∧ SteadyBody false τ body) values σ₂) ∧
    ∀ σ₁, py.loop σ target iter (py.execBody · body) = some σ₁ →
      SteadyBody (cond || !iter.certainlyEmpty) σ₁ orelse
  | _ => True

def SteadyBody (cond : Bool) (σ : State) : List Stmt → Prop
  | [] => True
  | stmt :: body => Steady cond σ stmt ∧
    ∀ σ₁, py.execStmt σ stmt = some σ₁ → SteadyBody cond σ₁ body

end

/-- What is read agrees with what is executed, for a body whose tests are all decided. -/
def Executes (names : Dict String Literal) (body : List Stmt) : Prop :=
  DecidedBody [] false body → ∀ σ, py.execBody (start names) body = some σ →
    Agrees (moduleScope body) σ

end Python

end DreamStudio.Resolver
