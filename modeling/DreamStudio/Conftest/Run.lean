import DreamStudio.Conftest.Lists

namespace DreamStudio.Conftest

open Library

inductive Item
  | string (value : String)
  | other (id : Nat)

inductive Value
  | list (ref : Nat)
  | tuple (items : List String)
  | other (id : Nat)

def Value.In (p : Nat → Prop) : Value → Prop
  | list ref => p ref
  | tuple _ | other _ => True

instance {p : Nat → Prop} [DecidablePred p] : (value : Value) → Decidable (value.In p)
  | .list ref => inferInstanceAs (Decidable (p ref))
  | .tuple _ | .other _ => inferInstanceAs (Decidable True)

theorem Value.In.mono {p q : Nat → Prop} {value : Value}
    (le : ∀ ref, p ref → q ref) (h : value.In p) : value.In q := by
  cases value with
  | list ref => exact le ref h
  | tuple => trivial
  | other => trivial

/-- The names of the module, the lists there are, and those that code can have hold of by other
ways than a name of the module. -/
structure State where
  names : Dict String Value
  heap : List (List Item)
  known : List Nat
  known_lt : ∀ ref ∈ known, ref < heap.length
  names_lt : ∀ name value, names.get name = some value → value.In (· < heap.length)

/-- What code does to the module: it loads, binds or deletes a name, changes a list it has hold of,
or makes one. -/
inductive Event
  | load (name : String)
  | store (name : String) (value : Value)
  | delete (name : String)
  | change (ref : Nat) (items : List Item)
  | create (items : List Item)

def Event.name? : Event → Option String
  | load name | store name _ | delete name => some name
  | change _ _ | create _ => none

namespace State

def start : State where
  names := []
  heap := []
  known := []
  known_lt := by
    intro ref mem
    cases mem
  names_lt := by
    intro name value h
    cases h

variable (σ : State)

def learn (ref : Nat) (there : ref < σ.heap.length) : State where
  names := σ.names
  heap := σ.heap
  known := ref :: σ.known
  known_lt := by
    intro other mem
    cases mem with
    | head => exact there
    | tail _ mem => exact σ.known_lt other mem
  names_lt := σ.names_lt

def put (name : String) (value : Value) (there : value.In (· < σ.heap.length)) : State where
  names := σ.names.set name value
  heap := σ.heap
  known := σ.known
  known_lt := σ.known_lt
  names_lt := by
    intro other held h
    rw [Dict.get_set] at h
    split at h
    · exact Option.some.inj h ▸ there
    · exact σ.names_lt other held h

def drop (name : String) : State where
  names := σ.names.erase name
  heap := σ.heap
  known := σ.known
  known_lt := σ.known_lt
  names_lt := by
    intro other held h
    rw [Dict.get_erase] at h
    split at h
    · cases h
    · exact σ.names_lt other held h

def edit (ref : Nat) (items : List Item) : State where
  names := σ.names
  heap := σ.heap.set ref items
  known := σ.known
  known_lt := by
    rw [List.length_set]
    exact σ.known_lt
  names_lt := by
    rw [List.length_set]
    exact σ.names_lt

def alloc (items : List Item) : State where
  names := σ.names
  heap := σ.heap ++ [items]
  known := σ.known
  known_lt := by
    intro ref mem
    have old := σ.known_lt ref mem
    rw [List.length_append]
    omega
  names_lt := by
    intro name value h
    apply (σ.names_lt name value h).mono
    intro ref old
    rw [List.length_append]
    omega

theorem alloc_there (items : List Item) : σ.heap.length < (σ.alloc items).heap.length := by
  simp [alloc]

/-- One thing is done. A name that is not bound may be a builtin, and what is done to a list takes
hold of it. -/
def apply : Event → Option State
  | .load name =>
    match h : σ.names.get name with
    | some (.list ref) => some (σ.learn ref (σ.names_lt name _ h))
    | _ => some σ
  | .store name value =>
    if held : value.In (· ∈ σ.known) then some (σ.put name value (held.mono σ.known_lt)) else none
  | .delete name => some (σ.drop name)
  | .change ref items => if ref ∈ σ.known then some (σ.edit ref items) else none
  | .create items => some ((σ.alloc items).learn σ.heap.length (σ.alloc_there items))

def bind (name : String) : Display → State
  | .list items =>
    (σ.alloc (items.map .string)).put name (.list σ.heap.length) (σ.alloc_there _)
  | .tuple items => σ.put name (.tuple items) trivial

def extend (ref : Nat) (items : List String) : State :=
  σ.edit ref (σ.heap.getD ref [] ++ items.map .string)

/-- `name +=`, `name.append` and `name.extend` with strings: a list is made longer, of a tuple only
`+=` with a tuple goes through, and what another value makes of it is not known. -/
def grow (name : String) (items : List String) (tuple : Bool) (events : List Event) :
    Option State :=
  match σ.names.get name with
  | some (.list ref) => if events.isEmpty then some (σ.extend ref items) else none
  | some (.tuple old) =>
    if tuple && events.isEmpty then some (σ.put name (.tuple (old ++ items)) trivial) else none
  | _ => events.foldlM apply σ

/-- A statement is executed. All that is known of one that is no literal form is what it does. What
follows the binding of a literal is done by its annotation, or by the value that was there. -/
def execute (stmt : Stmt) (events : List Event) : Option State :=
  match form stmt.node with
  | .bind name _ value =>
    match display value with
    | some literal => events.foldlM apply (σ.bind name literal)
    | none => events.foldlM apply σ
  | .add name value =>
    match display value with
    | some (.list items) => σ.grow name items false events
    | some (.tuple items) => σ.grow name items true events
    | none => events.foldlM apply σ
  | .append name argument =>
    match stringOf argument with
    | some item => σ.grow name [item] false events
    | none => events.foldlM apply σ
  | .extend name argument =>
    match display argument with
    | some literal => σ.grow name literal.items false events
    | none => events.foldlM apply σ
  | .other => events.foldlM apply σ

/-- The statements of a body are executed, each with what it does. -/
def run (steps : List (Stmt × List Event)) : Option State :=
  steps.foldlM (fun σ step => σ.execute step.1 step.2) σ

def Has (name : String) (items : List String) : Prop :=
  σ.names.get name = some (.tuple items) ∨
    ∃ ref, σ.names.get name = some (.list ref) ∧ σ.heap[ref]? = some (items.map .string)

/-- What is reported of a name is so. -/
def Bears (name : String) : Option Report → Prop
  | some (.strings items) => σ.Has name items
  | some (.unevaluable _) => True
  | none => σ.names.get name = none

end State

end DreamStudio.Conftest
