import DreamStudio.Library.Dict
import DreamStudio.Library.Except
import DreamStudio.Library.Walk
import Mathlib.Data.List.Dedup

namespace DreamStudio.Graph

open Library

variable {Score : Type}

structure Attributes (Score : Type) where
  name : Option String
  filePath : Option String
  type : Option String
  lines : Option Int
  complexityScore : Option Score

structure Component (Score : Type) where
  componentId : String
  name : String
  filePath : String
  type : String
  lines : Option Int
  complexityScore : Option Score

/-- A directed graph; each edge is between two of its nodes. -/
structure DiGraph (Score : Type) where
  nodes : Dict String (Attributes Score)
  edges : List (String × String)
  closed : ∀ e ∈ edges, (nodes.get e.1).isSome = true ∧ (nodes.get e.2).isSome = true

namespace DiGraph

def contains (graph : DiGraph Score) (componentId : String) : Bool :=
  (graph.nodes.get componentId).isSome

def successors (graph : DiGraph Score) (node : String) : List String :=
  (graph.edges.filter (·.1 = node)).map (·.2)

def predecessors (graph : DiGraph Score) (node : String) : List String :=
  (graph.edges.filter (·.2 = node)).map (·.1)

end DiGraph

structure SetOrder where
  iterate : List String → List String
  nodup : ∀ inserted, (iterate inserted).Nodup
  mem : ∀ inserted x, x ∈ iterate inserted ↔ x ∈ inserted

/-- `_get_component_details`. -/
def getComponentDetails (graph : DiGraph Score) (componentId : String) :
    Except String (Component Score) :=
  match graph.nodes.get componentId with
  | none => .error s!"Component '{componentId}' not found in graph"
  | some attrs =>
    .ok ⟨componentId, attrs.name.getD "", attrs.filePath.getD "", attrs.type.getD "", attrs.lines,
      attrs.complexityScore⟩

/-- The body of the loop over `current_level`: the next level and the result so far. -/
def visit (order : SetOrder) (neighbours : String → List String)
    (acc : List String × List String) (node : String) : List String × List String :=
  (acc.1 ++ order.iterate (neighbours node), acc.2 ++ order.iterate (neighbours node))

/-- `for _ in range(depth)`: what was put into the result. -/
def levels (order : SetOrder) (neighbours : String → List String) :
    Nat → List String → List String → List String
  | 0, _, found => found
  | depth + 1, currentLevel, found =>
    let (nextLevel, found) :=
      (order.iterate currentLevel).foldl (visit order neighbours) ([], found)
    if nextLevel.isEmpty then found else levels order neighbours depth nextLevel found

/-- What `get_dependencies` and `get_dependents` have in common. -/
def traverse (order : SetOrder) (neighbours : String → List String) (componentId : String)
    (depth : Int) (graph : DiGraph Score) : Except String (List (Component Score)) :=
  if graph.contains componentId then
    (order.iterate (levels order neighbours depth.toNat [componentId] [])).mapM
      (getComponentDetails graph)
  else .error s!"Component '{componentId}' not found in graph"

def getDependencies (order : SetOrder) (componentId : String) (depth : Int)
    (graph : DiGraph Score) : Except String (List (Component Score)) :=
  traverse order graph.successors componentId depth graph

def getDependents (order : SetOrder) (componentId : String) (depth : Int)
    (graph : DiGraph Score) : Except String (List (Component Score)) :=
  traverse order graph.predecessors componentId depth graph

end DreamStudio.Graph
