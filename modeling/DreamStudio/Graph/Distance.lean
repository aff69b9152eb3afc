import DreamStudio.Graph.Traversal

namespace DreamStudio.Graph

open Library

variable {Score : Type}

def ids (components : List (Component Score)) : List String := components.map (·.componentId)

def DiGraph.Edge (graph : DiGraph Score) (x y : String) : Prop := (x, y) ∈ graph.edges

/-- Each component of the graph that a walk of one edge or more, and no more than the depth, leads
to, once. -/
structure Exact (graph : DiGraph Score) (R : String → String → Prop) (componentId : String)
    (depth : Int) (result : List (Component Score)) : Prop where
  nodup : (ids result).Nodup
  mem : ∀ b, b ∈ ids result ↔ ∃ n : Nat, 1 ≤ n ∧ (n : Int) ≤ depth ∧ Walk R n componentId b
  details : ∀ c ∈ result, getComponentDetails graph c.componentId = .ok c

def Ordered (R : String → String → Prop) (componentId : String)
    (result : List (Component Score)) : Prop :=
  (ids result).Pairwise fun b c =>
    ∀ m n, Hops R componentId b m → Hops R componentId c n → m ≤ n

/-- Both traversals are exact and ordered, whatever order sets are iterated in, and each is the
other's reverse. -/
structure Traverses (graph : DiGraph Score) (componentId : String) (depth : Int) : Prop where
  dependencies : ∀ order, ∃ result, getDependencies order componentId depth graph = .ok result ∧
    Exact graph graph.Edge componentId depth result ∧ Ordered graph.Edge componentId result
  dependents : ∀ order, ∃ result, getDependents order componentId depth graph = .ok result ∧
    Exact graph (fun x y => graph.Edge y x) componentId depth result ∧
    Ordered (fun x y => graph.Edge y x) componentId result
  dual : ∀ order order' b result result', getDependencies order componentId depth graph =
    .ok result →
    getDependents order' b depth graph = .ok result' → (b ∈ ids result ↔ componentId ∈ ids result')

/-- No more than one edge is followed, or what two lead to one leads to. -/
def Near (R : String → String → Prop) (componentId : String) (depth : Int) : Prop :=
  depth ≤ 1 ∨ ∀ b c, R componentId b → R b c → R componentId c

section Levels

variable {order : SetOrder} {neighbours : String → List String} {R : String → String → Prop}
  {acc : List String × List String} {nodes current found : List String} {x : String} {n : Nat}

theorem mem_visit :
    (x ∈ (nodes.foldl (visit order neighbours) acc).1 ↔
      x ∈ acc.1 ∨ ∃ node ∈ nodes, x ∈ neighbours node) ∧
    (x ∈ (nodes.foldl (visit order neighbours) acc).2 ↔
      x ∈ acc.2 ∨ ∃ node ∈ nodes, x ∈ neighbours node) := by
  induction nodes generalizing acc with
  | nil => simp
  | cons node nodes ih =>
    rw [List.foldl_cons, ih.1, ih.2, visit]
    simp only [List.mem_append, order.mem, List.exists_mem_cons_iff, or_assoc, and_self]

theorem mem_levels (linked : ∀ x y, y ∈ neighbours x ↔ R x y) :
    x ∈ levels order neighbours n current found ↔
      x ∈ found ∨ ∃ c ∈ current, ∃ k, 1 ≤ k ∧ k ≤ n ∧ Walk R k c x := by
  induction n generalizing current found with
  | zero =>
    rw [levels, or_iff_left]
    rintro ⟨c, -, k, pos, most, -⟩
    omega
  | succ n ih =>
    have level := fun y => @mem_visit order neighbours ([], found) (order.iterate current) y
    simp only [List.not_mem_nil, false_or, order.mem, linked] at level
    rw [levels]
    dsimp only
    generalize (order.iterate current).foldl (visit order neighbours) ([], found) = after at level
    have later : (x ∈ after.2 ∨ ∃ c ∈ after.1, ∃ k, 1 ≤ k ∧ k ≤ n ∧ Walk R k c x) ↔
        x ∈ found ∨ ∃ c ∈ current, ∃ k, 1 ≤ k ∧ k ≤ n + 1 ∧ Walk R k c x := by
      rw [(level x).2, or_assoc]
      apply or_congr_right
      constructor
      · rintro (⟨c, here, edge⟩ | ⟨y, next, k, pos, most, walk⟩)
        · exact ⟨c, here, 1, Nat.le_refl 1, Nat.le_add_left 1 n, Walk.single.mpr edge⟩
        · obtain ⟨c, here, edge⟩ := (level y).1.mp next
          exact ⟨c, here, k + 1, Nat.le_add_left 1 k, Nat.succ_le_succ most, y, edge, walk⟩
      · rintro ⟨c, here, k, pos, most, walk⟩
        obtain ⟨k, rfl⟩ := Nat.exists_eq_add_of_le' pos
        obtain ⟨y, edge, walk⟩ := walk
        cases k with
        | zero =>
          cases walk
          exact Or.inl ⟨c, here, edge⟩
        | succ k =>
          have next := (level y).1.mpr ⟨c, here, edge⟩
          exact Or.inr ⟨y, next, k + 1, Nat.le_add_left 1 k, Nat.le_of_succ_le_succ most, walk⟩
    rw [← later]
    split
    next none =>
      rw [List.isEmpty_iff.mp none]
      simp
    · exact ih

end Levels

section Result

variable {graph : DiGraph Score} {order : SetOrder} {neighbours : String → List String}
  {R : String → String → Prop} {componentId : String} {depth : Int}
  {result : List (Component Score)}

theorem getComponentDetails_of_contains {b : String} (inside : graph.contains b = true) :
    ∃ c, getComponentDetails graph b = .ok c ∧ c.componentId = b := by
  obtain ⟨attrs, found⟩ := Option.isSome_iff_exists.mp inside
  exact ⟨_, by rw [getComponentDetails, found], rfl⟩

theorem mapM_details {names : List String} (inside : ∀ b ∈ names, graph.contains b = true) :
    ∃ result, names.mapM (getComponentDetails graph) = .ok result ∧ ids result = names ∧
      ∀ c ∈ result, getComponentDetails graph c.componentId = .ok c := by
  induction names with
  | nil => exact ⟨[], rfl, rfl, by simp⟩
  | cons b names ih =>
    rw [List.forall_mem_cons] at inside
    obtain ⟨c, found, rfl⟩ := getComponentDetails_of_contains inside.1
    obtain ⟨result, rest, same, details⟩ := ih inside.2
    refine ⟨c :: result, ?_, congrArg (_ :: ·) same, List.forall_mem_cons.mpr ⟨found, details⟩⟩
    rw [List.mapM_cons, found, rest]
    rfl

theorem contains_of_walk (linked : ∀ x y, R x y → graph.contains y = true) {n : Nat} {x y : String}
    (pos : 1 ≤ n) (walk : Walk R n x y) : graph.contains y = true := by
  obtain ⟨n, rfl⟩ := Nat.exists_eq_add_of_le' pos
  induction n generalizing x with
  | zero => exact linked x y (Walk.single.mp walk)
  | succ n ih =>
    obtain ⟨z, -, walk⟩ := walk
    exact ih (Nat.le_add_left 1 n) walk

variable (order depth) in
theorem traverse_spec (linked : ∀ x y, y ∈ neighbours x ↔ R x y)
    (nodes : ∀ x y, R x y → graph.contains y = true) (inside : graph.contains componentId = true) :
    ∃ result, traverse order neighbours componentId depth graph = .ok result ∧
      ids result = order.iterate (levels order neighbours depth.toNat [componentId] []) ∧
      Exact graph R componentId depth result := by
  have reached : ∀ b, b ∈ order.iterate (levels order neighbours depth.toNat [componentId] []) ↔
      ∃ n : Nat, 1 ≤ n ∧ (n : Int) ≤ depth ∧ Walk R n componentId b := by
    intro b
    rw [order.mem, mem_levels linked]
    simp only [List.not_mem_nil, false_or, List.mem_singleton, exists_eq_left]
    apply exists_congr
    intro n
    constructor
    · rintro ⟨pos, most, walk⟩
      exact ⟨pos, by omega, walk⟩
    · rintro ⟨pos, most, walk⟩
      exact ⟨pos, by omega, walk⟩
  have known : ∀ b ∈ order.iterate (levels order neighbours depth.toNat [componentId] []),
      graph.contains b = true := by
    intro b member
    obtain ⟨n, pos, -, walk⟩ := (reached b).mp member
    exact contains_of_walk nodes pos walk
  obtain ⟨result, ran, names, details⟩ := mapM_details known
  refine ⟨result, (if_pos inside).trans ran, names, ?_, ?_, details⟩
  · rw [names]
    exact order.nodup _
  · rw [names]
    exact reached

def first (name : String) : SetOrder where
  iterate inserted :=
    if name ∈ inserted then name :: inserted.dedup.erase name else inserted.dedup
  nodup inserted := by
    split
    · exact List.nodup_cons.mpr
        ⟨(List.nodup_dedup inserted).not_mem_erase, (List.nodup_dedup inserted).erase name⟩
    · exact List.nodup_dedup inserted
  mem inserted x := by
    split
    next inside =>
      rw [List.mem_cons, (List.nodup_dedup inserted).mem_erase_iff, List.mem_dedup]
      by_cases same : x = name
      · simp [same, inside]
      · simp [same]
    · exact List.mem_dedup

theorem ordered_of_near (near : Near R componentId depth)
    (exact_ : Exact graph R componentId depth result) : Ordered R componentId result := by
  have one : ∀ b ∈ ids result, R componentId b := by
    intro b member
    obtain ⟨n, pos, most, walk⟩ := (exact_.mem b).mp member
    rcases near with flat | closed
    · have same : n = 1 := by omega
      rw [same] at walk
      exact Walk.single.mp walk
    · obtain ⟨n, rfl⟩ := Nat.exists_eq_add_of_le' pos
      exact walk.edge_of_near closed
  apply List.Pairwise.imp_of_mem (R := fun _ _ => True)
  · intro b c member _ _ m n here later
    rw [here.unique (Hops.one (one b member))]
    exact later.pos
  · exact List.pairwise_of_forall fun _ _ => trivial

theorem near_of_ordered (linked : ∀ x y, y ∈ neighbours x ↔ R x y)
    (nodes : ∀ x y, R x y → graph.contains y = true) (inside : graph.contains componentId = true)
    (ordered : ∀ order, ∃ result, traverse order neighbours componentId depth graph = .ok result ∧
      Exact graph R componentId depth result ∧ Ordered R componentId result) :
    Near R componentId depth := by
  rw [Near, or_iff_not_imp_left]
  intro deep b c edge edge'
  by_contra far
  obtain ⟨result, ran, exact_, sorted⟩ := ordered (first c)
  obtain ⟨result', ran', names, -⟩ :=
    traverse_spec (first c) depth linked nodes inside
  cases ran.symm.trans ran'
  have behind : c ∈ ids result :=
    (exact_.mem c).mpr ⟨2, by decide, by omega, b, edge, c, edge', rfl⟩
  have before : b ∈ ids result := (exact_.mem b).mpr ⟨1, by decide, by omega, b, edge, rfl⟩
  have put : c ∈ levels (first c) neighbours depth.toNat [componentId] [] := by
    rwa [names, (first c).mem] at behind
  have front : ids result = c ::
      (levels (first c) neighbours depth.toNat [componentId] []).dedup.erase c :=
    names.trans (if_pos put)
  have apart : b ≠ c := by
    rintro rfl
    exact far edge
  rw [front, List.mem_cons, or_iff_right apart] at before
  rw [Ordered, front, List.pairwise_cons] at sorted
  have short := sorted.1 b before 2 1 (Hops.two edge edge' far) (Hops.one edge)
  omega

theorem traverse_iff (linked : ∀ x y, y ∈ neighbours x ↔ R x y)
    (nodes : ∀ x y, R x y → graph.contains y = true) (inside : graph.contains componentId = true) :
    (∀ order, ∃ result, traverse order neighbours componentId depth graph = .ok result ∧
      Exact graph R componentId depth result ∧ Ordered R componentId result) ↔
      Near R componentId depth := by
  constructor
  · exact near_of_ordered linked nodes inside
  · intro near order
    obtain ⟨result, ran, -, exact_⟩ := traverse_spec order depth linked nodes inside
    exact ⟨result, ran, exact_, ordered_of_near near exact_⟩

end Result

namespace DiGraph

variable {graph : DiGraph Score} {x y : String}

theorem mem_successors : y ∈ graph.successors x ↔ graph.Edge x y := by
  simp only [successors, Edge, List.mem_map, List.mem_filter, decide_eq_true_eq]
  constructor
  · rintro ⟨e, ⟨member, rfl⟩, rfl⟩
    exact member
  · exact fun member => ⟨(x, y), ⟨member, rfl⟩, rfl⟩

theorem mem_predecessors : y ∈ graph.predecessors x ↔ graph.Edge y x := by
  simp only [predecessors, Edge, List.mem_map, List.mem_filter, decide_eq_true_eq]
  constructor
  · rintro ⟨e, ⟨member, rfl⟩, rfl⟩
    exact member
  · exact fun member => ⟨(y, x), ⟨member, rfl⟩, rfl⟩

theorem contains_of_edge (edge : graph.Edge x y) :
    graph.contains x = true ∧ graph.contains y = true := graph.closed (x, y) edge

end DiGraph

section Dual

variable {graph : DiGraph Score} {componentId : String} {depth : Int} {order : SetOrder}
  {result : List (Component Score)}

theorem contains_of_traverse {neighbours : String → List String}
    (ran : traverse order neighbours componentId depth graph = .ok result) :
    graph.contains componentId = true := by
  rw [traverse] at ran
  split at ran
  next inside => exact inside
  · cases ran

variable (depth) in
theorem dependencies_iff (inside : graph.contains componentId = true) :
    (∀ order, ∃ result, getDependencies order componentId depth graph = .ok result ∧
      Exact graph graph.Edge componentId depth result ∧ Ordered graph.Edge componentId result) ↔
      Near graph.Edge componentId depth :=
  traverse_iff (fun _ _ => DiGraph.mem_successors)
    (fun _ _ edge => (DiGraph.contains_of_edge edge).2) inside

variable (depth) in
theorem dependents_iff (inside : graph.contains componentId = true) :
    (∀ order, ∃ result, getDependents order componentId depth graph = .ok result ∧
      Exact graph (fun x y => graph.Edge y x) componentId depth result ∧
      Ordered (fun x y => graph.Edge y x) componentId result) ↔
      Near (fun x y => graph.Edge y x) componentId depth :=
  traverse_iff (fun _ _ => DiGraph.mem_predecessors)
    (fun _ _ edge => (DiGraph.contains_of_edge edge).1) inside

theorem exact_dependencies (ran : getDependencies order componentId depth graph = .ok result) :
    Exact graph graph.Edge componentId depth result := by
  obtain ⟨result', ran', -, exact_⟩ := traverse_spec order depth
    (fun x y => DiGraph.mem_successors) (fun x y edge => (DiGraph.contains_of_edge edge).2)
    (contains_of_traverse ran)
  cases ran.symm.trans ran'
  exact exact_

theorem exact_dependents (ran : getDependents order componentId depth graph = .ok result) :
    Exact graph (fun x y => graph.Edge y x) componentId depth result := by
  obtain ⟨result', ran', -, exact_⟩ := traverse_spec order depth
    (R := fun x y => graph.Edge y x) (fun x y => DiGraph.mem_predecessors)
    (fun x y edge => (DiGraph.contains_of_edge edge).1) (contains_of_traverse ran)
  cases ran.symm.trans ran'
  exact exact_

theorem dual {order' : SetOrder} {b : String} {result' : List (Component Score)}
    (ran : getDependencies order componentId depth graph = .ok result)
    (ran' : getDependents order' b depth graph = .ok result') :
    b ∈ ids result ↔ componentId ∈ ids result' := by
  rw [(exact_dependencies ran).mem, (exact_dependents ran').mem]
  apply exists_congr
  intro n
  rw [Walk.reverse_iff (S := fun x y => graph.Edge y x) (fun x y => Iff.rfl)]

end Dual

/-- The traversals are exact, ordered and each other's reverse exactly where all that each of them
finds is one edge away. -/
theorem traverses_iff (graph : DiGraph Score) (componentId : String) (depth : Int)
    (inside : graph.contains componentId = true) :
    Traverses graph componentId depth ↔
      Near graph.Edge componentId depth ∧ Near (fun x y => graph.Edge y x) componentId depth := by
  have forward := dependencies_iff depth inside
  have backward := dependents_iff depth inside
  constructor
  · rintro ⟨dependencies, dependents, -⟩
    exact ⟨forward.mp dependencies, backward.mp dependents⟩
  · rintro ⟨near, near'⟩
    exact ⟨forward.mpr near, backward.mpr near', fun _ _ _ _ _ ran ran' => dual ran ran'⟩

def chain : DiGraph Unit where
  nodes := [("a", ⟨none, none, none, none, none⟩), ("b", ⟨none, none, none, none, none⟩),
    ("c", ⟨none, none, none, none, none⟩)]
  edges := [("a", "b"), ("b", "c")]
  closed := by decide

theorem traverses_chain :
    Traverses chain "c" 1 ↔
      Near chain.Edge "c" 1 ∧ Near (fun x y => chain.Edge y x) "c" 1 :=
  traverses_iff chain "c" 1 (by decide)

/-- Of a chain the far end may come first. -/
theorem chain_unordered : ¬Traverses chain "a" 2 := by
  rintro ⟨dependencies, -, -⟩
  rcases (dependencies_iff 2 (by decide)).mp dependencies with flat | closed
  · exact absurd flat (by decide)
  · have far := closed "b" "c" List.mem_cons_self (List.mem_cons_of_mem _ List.mem_cons_self)
    simp [DiGraph.Edge, chain] at far

end DreamStudio.Graph
