import Mathlib.Algebra.GroupWithZero.Nat
import Mathlib.Algebra.Order.BigOperators.Group.List
import Mathlib.Algebra.Order.Group.Nat
import Mathlib.Logic.Basic
import Mathlib.Logic.Relation

namespace DreamStudio.Library

universe u

section Walks

variable {α : Type u} {R S : α → α → Prop} {n : Nat} {x y z : α}

def Walk (R : α → α → Prop) : Nat → α → α → Prop
  | 0, x, y => x = y
  | n + 1, x, y => ∃ z, R x z ∧ Walk R n z y

namespace Walk

theorem single : Walk R 1 x y ↔ R x y := by
  constructor
  · rintro ⟨z, edge, rfl⟩
    exact edge
  · exact fun edge => ⟨y, edge, rfl⟩

theorem snoc (walk : Walk R n x y) (edge : R y z) : Walk R (n + 1) x z := by
  induction n generalizing x with
  | zero =>
    cases walk
    exact single.mpr edge
  | succ n ih =>
    obtain ⟨w, first, rest⟩ := walk
    exact ⟨w, first, ih rest⟩

theorem reverse (turned : ∀ x y, R x y → S y x) (walk : Walk R n x y) : Walk S n y x := by
  induction n generalizing x with
  | zero => exact Eq.symm walk
  | succ n ih =>
    obtain ⟨w, first, rest⟩ := walk
    exact (ih rest).snoc (turned x w first)

theorem reverse_iff (turned : ∀ x y, R x y ↔ S y x) : Walk R n x y ↔ Walk S n y x :=
  ⟨reverse fun x y => (turned x y).mp, reverse fun x y => (turned y x).mpr⟩

theorem edge_of_near (near : ∀ y z, R x y → R y z → R x z) (walk : Walk R (n + 1) x y) : R x y := by
  obtain ⟨w, first, rest⟩ := walk
  induction n generalizing w with
  | zero =>
    cases rest
    exact first
  | succ n ih =>
    obtain ⟨v, second, rest⟩ := rest
    exact ih v (near w v first second) rest

end Walk

/-- The edges of the shortest walk that has one. -/
structure Hops (R : α → α → Prop) (x y : α) (n : Nat) : Prop where
  pos : 1 ≤ n
  walk : Walk R n x y
  least : ∀ m, 1 ≤ m → Walk R m x y → n ≤ m

namespace Hops

theorem one (edge : R x y) : Hops R x y 1 :=
  ⟨Nat.le_refl 1, Walk.single.mpr edge, fun _ pos _ => pos⟩

theorem two (first : R x y) (second : R y z) (far : ¬R x z) : Hops R x z 2 := by
  refine ⟨by decide, ⟨y, first, Walk.single.mpr second⟩, fun m pos walk => ?_⟩
  rcases Nat.lt_or_ge m 2 with short | enough
  · have same : m = 1 := by omega
    rw [same, Walk.single] at walk
    exact absurd walk far
  · exact enough

theorem unique {m : Nat} (h : Hops R x y m) (h' : Hops R x y n) : m = n :=
  Nat.le_antisymm (h.least n h'.pos h'.walk) (h'.least m h.pos h.walk)

end Hops

end Walks

section Breadth

variable {α : Type u} {children : α → List α} {x y : α} {todo : List α} {fuel : Nat}

def breadth (children : α → List α) : Nat → List α → List α
  | 0, _ | _ + 1, [] => []
  | fuel + 1, x :: todo => x :: breadth children fuel (todo ++ children x)

/-- A node is below another, or that one. -/
def Within (children : α → List α) : α → α → Prop :=
  Relation.ReflTransGen fun x y => y ∈ children x

theorem within_of_mem_breadth (h : y ∈ breadth children fuel todo) :
    ∃ x ∈ todo, Within children x y := by
  induction fuel generalizing todo with
  | zero => cases h
  | succ fuel ih =>
    cases todo with
    | nil => cases h
    | cons x todo =>
      cases h with
      | head => exact ⟨_, List.mem_cons_self, .refl⟩
      | tail _ h =>
        obtain ⟨z, mem, below⟩ := ih h
        cases List.mem_append.mp mem with
        | inl mem => exact ⟨z, List.mem_cons_of_mem x mem, below⟩
        | inr child => exact ⟨x, List.mem_cons_self, .head child below⟩

theorem mem_breadth {size : α → Nat} (smaller : ∀ x, ((children x).map size).sum < size x)
    (enough : (todo.map size).sum ≤ fuel) (mem : x ∈ todo) (below : Within children x y) :
    y ∈ breadth children fuel todo := by
  induction fuel generalizing todo x with
  | zero =>
    have pos := smaller x
    have least := List.single_le_sum (fun _ _ => Nat.zero_le _)
      _ (List.mem_map_of_mem (f := size) mem)
    omega
  | succ fuel ih =>
    cases todo with
    | nil => cases mem
    | cons z todo =>
      have enough : ((todo ++ children z).map size).sum ≤ fuel := by
        have pos := smaller z
        rw [List.map_cons, List.sum_cons] at enough
        rw [List.map_append, List.sum_append]
        omega
      cases mem with
      | head =>
        cases Relation.ReflTransGen.cases_head below with
        | inl same => exact same ▸ List.mem_cons_self
        | inr down =>
          obtain ⟨c, child, below⟩ := down
          exact List.mem_cons_of_mem _ (ih enough (List.mem_append_right _ child) below)
      | tail _ mem =>
        exact List.mem_cons_of_mem _ (ih enough (List.mem_append_left _ mem) below)

end Breadth

end DreamStudio.Library
