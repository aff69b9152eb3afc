import Mathlib.Data.Fintype.Order
import Mathlib.Data.List.Nodup
import Mathlib.Data.Set.Finite.List
import Mathlib.Logic.Relation
import Mathlib.Order.WellFounded

namespace DreamStudio.Library

universe u

section Cycles

variable {α : Type u}

open Relation

/-- Nothing leads back to itself. -/
def Acyclic (R : α → α → Prop) : Prop := ∀ x, ¬TransGen R x x

namespace Acyclic

variable {R R' : α → α → Prop}

theorem mono (acyclic : Acyclic R) (sub : ∀ x y, R' x y → R x y) : Acyclic R' :=
  fun x loop => acyclic x (TransGen.mono sub _ _ loop)

theorem trans_of_add {w d x y : α} (path : TransGen (fun x y => R x y ∨ x = w ∧ y = d) x y) :
    TransGen R x y ∨ ReflTransGen R x w ∧ ReflTransGen R d y := by
  induction path with
  | single edge =>
    rcases edge with old | ⟨rfl, rfl⟩
    · exact Or.inl (.single old)
    · exact Or.inr ⟨.refl, .refl⟩
  | tail _ edge ih =>
    rcases ih with path | ⟨start, rest⟩ <;> rcases edge with old | ⟨rfl, rfl⟩
    · exact Or.inl (path.tail old)
    · exact Or.inr ⟨path.to_reflTransGen, .refl⟩
    · exact Or.inr ⟨start, rest.tail old⟩
    · exact Or.inr ⟨start, .refl⟩

theorem add (acyclic : Acyclic R) {w d : α} (apart : ¬ReflTransGen R d w) :
    Acyclic fun x y => R x y ∨ x = w ∧ y = d := by
  intro x loop
  rcases trans_of_add loop with old | ⟨start, rest⟩
  · exact acyclic x old
  · exact apart (rest.trans start)

theorem exists_terminal (acyclic : Acyclic R) {xs : List α} (nonempty : xs ≠ []) :
    ∃ x ∈ xs, ∀ y ∈ xs, ¬R x y := by
  let leads : {x // x ∈ xs} → {x // x ∈ xs} → Prop := fun x y => TransGen R y.1 x.1
  have : IsTrans _ leads := ⟨fun _ _ _ later sooner => sooner.trans later⟩
  have : Std.Irrefl leads := ⟨fun x => acyclic x.1⟩
  have : Finite {x // x ∈ xs} := xs.finite_toSet.to_subtype
  have wf : WellFounded leads := Finite.wellFounded_of_trans_of_irrefl leads
  obtain ⟨x, member⟩ := List.exists_mem_of_ne_nil xs nonempty
  obtain ⟨⟨last, held⟩, -, least⟩ := wf.has_min Set.univ ⟨⟨x, member⟩, trivial⟩
  exact ⟨last, held, fun y later edge => least ⟨y, later⟩ trivial (.single edge)⟩

end Acyclic

end Cycles

section Precedence

variable {α : Type u} {sequences sequences' : List (List α)} {x y : α}

open Relation

/-- One stands before the other in one of the sequences. -/
def Precedes (sequences : List (List α)) (x y : α) : Prop := ∃ s ∈ sequences, [x, y].Sublist s

namespace Precedes

theorem mono (sub : ∀ s ∈ sequences', ∃ t ∈ sequences, s.Sublist t)
    (precedes : Precedes sequences' x y) : Precedes sequences x y := by
  obtain ⟨s, member, before⟩ := precedes
  obtain ⟨t, found, within⟩ := sub s member
  exact ⟨t, found, before.trans within⟩

theorem pairwise_idxOf [DecidableEq α] {merged : List α} (nodup : merged.Nodup) :
    merged.Pairwise fun x y => merged.idxOf x < merged.idxOf y := by
  rw [List.pairwise_iff_getElem]
  intro i j hi hj before
  rw [nodup.idxOf_getElem, nodup.idxOf_getElem]
  exact before

theorem acyclic [DecidableEq α] {merged : List α} (nodup : merged.Nodup)
    (found : ∀ s ∈ sequences, s.Sublist merged) : Acyclic (Precedes sequences) := by
  have grows : ∀ x y, Precedes sequences x y → merged.idxOf x < merged.idxOf y := by
    rintro x y ⟨s, member, before⟩
    exact (pairwise_idxOf nodup).forall_sublist (before.trans (found s member))
  intro x loop
  have path : ∀ y, TransGen (Precedes sequences) x y → merged.idxOf x < merged.idxOf y := by
    intro y path
    induction path with
    | single edge => exact grows _ _ edge
    | tail _ edge ih => exact ih.trans (grows _ _ edge)
  exact lt_irrefl _ (path x loop)

theorem exists_head (acyclic : Acyclic (Precedes sequences)) (some : sequences ≠ [])
    (filled : ∀ s ∈ sequences, s ≠ []) :
    ∃ s ∈ sequences, ∃ head ∈ s.head?, ∀ t ∈ sequences, head ∉ t.tail := by
  have back : Acyclic fun x y => Precedes sequences y x := by
    intro x loop
    exact acyclic x (transGen_swap.mp loop)
  have heads : sequences.filterMap List.head? ≠ [] := by
    obtain ⟨s, member⟩ := List.exists_mem_of_ne_nil sequences some
    cases s with
    | nil => exact absurd rfl (filled [] member)
    | cons h s => exact List.ne_nil_of_mem (List.mem_filterMap.mpr ⟨h :: s, member, rfl⟩)
  obtain ⟨head, first, last⟩ := back.exists_terminal heads
  obtain ⟨s, member, here⟩ := List.mem_filterMap.mp first
  refine ⟨s, member, head, here, ?_⟩
  intro t inside behind
  cases t with
  | nil => cases behind
  | cons h t =>
    apply last h (List.mem_filterMap.mpr ⟨h :: t, inside, rfl⟩)
    exact ⟨h :: t, inside, (List.singleton_sublist.mpr behind).cons_cons h⟩

end Precedes

end Precedence

end DreamStudio.Library
