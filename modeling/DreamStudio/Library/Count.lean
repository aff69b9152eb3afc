import Mathlib.Algebra.GroupWithZero.Nat
import Mathlib.Algebra.Order.BigOperators.Group.List
import Mathlib.Algebra.Order.Group.Nat
import Mathlib.Data.Finset.Card
import Mathlib.Data.Finset.Union
import Mathlib.Data.List.Perm.Subperm
import Mathlib.Data.List.Sort

namespace DreamStudio.Library

universe u v

section Count

variable {ι : Type u} {α : Type v} [DecidableEq α] (C : ι → Finset α)

def together (xs : List ι) : Finset α := xs.foldr (fun x found => C x ∪ found) ∅

variable {C}

@[simp] theorem together_nil : together C [] = ∅ := rfl

@[simp] theorem together_cons (x : ι) (xs : List ι) : together C (x :: xs) = C x ∪ together C xs :=
  rfl

theorem mem_together {xs : List ι} {a : α} : a ∈ together C xs ↔ ∃ x ∈ xs, a ∈ C x := by
  induction xs with
  | nil => simp
  | cons x xs ih => simp [ih]

theorem card_together_cons (x : ι) (xs : List ι) (S : Finset α) :
    (together C (x :: xs) \ S).card = (C x \ S).card + (together C xs \ (S ∪ C x)).card := by
  have split : together C (x :: xs) \ S = (C x \ S) ∪ (together C xs \ (S ∪ C x)) := by
    ext a
    simp only [together_cons, Finset.mem_sdiff, Finset.mem_union]
    tauto
  rw [split, Finset.card_union_of_disjoint]
  apply Finset.disjoint_left.mpr
  intro a here there
  exact (Finset.mem_sdiff.mp there).2 (Finset.mem_union_right S (Finset.mem_sdiff.mp here).1)

variable {w : ι → Nat}

theorem card_together_le (le : ∀ x, (C x).card ≤ w x) (xs : List ι) (S : Finset α) :
    (together C xs \ S).card ≤ (xs.map w).sum := by
  induction xs generalizing S with
  | nil => simp
  | cons x xs ih =>
    rw [card_together_cons, List.map_cons, List.sum_cons]
    have one : (C x \ S).card ≤ w x := (Finset.card_le_card Finset.sdiff_subset).trans (le x)
    exact Nat.add_le_add one (ih (S ∪ C x))

theorem eq_card_sdiff_iff (x : ι) (le : (C x).card ≤ w x) (S : Finset α) :
    w x = (C x \ S).card ↔ w x = (C x).card ∧ Disjoint (C x) S := by
  have less : (C x \ S).card ≤ (C x).card := Finset.card_le_card Finset.sdiff_subset
  constructor
  · intro same
    have whole : (C x).card ≤ (C x \ S).card := same ▸ le
    have all : C x \ S = C x := Finset.eq_of_subset_of_card_le Finset.sdiff_subset whole
    exact ⟨le_antisymm (same ▸ less) le, Finset.sdiff_eq_self_iff_disjoint.mp all⟩
  · rintro ⟨same, apart⟩
    rw [Finset.sdiff_eq_self_of_disjoint apart]
    exact same

/-- A count that takes each item at no less than what it brings is exact when it takes it at just
that, and no two items, and no item and what is there already, have anything in common. -/
theorem sum_eq_card_together_iff (le : ∀ x, (C x).card ≤ w x) (xs : List ι) (S : Finset α) :
    (xs.map w).sum = (together C xs \ S).card ↔
      (∀ x ∈ xs, w x = (C x).card ∧ Disjoint (C x) S) ∧
        xs.Pairwise fun x y => Disjoint (C x) (C y) := by
  induction xs generalizing S with
  | nil => simp
  | cons x xs ih =>
    have one : (C x \ S).card ≤ w x := (Finset.card_le_card Finset.sdiff_subset).trans (le x)
    have rest := card_together_le le xs (S ∪ C x)
    rw [card_together_cons, List.map_cons, List.sum_cons, List.pairwise_cons, List.forall_mem_cons]
    calc w x + (xs.map w).sum = (C x \ S).card + (together C xs \ (S ∪ C x)).card
        ↔ w x = (C x \ S).card ∧ (xs.map w).sum = (together C xs \ (S ∪ C x)).card := by omega
      _ ↔ (w x = (C x).card ∧ Disjoint (C x) S) ∧
            (∀ y ∈ xs, w y = (C y).card ∧ Disjoint (C y) (S ∪ C x)) ∧
              xs.Pairwise fun x y => Disjoint (C x) (C y) := by rw [eq_card_sdiff_iff x (le x), ih]
      _ ↔ _ := by
        simp only [Finset.disjoint_union_right]
        constructor
        · rintro ⟨here, others, apart⟩
          refine ⟨⟨here, fun y member => ⟨(others y member).1, (others y member).2.1⟩⟩, ?_, apart⟩
          exact fun y member => (others y member).2.2.symm
        · rintro ⟨⟨here, others⟩, one, apart⟩
          refine ⟨here, fun y member => ⟨(others y member).1, (others y member).2, ?_⟩, apart⟩
          exact (one y member).symm

end Count

section Quota

variable {α : Type u}

def spill (size : α → Nat) (limit : Nat) : Nat → List α → List α
  | _, [] => []
  | running, x :: xs =>
    if limit < running + size x then x :: spill size limit (running + size x) xs
    else spill size limit (running + size x) xs

variable {size : α → Nat} {limit running : Nat}

theorem spill_of_lt (full : limit < running) (xs : List α) : spill size limit running xs = xs := by
  induction xs generalizing running with
  | nil => rfl
  | cons x xs ih =>
    rw [spill, if_pos (by omega), ih (by omega)]

theorem spill_eq_drop (size : α → Nat) (fits : running ≤ limit) (xs : List α) :
    ∃ k, spill size limit running xs = xs.drop k ∧
      running + ((xs.take k).map size).sum ≤ limit := by
  induction xs generalizing running with
  | nil => exact ⟨0, rfl, by simpa using fits⟩
  | cons x xs ih =>
    rw [spill]
    split
    next beyond => exact ⟨0, by rw [spill_of_lt beyond, List.drop_zero], by simpa using fits⟩
    next =>
      have fits' : running + size x ≤ limit := by omega
      obtain ⟨k, rest, sum⟩ := ih fits'
      refine ⟨k + 1, rest, ?_⟩
      rw [List.take_succ_cons, List.map_cons, List.sum_cons]
      omega

theorem of_mem_spill {xs : List α} {x : α} (mem : x ∈ spill size limit running xs) :
    ∃ us vs, xs = us ++ x :: vs ∧ limit < running + (us.map size).sum + size x := by
  induction xs generalizing running with
  | nil => cases mem
  | cons y xs ih =>
    have later : x ∈ spill size limit (running + size y) xs →
        ∃ us vs, y :: xs = us ++ x :: vs ∧ limit < running + (us.map size).sum + size x := by
      intro mem
      obtain ⟨us, vs, rfl, beyond⟩ := ih mem
      refine ⟨y :: us, vs, rfl, ?_⟩
      rw [List.map_cons, List.sum_cons]
      omega
    rw [spill] at mem
    split at mem
    next beyond =>
      rcases List.mem_cons.mp mem with rfl | mem
      · exact ⟨[], xs, rfl, beyond⟩
      · exact later mem
    next => exact later mem

theorem spill_eq_nil {xs : List α} (fits : running + (xs.map size).sum ≤ limit) :
    spill size limit running xs = [] := by
  induction xs generalizing running with
  | nil => rfl
  | cons x xs ih =>
    rw [List.map_cons, List.sum_cons] at fits
    rw [spill, if_neg (by omega), ih (by omega)]

theorem sum_le_of_subset (size : α → Nat) {xs ys : List α} (nodup : ys.Nodup) (sub : ys ⊆ xs) :
    (ys.map size).sum ≤ (xs.map size).sum := by
  obtain ⟨zs, perm, sub⟩ := List.subperm_of_subset nodup sub
  rw [← (perm.map size).sum_eq]
  exact (sub.map size).sum_le_sum fun _ _ => Nat.zero_le _

end Quota

end DreamStudio.Library
