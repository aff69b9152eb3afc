import Mathlib.Data.List.Nodup

namespace DreamStudio.Library

universe u v w

/-- The pairs that two lists are put into, and what is left of each without a partner. -/
structure Pairing (α : Type u) (β : Type v) where
  pairs : List (α × β)
  left : List α
  right : List β

namespace Pairing

variable {α : Type u} {β : Type v}

def greedy (close : α → β → Bool) : List α → List β → Pairing α β
  | [], ys => ⟨[], [], ys⟩
  | x :: xs, ys =>
    match ys.find? (close x) with
    | none =>
      let rest := greedy close xs ys
      { rest with left := x :: rest.left }
    | some y =>
      let rest := greedy close xs (ys.eraseP (close x))
      { rest with pairs := (x, y) :: rest.pairs }

variable {close : α → β → Bool} {x : α} {y : β} {xs : List α} {ys : List β}

theorem greedy_cons_none (alone : ys.find? (close x) = none) :
    greedy close (x :: xs) ys = ⟨(greedy close xs ys).pairs, x :: (greedy close xs ys).left,
      (greedy close xs ys).right⟩ := by
  rw [greedy, alone]

theorem greedy_cons_some (found : ys.find? (close x) = some y) :
    greedy close (x :: xs) ys = ⟨(x, y) :: (greedy close xs (ys.eraseP (close x))).pairs,
      (greedy close xs (ys.eraseP (close x))).left,
      (greedy close xs (ys.eraseP (close x))).right⟩ := by
  rw [greedy, found]

theorem perm_eraseP {p : β → Bool} (found : ys.find? p = some y) :
    ys.Perm (y :: ys.eraseP p) := by
  induction ys with
  | nil => cases found
  | cons z zs ih =>
    cases holds : p z with
    | true =>
      rw [List.find?_cons_of_pos holds] at found
      cases found
      rw [List.eraseP_cons_of_pos holds]
    | false =>
      rw [List.find?_cons_of_neg (by simp [holds])] at found
      rw [List.eraseP_cons_of_neg (by simp [holds])]
      exact ((ih found).cons z).trans (.swap y z _)

theorem greedy_left (close : α → β → Bool) (xs : List α) (ys : List β) :
    ((greedy close xs ys).pairs.map Prod.fst ++ (greedy close xs ys).left).Perm xs := by
  induction xs generalizing ys with
  | nil => exact .nil
  | cons x xs ih =>
    cases found : ys.find? (close x) with
    | none =>
      rw [greedy_cons_none found]
      exact List.perm_middle.trans ((ih ys).cons x)
    | some y =>
      rw [greedy_cons_some found]
      exact (ih _).cons x

theorem greedy_right (close : α → β → Bool) (xs : List α) (ys : List β) :
    ((greedy close xs ys).pairs.map Prod.snd ++ (greedy close xs ys).right).Perm ys := by
  induction xs generalizing ys with
  | nil => exact .refl _
  | cons x xs ih =>
    cases found : ys.find? (close x) with
    | none =>
      rw [greedy_cons_none found]
      exact ih ys
    | some y =>
      rw [greedy_cons_some found]
      exact ((ih _).cons y).trans (perm_eraseP found).symm

theorem greedy_close : ∀ pair ∈ (greedy close xs ys).pairs, close pair.1 pair.2 = true := by
  induction xs generalizing ys with
  | nil => exact nofun
  | cons x xs ih =>
    cases found : ys.find? (close x) with
    | none =>
      rw [greedy_cons_none found]
      exact ih
    | some y =>
      rw [greedy_cons_some found]
      exact List.forall_mem_cons.mpr ⟨List.find?_some found, ih⟩

theorem greedy_right_sublist (close : α → β → Bool) (xs : List α) (ys : List β) :
    (greedy close xs ys).right.Sublist ys := by
  induction xs generalizing ys with
  | nil => exact .refl _
  | cons x xs ih =>
    cases found : ys.find? (close x) with
    | none =>
      rw [greedy_cons_none found]
      exact ih ys
    | some y =>
      rw [greedy_cons_some found]
      exact (ih _).trans List.eraseP_sublist

/-- No two that are left are close: what is left cannot be paired any further. -/
theorem greedy_apart {x : α} {y : β} (hx : x ∈ (greedy close xs ys).left)
    (hy : y ∈ (greedy close xs ys).right) :
    close x y = false := by
  induction xs generalizing ys with
  | nil => cases hx
  | cons z xs ih =>
    cases found : ys.find? (close z) with
    | none =>
      rw [greedy_cons_none found] at hx hy
      cases hx with
      | head =>
        have free := (greedy_right_sublist close xs ys).mem hy
        exact Bool.eq_false_iff.mpr (List.find?_eq_none.mp found y free)
      | tail _ later => exact ih later hy
    | some w =>
      rw [greedy_cons_some found] at hx hy
      exact ih hx hy

section Keys

variable {κ : Type w} [DecidableEq κ] {key : β → κ}

theorem eraseP_eq_filter {p : β → Bool} (nodup : (ys.map key).Nodup)
    (found : ys.find? p = some y) :
    ys.eraseP p = ys.filter (key · ≠ key y) := by
  induction ys with
  | nil => cases found
  | cons z zs ih =>
    rw [List.map_cons, List.nodup_cons] at nodup
    cases holds : p z with
    | true =>
      rw [List.find?_cons_of_pos holds] at found
      cases found
      have others : ∀ w ∈ zs, decide (key w ≠ key y) = true := by
        intro w member
        exact decide_eq_true fun same => nodup.1 (same ▸ List.mem_map_of_mem member)
      rw [List.eraseP_cons_of_pos holds, List.filter_cons_of_neg (by simp),
        List.filter_eq_self.mpr others]
    | false =>
      rw [List.find?_cons_of_neg (by simp [holds])] at found
      have other : key z ≠ key y := fun same =>
        nodup.1 (same ▸ List.mem_map_of_mem (List.mem_of_find?_eq_some found))
      rw [List.eraseP_cons_of_neg (by simp [holds]), List.filter_cons_of_pos (by simpa using other),
        ih nodup.2 found]

theorem greedy_left_eq {key : α → κ} (nodup : (xs.map key).Nodup) (ys : List β) :
    (greedy close xs ys).left =
      xs.filter (key · ∉ (greedy close xs ys).pairs.map fun pair => key pair.1) := by
  induction xs generalizing ys with
  | nil => rfl
  | cons x xs ih =>
    rw [List.map_cons, List.nodup_cons] at nodup
    cases found : ys.find? (close x) with
    | none =>
      have alone : key x ∉ (greedy close xs ys).pairs.map fun pair => key pair.1 := by
        intro inside
        obtain ⟨pair, member, same⟩ := List.mem_map.mp inside
        have given : pair.1 ∈ xs := (greedy_left close xs ys).subset
          (List.mem_append_left _ (List.mem_map_of_mem member))
        exact nodup.1 (same ▸ List.mem_map_of_mem given)
      rw [greedy_cons_none found, List.filter_cons, if_pos (decide_eq_true alone), ← ih nodup.2 ys]
    | some y =>
      rw [greedy_cons_some found, List.map_cons, List.filter_cons_of_neg (by simp)]
      refine (ih nodup.2 _).trans (List.filter_congr fun z member => ?_)
      have other : key z ≠ key x := fun same => nodup.1 (same ▸ List.mem_map_of_mem member)
      simp [other]

theorem greedy_right_eq {key : β → κ} (nodup : (ys.map key).Nodup) :
    (greedy close xs ys).right =
      ys.filter (key · ∉ (greedy close xs ys).pairs.map fun pair => key pair.2) := by
  induction xs generalizing ys with
  | nil => exact (List.filter_eq_self.mpr fun _ _ => rfl).symm
  | cons x xs ih =>
    cases found : ys.find? (close x) with
    | none =>
      rw [greedy_cons_none found]
      exact ih nodup
    | some y =>
      have fewer := eraseP_eq_filter nodup found
      have nodup' : ((ys.eraseP (close x)).map key).Nodup :=
        nodup.sublist (List.eraseP_sublist.map key)
      rw [greedy_cons_some found, List.map_cons]
      refine (ih nodup').trans ((congrArg (List.filter _) fewer).trans ?_)
      rw [List.filter_filter]
      apply List.filter_congr
      intro z _
      rw [Bool.eq_iff_iff]
      simp [and_comm]

end Keys

end Pairing

end DreamStudio.Library
