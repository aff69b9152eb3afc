import Mathlib.Data.List.Induction
import Mathlib.Data.List.Sort
import Mathlib.Order.Basic

namespace DreamStudio.Library

universe u v

def FirstLeast {α : Type u} {κ : Type v} [LinearOrder κ] (key : α → κ) (xs : List α) (x : α) :
    Prop :=
  ∃ before later, xs = before ++ x :: later ∧ (∀ y ∈ before, key x < key y) ∧
    ∀ y ∈ later, key x ≤ key y

section Least

variable {α : Type u} {κ : Type v} [LinearOrder κ] (key : α → κ)

def better (best : Option α) (x : α) : Option α :=
  match best with
  | none => some x
  | some b => if key x < key b then some x else some b

def firstLeast (xs : List α) : Option α := xs.foldl (better key) none

variable {key}

theorem firstLeast_append (xs : List α) (x : α) :
    firstLeast key (xs ++ [x]) = better key (firstLeast key xs) x := by
  simp [firstLeast]

variable (key) in
theorem firstLeast_isSome {xs : List α} (nonempty : xs ≠ []) : ∃ x, firstLeast key xs = some x := by
  induction xs using List.reverseRecOn with
  | nil => exact absurd rfl nonempty
  | append_singleton xs x _ =>
    rw [firstLeast_append]
    cases firstLeast key xs with
    | none => exact ⟨x, rfl⟩
    | some b =>
      unfold better
      simp only
      split <;> exact ⟨_, rfl⟩

theorem firstLeast_spec {xs : List α} {x : α} (found : firstLeast key xs = some x) :
    FirstLeast key xs x := by
  induction xs using List.reverseRecOn generalizing x with
  | nil => cases found
  | append_singleton xs y ih =>
    rw [firstLeast_append] at found
    cases before : firstLeast key xs with
    | none =>
      have nothing : xs = [] := by
        by_contra nonempty
        obtain ⟨z, hz⟩ := firstLeast_isSome key nonempty
        rw [before] at hz
        cases hz
      rw [before] at found
      cases found
      exact ⟨[], [], by simp [nothing], nofun, nofun⟩
    | some b =>
      rw [before] at found
      obtain ⟨first, later, rfl, strict, weak⟩ := ih before
      unfold better at found
      simp only at found
      split at found
      next less =>
        cases found
        refine ⟨first ++ b :: later, [], by simp, fun z hz => ?_, nofun⟩
        rcases List.mem_append.mp hz with hz | hz
        · exact less.trans (strict z hz)
        · rcases List.mem_cons.mp hz with rfl | hz
          · exact less
          · exact less.trans_le (weak z hz)
      next notLess =>
        cases found
        refine ⟨first, later ++ [y], by simp, strict, fun z hz => ?_⟩
        rcases List.mem_append.mp hz with hz | hz
        · exact weak z hz
        · rw [List.mem_singleton.mp hz]
          exact not_lt.mp notLess

theorem FirstLeast.mem {xs : List α} {x : α} (least : FirstLeast key xs x) : x ∈ xs := by
  obtain ⟨before, later, rfl, -, -⟩ := least
  exact List.mem_append_right _ List.mem_cons_self

theorem FirstLeast.unique {xs : List α} {x y : α} (hx : FirstLeast key xs x)
    (hy : FirstLeast key xs y) :
    x = y := by
  obtain ⟨before, later, rfl, strict, weak⟩ := hx
  obtain ⟨before', later', split, strict', weak'⟩ := hy
  rcases List.append_eq_append_iff.mp split with ⟨as, rfl, rest⟩ | ⟨as, rfl, rest⟩
  · cases as with
    | nil => exact (List.cons.inj rest).1
    | cons z as =>
      obtain ⟨rfl, rfl⟩ := List.cons.inj rest
      have less := strict' x (List.mem_append_right _ List.mem_cons_self)
      exact absurd (weak y (List.mem_append_right _ List.mem_cons_self)) (not_le.mpr less)
  · cases as with
    | nil => exact (List.cons.inj rest).1.symm
    | cons z as =>
      obtain ⟨rfl, rfl⟩ := List.cons.inj rest
      have less := strict y (List.mem_append_right _ List.mem_cons_self)
      exact absurd (weak' x (List.mem_append_right _ List.mem_cons_self)) (not_le.mpr less)

theorem firstLeast_eq_some_iff {xs : List α} {x : α} : firstLeast key xs = some x ↔
    FirstLeast key xs x := by
  refine ⟨firstLeast_spec, fun least => ?_⟩
  obtain ⟨y, found⟩ := firstLeast_isSome key (List.ne_nil_of_mem least.mem)
  rw [found, (firstLeast_spec found).unique least]

theorem firstLeast_eq_none {xs : List α} : firstLeast key xs = none ↔ xs = [] := by
  refine ⟨fun nothing => ?_, fun empty => by rw [empty]; rfl⟩
  by_contra nonempty
  obtain ⟨x, found⟩ := firstLeast_isSome key nonempty
  rw [nothing] at found
  cases found

theorem FirstLeast.le {xs : List α} {x y : α} (least : FirstLeast key xs x) (member : y ∈ xs) :
    key x ≤ key y := by
  obtain ⟨before, later, rfl, strict, weak⟩ := least
  cases List.mem_append.mp member with
  | inl early => exact (strict y early).le
  | inr late =>
    cases late with
    | head => exact le_rfl
    | tail _ late => exact weak y late

theorem firstLeast_perm {xs ys : List α} (perm : xs.Perm ys)
    (apart : ∀ x ∈ xs, ∀ y ∈ xs, key x = key y → x = y) :
    firstLeast key xs = firstLeast key ys := by
  cases found : firstLeast key xs with
  | none =>
    have empty := firstLeast_eq_none.mp found
    exact (firstLeast_eq_none.mpr (List.nil_perm.mp (empty ▸ perm))).symm
  | some x =>
    have least := firstLeast_spec found
    obtain ⟨y, found'⟩ := firstLeast_isSome key (List.ne_nil_of_mem (perm.subset least.mem))
    have least' := firstLeast_spec found'
    have member := perm.symm.subset least'.mem
    have same := le_antisymm (least.le member) (least'.le (perm.subset least.mem))
    rw [found', apart x least.mem y member same]

theorem FirstLeast.cons_of_le {xs : List α} {x y : α} (least : FirstLeast key xs x)
    (le : key y ≤ key x) :
    FirstLeast key (y :: xs) y := by
  obtain ⟨before, later, rfl, strict, weak⟩ := least
  refine ⟨[], before ++ x :: later, rfl, nofun, fun z member => ?_⟩
  rcases List.mem_append.mp member with member | member
  · exact le.trans (strict z member).le
  · rcases List.mem_cons.mp member with rfl | member
    · exact le
    · exact le.trans (weak z member)

theorem FirstLeast.cons_of_lt {xs : List α} {x y : α} (least : FirstLeast key xs x)
    (lt : key x < key y) :
    FirstLeast key (y :: xs) x := by
  obtain ⟨before, later, rfl, strict, weak⟩ := least
  exact ⟨y :: before, later, rfl, List.forall_mem_cons.mpr ⟨lt, strict⟩, weak⟩

variable (key) in
theorem head?_insertionSort (xs : List α) :
    (xs.insertionSort fun x y => key x ≤ key y).head? = firstLeast key xs := by
  induction xs with
  | nil => rfl
  | cons y ys ih =>
    rw [List.insertionSort_cons]
    cases sorted : ys.insertionSort fun x y => key x ≤ key y with
    | nil =>
      rw [sorted] at ih
      have empty : ys = [] := firstLeast_eq_none.mp ih.symm
      rw [empty]
      rfl
    | cons z zs =>
      rw [sorted] at ih
      have least := firstLeast_spec ih.symm
      rw [List.orderedInsert_cons]
      split
      · next le => exact (firstLeast_eq_some_iff.mpr (least.cons_of_le le)).symm
      · next notLe => exact (firstLeast_eq_some_iff.mpr (least.cons_of_lt (not_le.mp notLe))).symm

def Ties (key : α → κ) (xs : List α) : Prop :=
  ∃ before x later, xs = before ++ x :: later ∧ ∃ b, FirstLeast key before b ∧ key x = key b ∧ x ≠ b

theorem ties_append {xs : List α} {x : α} :
    Ties key (xs ++ [x]) ↔ Ties key xs ∨ ∃ b, FirstLeast key xs b ∧ key x = key b ∧ x ≠ b := by
  constructor
  · rintro ⟨before, y, later, split, b, least, same, other⟩
    rcases List.eq_nil_or_concat later with rfl | ⟨later', z, rfl⟩
    · obtain ⟨rfl, last⟩ := List.append_inj' split rfl
      cases last
      exact Or.inr ⟨b, least, same, other⟩
    · have split' : xs ++ [x] = (before ++ y :: later') ++ [z] := by simpa using split
      obtain ⟨rfl, -⟩ := List.append_inj' split' rfl
      exact Or.inl ⟨before, y, later', rfl, b, least, same, other⟩
  · rintro (⟨before, y, later, rfl, rest⟩ | ⟨b, rest⟩)
    · exact ⟨before, y, later ++ [x], by simp, rest⟩
    · exact ⟨xs, x, [], rfl, b, rest⟩

variable [DecidableEq α] (key)

/-- A scan that cannot compare an item with the best so far when the keys are equal and they are
not. -/
def betterOrStuck (best : Option α) (x : α) : Option (Option α) :=
  match best with
  | none => some (some x)
  | some b => if key x = key b ∧ x ≠ b then none else some (better key best x)

def firstLeastOrStuck (xs : List α) : Option (Option α) := xs.foldlM (betterOrStuck key) none

variable {key}

theorem firstLeastOrStuck_append (xs : List α) (x : α) :
    firstLeastOrStuck key (xs ++ [x]) =
      (firstLeastOrStuck key xs).bind (betterOrStuck key · x) := by
  simp [firstLeastOrStuck, List.foldlM_append]

theorem firstLeastOrStuck_eq (key : α → κ) (xs : List α) :
    (Ties key xs ∧ firstLeastOrStuck key xs = none) ∨
      (¬Ties key xs ∧ firstLeastOrStuck key xs = some (firstLeast key xs)) := by
  induction xs using List.reverseRecOn with
  | nil =>
    refine Or.inr ⟨?_, rfl⟩
    rintro ⟨before, x, later, split, -⟩
    exact List.append_ne_nil_of_right_ne_nil before (List.cons_ne_nil x later) split.symm
  | append_singleton xs x ih =>
    rw [ties_append, firstLeastOrStuck_append, firstLeast_append]
    rcases ih with ⟨ties, stuck⟩ | ⟨free, found⟩
    · exact Or.inl ⟨Or.inl ties, by rw [stuck]; rfl⟩
    · rw [found]
      cases best : firstLeast key xs with
      | none =>
        refine Or.inr ⟨not_or.mpr ⟨free, ?_⟩, rfl⟩
        rintro ⟨b, least, -⟩
        rw [firstLeast_eq_some_iff.mpr least] at best
        cases best
      | some b =>
        have least := firstLeast_spec best
        change _ ∨ _ ∧ (if _ then none else _) = _
        by_cases same : key x = key b ∧ x ≠ b
        · refine Or.inl ⟨Or.inr ⟨b, least, same⟩, ?_⟩
          change (if _ then none else _) = none
          rw [if_pos same]
        · refine Or.inr ⟨not_or.mpr ⟨free, ?_⟩, if_neg same⟩
          rintro ⟨b', least', same'⟩
          rw [least'.unique least] at same'
          exact same same'

end Least

end DreamStudio.Library
