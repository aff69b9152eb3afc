import Mathlib.Data.List.Basic

namespace DreamStudio.Library

universe u

variable {α : Type u} [DecidableEq α]

def find (part : List α) : List α → Option Nat
  | [] => if part = [] then some 0 else none
  | c :: s => if part.isPrefixOf (c :: s) then some 0 else (find part s).map (· + 1)

section Prefix

variable {x : α} {part p q s t : List α}

omit [DecidableEq α] in
theorem prefix_append_iff (apart : ∀ x ∈ q.head?, x ∉ part) : part <+: p ++ q ↔ part <+: p := by
  constructor
  · intro reaches
    induction p generalizing part with
    | nil =>
      cases q with
      | nil => exact reaches
      | cons y q =>
        cases part with
        | nil => exact List.nil_prefix
        | cons c part =>
          obtain ⟨same, -⟩ := List.cons_prefix_cons.mp reaches
          exact absurd (same ▸ List.mem_cons_self) (apart y rfl)
    | cons d p ih =>
      cases part with
      | nil => exact List.nil_prefix
      | cons c part =>
        obtain ⟨same, rest⟩ := List.cons_prefix_cons.mp reaches
        exact List.cons_prefix_cons.mpr
          ⟨same, ih (fun y first inside => apart y first (List.mem_cons_of_mem c inside)) rest⟩
  · exact fun within => within.trans (List.prefix_append p q)

theorem find_of_start (here : part <+: s) : find part s = some 0 := by
  cases s with
  | nil => exact if_pos (List.prefix_nil.mp here)
  | cons c s => exact if_pos (List.isPrefixOf_iff_prefix.mpr here)

theorem find_cons_of_not_start (other : ¬part <+: x :: s) :
    find part (x :: s) = (find part s).map (· + 1) :=
  if_neg fun here => other (List.isPrefixOf_iff_prefix.mp here)

theorem find_nil (filled : part ≠ []) : find part [] = none := if_neg filled

theorem find_eq_none_of_not_mem (inside : x ∈ part) (absent : x ∉ s) : find part s = none := by
  have away : ∀ t : List α, x ∉ t → ¬part <+: t := fun t absent here => absent (here.subset inside)
  induction s with
  | nil => exact find_nil (List.ne_nil_of_mem inside)
  | cons c s ih =>
    rw [find_cons_of_not_start (away _ absent), ih (List.not_mem_of_not_mem_cons absent)]
    rfl

end Prefix

section Place

variable {part s : List α} {i : Nat}

theorem drop_of_find (found : find part s = some i) : ∃ rest, s.drop i = part ++ rest := by
  induction s generalizing i with
  | nil =>
    rw [find] at found
    split at found
    next empty => exact ⟨[], by rw [empty]; exact List.drop_nil⟩
    next => cases found
  | cons c s ih =>
    by_cases here : part <+: c :: s
    · rw [find_of_start here] at found
      cases found
      obtain ⟨rest, whole⟩ := here
      exact ⟨rest, whole.symm⟩
    · rw [find_cons_of_not_start here, Option.map_eq_some_iff] at found
      obtain ⟨j, found, rfl⟩ := found
      exact ih found

theorem find_take (filled : part ≠ []) (found : find part s = some i) :
    find part (s.take i) = none := by
  induction s generalizing i with
  | nil => rw [List.take_nil]; exact find_nil filled
  | cons c s ih =>
    by_cases here : part <+: c :: s
    · rw [find_of_start here] at found
      cases found
      exact find_nil filled
    · rw [find_cons_of_not_start here, Option.map_eq_some_iff] at found
      obtain ⟨j, found, rfl⟩ := found
      have other : ¬part <+: c :: s.take j := by
        intro within
        exact here (within.trans (List.cons_prefix_cons.mpr ⟨rfl, List.take_prefix j s⟩))
      rw [List.take_succ_cons, find_cons_of_not_start other, ih found]
      rfl

theorem split_of_find (filled : part ≠ []) (found : find part s = some i) :
    ∃ before rest, s = before ++ (part ++ rest) ∧ before.length = i ∧ find part before = none := by
  obtain ⟨rest, here⟩ := drop_of_find found
  have within : i ≤ s.length := by
    by_contra beyond
    rw [List.drop_eq_nil_of_le (Nat.le_of_not_le beyond)] at here
    exact filled (List.append_eq_nil_iff.mp here.symm).1
  refine ⟨s.take i, rest, ?_, List.length_take_of_le within, find_take filled found⟩
  rw [← here, List.take_append_drop]

theorem lt_length_of_find (filled : part ≠ []) (found : find part s = some i) : i < s.length := by
  obtain ⟨before, rest, rfl, rfl, -⟩ := split_of_find filled found
  have some := List.length_pos_iff.mpr filled
  rw [List.length_append, List.length_append]
  omega

end Place

section Led

variable {c : α} {m p q : List α}

theorem find_append (apart : ∀ x ∈ q.head?, x ∉ m) :
    find (c :: m) (p ++ q) = (find (c :: m) p).or ((find (c :: m) q).map (p.length + ·)) := by
  induction p with
  | nil =>
    rw [find_nil (List.cons_ne_nil c m), Option.none_or]
    simp
  | cons d p ih =>
    have same : c :: m <+: d :: (p ++ q) ↔ c :: m <+: d :: p := by
      rw [List.cons_prefix_cons, List.cons_prefix_cons, prefix_append_iff apart]
    rw [List.cons_append]
    by_cases here : c :: m <+: d :: p
    · rw [find_of_start here, find_of_start (same.mpr here), Option.some_or]
    · rw [find_cons_of_not_start here, find_cons_of_not_start (mt same.mp here), ih,
        Option.map_or, Option.map_map]
      congr 2
      funext i
      exact Nat.succ_add p.length i |>.symm

theorem find_append_of_not_mem (absent : c ∉ p) :
    find (c :: m) (p ++ q) = (find (c :: m) q).map (p.length + ·) := by
  induction p with
  | nil => simp
  | cons d p ih =>
    have other : ¬c :: m <+: d :: (p ++ q) := fun here =>
      absent ((List.cons_prefix_cons.mp here).1 ▸ List.mem_cons_self)
    rw [List.cons_append, find_cons_of_not_start other,
      ih (List.not_mem_of_not_mem_cons absent), Option.map_map]
    congr 1
    funext i
    exact Nat.succ_add p.length i |>.symm

end Led

end DreamStudio.Library
