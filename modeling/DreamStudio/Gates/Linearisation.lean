import DreamStudio.Library.Acyclic
import Mathlib.Algebra.GroupWithZero.Nat

namespace DreamStudio.Gates

open Library

variable {α : Type} [DecidableEq α]

/-- `any(head in other[1:] for other in work)`. -/
def blocked (work : List (List α)) (head : α) : Bool := work.any fun other => head ∈ other.tail

def candidate (work : List (List α)) : Option α :=
  (work.filterMap List.head?).find? fun head => !blocked work head

def advance (head : α) (work : List (List α)) : List (List α) :=
  (work.map fun sequence => if sequence.head? = some head then sequence.tail else sequence).filter
    (· ≠ [])

/-- The loop of `_c3`; `none` where the fuel is used up. -/
def c3Loop : Nat → List (List α) → List α → Option (Option (List α))
  | _, [], merged => some (some merged)
  | 0, _ :: _, _ => none
  | fuel + 1, sequence :: rest, merged =>
    match candidate (sequence :: rest) with
    | none => some none
    | some head => c3Loop fuel (advance head (sequence :: rest)) (merged ++ [head])

/-- `_c3`: Python's C3 merge, or None when the bases have no consistent order. -/
def c3 (fuel : Nat) (sequences : List (List α)) : Option (Option (List α)) :=
  c3Loop fuel (sequences.filter (· ≠ [])) []

/-- The elements that are still to be merged. -/
def pending (work : List (List α)) : Nat := (work.map List.length).sum

section Step

variable {work : List (List α)} {head x : α} {s t : List α}

theorem candidate_eq_some (found : candidate work = some head) :
    (∃ s ∈ work, s.head? = some head) ∧ ∀ t ∈ work, head ∉ t.tail := by
  have free := List.find?_some found
  obtain ⟨s, member, first⟩ := List.mem_filterMap.mp (List.mem_of_find?_eq_some found)
  refine ⟨⟨s, member, first⟩, ?_⟩
  rw [Bool.not_eq_true', blocked, List.any_eq_false] at free
  intro t inside behind
  exact free t inside (decide_eq_true behind)

theorem exists_candidate (acyclic : Acyclic (Precedes work)) (some : work ≠ [])
    (filled : ∀ s ∈ work, s ≠ []) : candidate work ≠ none := by
  obtain ⟨s, member, head, first, free⟩ := Precedes.exists_head acyclic some filled
  intro none
  have blocks := List.find?_eq_none.mp none head (List.mem_filterMap.mpr ⟨s, member, first⟩)
  apply blocks
  rw [Bool.not_eq_true', blocked, List.any_eq_false]
  intro t inside behind
  exact free t inside (of_decide_eq_true behind)

def without (head : α) (s : List α) : List α := if s.head? = some head then s.tail else s

theorem mem_advance : t ∈ advance head work ↔ t ≠ [] ∧ ∃ s ∈ work, without head s = t := by
  rw [advance, List.mem_filter, List.mem_map, decide_eq_true_eq, and_comm]
  rfl

theorem without_sublist (head : α) (s : List α) : (without head s).Sublist s := by
  rw [without]
  split
  · exact List.tail_sublist s
  · exact List.Sublist.refl s

theorem without_cases (free : head ∉ s.tail) :
    s = head :: without head s ∨ without head s = s ∧ head ∉ s := by
  rw [without]
  cases s with
  | nil => exact Or.inr ⟨rfl, List.not_mem_nil⟩
  | cons h s =>
    rw [List.head?_cons, List.tail_cons]
    split
    next same => exact Or.inl (congrArg (· :: s) (Option.some.inj same))
    next other =>
      refine Or.inr ⟨rfl, fun member => ?_⟩
      exact (List.mem_cons.mp member).elim (fun same => other (congrArg some same.symm)) free

omit [DecidableEq α] in
theorem pending_cons (s : List α) (work : List (List α)) :
    pending (s :: work) = s.length + pending work := rfl

theorem pending_advance_cons (head : α) (s : List α) (work : List (List α)) :
    pending (advance head (s :: work)) = (without head s).length + pending (advance head work) := by
  show pending ((without head s :: work.map (without head)).filter (· ≠ [])) = _
  by_cases empty : without head s = []
  · rw [List.filter_cons_of_neg (by simpa using empty), empty, List.length_nil, Nat.zero_add]
    rfl
  · rw [List.filter_cons_of_pos (by simpa using empty), pending_cons]
    rfl

theorem pending_advance_le (head : α) (work : List (List α)) :
    pending (advance head work) ≤ pending work := by
  induction work with
  | nil => exact Nat.le_refl _
  | cons s work ih =>
    rw [pending_advance_cons, pending_cons]
    exact Nat.add_le_add (without_sublist head s).length_le ih

theorem pending_advance_lt (here : ∃ s ∈ work, s.head? = some head) :
    pending (advance head work) < pending work := by
  obtain ⟨s, member, first⟩ := here
  induction work with
  | nil => cases member
  | cons t work ih =>
    rw [pending_advance_cons, pending_cons]
    rcases List.mem_cons.mp member with rfl | later
    · have shorter : (without head s).length < s.length := by
        rw [without, if_pos first]
        cases s with
        | nil => cases first
        | cons h s => exact Nat.lt_succ_self _
      exact Nat.add_lt_add_of_lt_of_le shorter (pending_advance_le head work)
    · exact Nat.add_lt_add_of_le_of_lt (without_sublist head t).length_le (ih later)

end Step

section Loop

variable {fuel : Nat} {work : List (List α)} {merged : List α}

omit [DecidableEq α] in
theorem pending_pos (some : work ≠ []) (filled : ∀ s ∈ work, s ≠ []) : 0 < pending work := by
  cases work with
  | nil => exact absurd rfl some
  | cons s rest =>
    have first := List.length_pos_iff.mpr (filled s List.mem_cons_self)
    rw [pending_cons]
    exact Nat.add_pos_left first _

theorem c3Loop_isSome (enough : pending work ≤ fuel) (filled : ∀ s ∈ work, s ≠ []) :
    (c3Loop fuel work merged).isSome = true := by
  induction fuel generalizing work merged with
  | zero =>
    cases work with
    | nil => rfl
    | cons s rest =>
      have some := pending_pos (List.cons_ne_nil s rest) filled
      exact absurd enough (Nat.not_le.mpr some)
  | succ fuel ih =>
    cases work with
    | nil => rfl
    | cons s rest =>
      rw [c3Loop]
      cases found : candidate (s :: rest) with
      | none => rfl
      | some head =>
        have less := pending_advance_lt (candidate_eq_some found).1
        apply ih
        · exact Nat.le_of_lt_succ (less.trans_le enough)
        · exact fun t inside => (mem_advance.mp inside).1

theorem c3Loop_mono {fuel' : Nat} {result : Option (List α)} (more : fuel ≤ fuel')
    (ran : c3Loop fuel work merged = some result) : c3Loop fuel' work merged = some result := by
  induction fuel generalizing fuel' work merged with
  | zero =>
    cases work with
    | nil => cases fuel' <;> exact ran
    | cons s rest => cases ran
  | succ fuel ih =>
    obtain ⟨fuel', rfl⟩ := Nat.exists_eq_add_of_lt (Nat.lt_of_succ_le more)
    cases work with
    | nil => exact ran
    | cons s rest =>
      rw [c3Loop] at ran ⊢
      cases found : candidate (s :: rest) with
      | none => rw [found] at ran; exact ran
      | some head =>
        rw [found] at ran
        exact ih (Nat.le_add_right _ _) ran

theorem c3Loop_sound {out : List α} (nodup : ∀ s ∈ work, s.Nodup)
    (ran : c3Loop fuel work merged = some (some out)) :
    ∃ more, out = merged ++ more ∧ more.Nodup ∧ (∀ x, x ∈ more ↔ ∃ s ∈ work, x ∈ s) ∧
      ∀ s ∈ work, s.Sublist more := by
  induction fuel generalizing work merged with
  | zero =>
    cases work with
    | nil =>
      cases ran
      exact ⟨[], by simp, List.nodup_nil, by simp, by simp⟩
    | cons s rest => cases ran
  | succ fuel ih =>
    cases work with
    | nil =>
      cases ran
      exact ⟨[], by simp, List.nodup_nil, by simp, by simp⟩
    | cons s rest =>
      rw [c3Loop] at ran
      cases found : candidate (s :: rest) with
      | none => rw [found] at ran; cases ran
      | some head =>
        rw [found] at ran
        obtain ⟨⟨first, member, here⟩, free⟩ := candidate_eq_some found
        generalize s :: rest = work at *
        have nodup' : ∀ t ∈ advance head work, t.Nodup := by
          intro t inside
          obtain ⟨-, s, member, rfl⟩ := mem_advance.mp inside
          exact (nodup s member).sublist (without_sublist head s)
        obtain ⟨more, rfl, distinct, elements, orders⟩ := ih nodup' ran
        have found : ∀ s ∈ work, (without head s).Sublist more := by
          intro s member
          by_cases empty : without head s = []
          · rw [empty]
            exact List.nil_sublist more
          · exact orders _ (mem_advance.mpr ⟨empty, s, member, rfl⟩)
        have gone : head ∉ more := by
          intro inside
          obtain ⟨t, left, member⟩ := (elements head).mp inside
          obtain ⟨-, s, member', rfl⟩ := mem_advance.mp left
          rcases without_cases (free s member') with front | ⟨same, absent⟩
          · have once := nodup s member'
            rw [front] at once
            exact (List.nodup_cons.mp once).1 member
          · exact absent (same ▸ member)
        refine ⟨head :: more, by simp, List.nodup_cons.mpr ⟨gone, distinct⟩, ?_, ?_⟩
        · intro x
          rw [List.mem_cons, elements]
          constructor
          · rintro (rfl | ⟨t, left, member⟩)
            · exact ⟨first, ‹first ∈ work›, List.mem_of_mem_head? here⟩
            · obtain ⟨-, s, member', rfl⟩ := mem_advance.mp left
              exact ⟨s, member', (without_sublist head s).subset member⟩
          · rintro ⟨s, member', inside⟩
            rcases without_cases (free s member') with front | ⟨same, absent⟩
            · rw [front] at inside
              rcases List.mem_cons.mp inside with rfl | behind
              · exact Or.inl rfl
              · exact Or.inr ⟨_, mem_advance.mpr ⟨List.ne_nil_of_mem behind, s, member', rfl⟩,
                  behind⟩
            · exact Or.inr ⟨s, mem_advance.mpr ⟨List.ne_nil_of_mem inside, s, member', same⟩,
                inside⟩
        · intro s member'
          rcases without_cases (free s member') with front | ⟨same, -⟩
          · rw [front]
            exact (found s member').cons_cons head
          · have inside := found s member'
            rw [same] at inside
            exact inside.cons head

theorem c3Loop_ne_none (acyclic : Acyclic (Precedes work)) (filled : ∀ s ∈ work, s ≠ []) :
    c3Loop fuel work merged ≠ some none := by
  induction fuel generalizing work merged with
  | zero => cases work <;> simp [c3Loop]
  | succ fuel ih =>
    cases work with
    | nil => simp [c3Loop]
    | cons s rest =>
      rw [c3Loop]
      cases found : candidate (s :: rest) with
      | none => exact absurd found (exists_candidate acyclic (List.cons_ne_nil _ _) filled)
      | some head =>
        apply ih
        · apply acyclic.mono
          intro x y
          apply Precedes.mono
          intro t inside
          obtain ⟨-, s, member, rfl⟩ := mem_advance.mp inside
          exact ⟨s, member, without_sublist head s⟩
        · exact fun t inside => (mem_advance.mp inside).1

end Loop

section Filled

variable {sequences : List (List α)}

omit [DecidableEq α] in
theorem mem_filled {s : List α} : s ∈ sequences.filter (· ≠ []) ↔ s ∈ sequences ∧ s ≠ [] := by
  rw [List.mem_filter, decide_eq_true_eq]

omit [DecidableEq α] in
theorem pending_filled : pending (sequences.filter (· ≠ [])) = pending sequences := by
  induction sequences with
  | nil => rfl
  | cons s sequences ih =>
    by_cases empty : s = []
    · rw [List.filter_cons_of_neg (by simpa using empty), ih, pending_cons, empty]
      exact (Nat.zero_add _).symm
    · rw [List.filter_cons_of_pos (by simpa using empty), pending_cons, pending_cons, ih]

omit [DecidableEq α] in
theorem acyclic_filled (acyclic : Acyclic (Precedes sequences)) :
    Acyclic (Precedes (sequences.filter (· ≠ []))) := by
  apply acyclic.mono
  intro x y
  apply Precedes.mono
  exact fun s member => ⟨s, (mem_filled.mp member).1, List.Sublist.refl s⟩

theorem c3_sound {fuel : Nat} {merged : List α} (nodup : ∀ s ∈ sequences, s.Nodup)
    (ran : c3 fuel sequences = some (some merged)) :
    merged.Nodup ∧ (∀ x, x ∈ merged ↔ ∃ s ∈ sequences, x ∈ s) ∧
      ∀ s ∈ sequences, s.Sublist merged := by
  obtain ⟨_, rfl, distinct, elements, orders⟩ :=
    c3Loop_sound (fun s member => nodup s (mem_filled.mp member).1) ran
  refine ⟨distinct, ?_, ?_⟩
  · intro x
    rw [elements]
    constructor
    · exact fun ⟨s, member, inside⟩ => ⟨s, (mem_filled.mp member).1, inside⟩
    · exact fun ⟨s, member, inside⟩ =>
        ⟨s, mem_filled.mpr ⟨member, List.ne_nil_of_mem inside⟩, inside⟩
  · intro s member
    by_cases empty : s = []
    · rw [empty]
      exact List.nil_sublist _
    · exact orders s (mem_filled.mpr ⟨member, empty⟩)

end Filled

/-- The merge ends; it gives every element once, with every sequence in its order, where the orders
close no cycle, and gives up exactly where they do. -/
theorem c3_iff (sequences : List (List α)) (nodup : ∀ s ∈ sequences, s.Nodup) :
    ∃ result, (∀ fuel, pending sequences ≤ fuel → c3 fuel sequences = some result) ∧
      (Acyclic (Precedes sequences) → ∃ merged, result = some merged ∧ merged.Nodup ∧
        (∀ x, x ∈ merged ↔ ∃ s ∈ sequences, x ∈ s) ∧ ∀ s ∈ sequences, s.Sublist merged) ∧
      (result = none ↔ ¬Acyclic (Precedes sequences)) := by
  have filled : ∀ s ∈ sequences.filter (· ≠ []), s ≠ [] := fun s member => (mem_filled.mp member).2
  have ends : (c3 (pending sequences) sequences).isSome = true :=
    c3Loop_isSome pending_filled.le filled
  obtain ⟨result, ran⟩ := Option.isSome_iff_exists.mp ends
  have gives : Acyclic (Precedes sequences) → result ≠ none := by
    rintro acyclic rfl
    exact c3Loop_ne_none (acyclic_filled acyclic) filled ran
  refine ⟨result, fun fuel enough => c3Loop_mono enough ran, ?_, ?_⟩
  · intro acyclic
    obtain ⟨merged, rfl⟩ := Option.ne_none_iff_exists'.mp (gives acyclic)
    exact ⟨merged, rfl, c3_sound nodup ran⟩
  · constructor
    · exact fun none acyclic => gives acyclic none
    · intro cyclic
      cases result with
      | none => rfl
      | some merged =>
        obtain ⟨distinct, -, orders⟩ := c3_sound nodup ran
        exact absurd (Precedes.acyclic distinct orders) cyclic

/-- Two classes over one base, both before it. -/
theorem c3_diamond :
    ∃ result, (∀ fuel, pending [[1, 3], [2, 3], [1, 2]] ≤ fuel →
        c3 fuel [[1, 3], [2, 3], [1, 2]] = some result) ∧
      (Acyclic (Precedes [[1, 3], [2, 3], [1, 2]]) → ∃ merged, result = some merged ∧ merged.Nodup ∧
        (∀ x, x ∈ merged ↔ ∃ s ∈ [[1, 3], [2, 3], [1, 2]], x ∈ s) ∧
        ∀ s ∈ [[1, 3], [2, 3], [1, 2]], s.Sublist merged) ∧
      (result = none ↔ ¬Acyclic (Precedes [[1, 3], [2, 3], [1, 2]])) :=
  c3_iff [[1, 3], [2, 3], [1, 2]] (by decide)

example : c3 6 [[1, 3], [2, 3], [1, 2]] = some (some [1, 2, 3]) := by decide

example : c3 4 [[1, 2], [2, 1]] = some none := by decide

end DreamStudio.Gates
