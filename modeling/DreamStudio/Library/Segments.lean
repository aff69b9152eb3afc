import Mathlib.Algebra.Order.Monoid.Unbundled.Basic
import Mathlib.Data.List.Basic

namespace DreamStudio.Library

universe u v

variable {α : Type u} {β : Type v}

/-- Lines that open blocks, that close them, and that may end a segment: those that close one
may. -/
structure Blocks (α : Type u) where
  opens : α → Bool
  closes : α → Bool
  stops : α → Bool
  stops_of_closes : ∀ x, closes x = true → stops x = true

namespace Blocks

variable (b : Blocks α)

/-- The depth behind a line; at no depth there is nothing to close. -/
def after (depth : Nat) (x : α) : Nat := depth + (b.opens x).toNat - (b.closes x).toNat

def cuts (depth : Nat) (x : α) : Bool := b.stops x && b.after depth x = 0

def segments : Nat → List α → List (List α)
  | _, [] => []
  | depth, x :: xs =>
    if b.cuts depth x then [x] :: segments 0 xs
    else
      match segments (b.after depth x) xs with
      | [] => [[x]]
      | s :: rest => (x :: s) :: rest

def Unbroken : Nat → List α → Prop
  | _, [] => True
  | depth, x :: xs => b.cuts depth x = false ∧ Unbroken (b.after depth x) xs

def opened (xs : List α) : Nat := xs.countP b.opens

def closed (xs : List α) : Nat := xs.countP b.closes

variable {b}

section Cuts

theorem segments_of_unbroken {depth : Nat} {x : α} {xs : List α}
    (unbroken : b.Unbroken depth (x :: xs)) :
    b.segments depth (x :: xs) = [x :: xs] := by
  induction xs generalizing depth x with
  | nil =>
    rw [segments, unbroken.1]
    rfl
  | cons y ys ih =>
    rw [segments, unbroken.1, ih unbroken.2]
    rfl

theorem segments_of_cut {depth : Nat} {xs : List α} {x : α} (ys : List α)
    (unbroken : b.Unbroken depth xs) (cut : b.cuts (xs.foldl b.after depth) x = true) :
    b.segments depth (xs ++ x :: ys) = (xs ++ [x]) :: b.segments 0 ys := by
  induction xs generalizing depth with
  | nil =>
    have here : b.cuts depth x = true := cut
    rw [List.nil_append, segments, here]
    rfl
  | cons y xs ih =>
    rw [List.cons_append, segments, unbroken.1, ih unbroken.2 cut]
    rfl

theorem segments_of_unbroken_append {depth : Nat} {xs ys : List α} (unbroken : b.Unbroken depth xs)
    (more : ys ≠ []) :
    ∃ s rest, s ≠ [] ∧ b.segments depth (xs ++ ys) = (xs ++ s) :: rest := by
  induction xs generalizing depth with
  | nil =>
    cases ys with
    | nil => exact absurd rfl more
    | cons y ys =>
      rw [List.nil_append, segments]
      split
      · exact ⟨[y], _, List.cons_ne_nil _ _, rfl⟩
      · split
        · exact ⟨[y], [], List.cons_ne_nil _ _, rfl⟩
        next s rest _ => exact ⟨y :: s, rest, List.cons_ne_nil _ _, rfl⟩
  | cons x xs ih =>
    obtain ⟨s, rest, some_, here⟩ := ih unbroken.2
    rw [List.cons_append, segments, unbroken.1, here]
    exact ⟨s, rest, some_, rfl⟩

theorem unbroken_concat {depth : Nat} {xs : List α} {x : α} (unbroken : b.Unbroken depth xs)
    (uncut : b.cuts (xs.foldl b.after depth) x = false) : b.Unbroken depth (xs ++ [x]) := by
  induction xs generalizing depth with
  | nil => exact ⟨uncut, trivial⟩
  | cons y xs ih => exact ⟨unbroken.1, ih unbroken.2 uncut⟩

theorem segments_flatten (depth : Nat) (xs : List α) : (b.segments depth xs).flatten = xs := by
  induction xs generalizing depth with
  | nil => rfl
  | cons x xs ih =>
    rw [segments]
    split
    · rw [List.flatten_cons, ih]
      rfl
    · have rest := ih (b.after depth x)
      split
      next none =>
        rw [none] at rest
        exact congrArg (x :: ·) rest
      next s segs more =>
        rw [more] at rest
        exact congrArg (x :: ·) rest

theorem exists_cut_of_broken {depth : Nat} {xs : List α} (broken : ¬b.Unbroken depth xs) :
    ∃ before x after, xs = before ++ x :: after ∧ b.Unbroken depth before ∧
      b.cuts (before.foldl b.after depth) x = true := by
  induction xs generalizing depth with
  | nil => exact absurd trivial broken
  | cons x xs ih =>
    cases cut : b.cuts depth x with
    | true => exact ⟨[], x, xs, rfl, trivial, cut⟩
    | false =>
      have later : ¬b.Unbroken (b.after depth x) xs := fun unbroken => broken ⟨cut, unbroken⟩
      obtain ⟨before, y, after, rfl, unbroken, cuts⟩ := ih later
      exact ⟨x :: before, y, after, rfl, ⟨cut, unbroken⟩, cuts⟩

end Cuts

section Counts

def Inside (b : Blocks α) (depth : Nat) (xs : List α) : Prop :=
  ∀ before x after, xs = before ++ x :: after → b.stops x = true →
    b.closed (before ++ [x]) < depth + b.opened (before ++ [x])

theorem opened_cons (x : α) (xs : List α) :
    b.opened (x :: xs) = (b.opens x).toNat + b.opened xs := by
  rw [opened, List.countP_cons, Nat.add_comm]
  cases b.opens x <;> rfl

theorem closed_cons (x : α) (xs : List α) :
    b.closed (x :: xs) = (b.closes x).toNat + b.closed xs := by
  rw [closed, List.countP_cons, Nat.add_comm]
  cases b.closes x <;> rfl

theorem cuts_iff {depth : Nat} {x : α} :
    b.cuts depth x = true ↔ b.stops x = true ∧ depth + (b.opens x).toNat ≤ (b.closes x).toNat := by
  rw [cuts, Bool.and_eq_true, decide_eq_true_iff, after]
  exact and_congr_right fun _ => Nat.sub_eq_zero_iff_le

theorem after_add {depth : Nat} {x : α} (uncut : b.cuts depth x = false) :
    b.after depth x + (b.closes x).toNat = depth + (b.opens x).toNat := by
  apply Nat.sub_add_cancel
  cases closes : b.closes x with
  | false => exact Nat.zero_le _
  | true =>
    by_contra none
    have cut : b.cuts depth x = true := by
      apply cuts_iff.mpr
      rw [closes]
      exact ⟨b.stops_of_closes x closes, Nat.le_of_not_le none⟩
    rw [cut] at uncut
    cases uncut

theorem inside_cons_iff {depth : Nat} {x : α} {xs : List α} :
    b.Inside depth (x :: xs) ↔ b.cuts depth x = false ∧ b.Inside (b.after depth x) xs := by
  have here : b.cuts depth x = false ↔
      (b.stops x = true → b.closed [x] < depth + b.opened [x]) := by
    rw [Bool.eq_false_iff, Ne, cuts_iff, closed_cons, opened_cons, not_and, not_le]
    rfl
  rw [here]
  apply Iff.intro
  · intro inside
    have first := fun stops => inside [] x xs rfl stops
    apply And.intro first
    intro before y after whole stops
    have later := inside (x :: before) y after (congrArg (x :: ·) whole) stops
    have moved := after_add (here.mpr first)
    rw [List.cons_append, closed_cons, opened_cons] at later
    omega
  · rintro ⟨first, inside⟩ before y after whole stops
    cases before with
    | nil =>
      obtain ⟨rfl, -⟩ := List.cons.inj whole
      exact first stops
    | cons z before =>
      obtain ⟨rfl, rest⟩ := List.cons.inj whole
      have later := inside before y after rest stops
      have moved := after_add (here.mpr first)
      rw [List.cons_append, closed_cons, opened_cons]
      omega

theorem unbroken_iff_inside {depth : Nat} {xs : List α} :
    b.Unbroken depth xs ↔ b.Inside depth xs := by
  induction xs generalizing depth with
  | nil =>
    apply iff_of_true trivial
    intro before x after whole
    cases before <;> cases whole
  | cons x xs ih => rw [inside_cons_iff, ← ih, Unbroken]

theorem depth_add_closed {depth : Nat} {xs : List α} (unbroken : b.Unbroken depth xs) :
    xs.foldl b.after depth + b.closed xs = depth + b.opened xs := by
  induction xs generalizing depth with
  | nil => rfl
  | cons x xs ih =>
    have rest := ih unbroken.2
    have here := after_add unbroken.1
    rw [List.foldl_cons, closed_cons, opened_cons]
    omega

theorem cuts_concat_iff {xs : List α} {x : α} (unbroken : b.Unbroken 0 xs)
    (stops : b.stops x = true) :
    b.cuts (xs.foldl b.after 0) x = true ↔ b.opened (xs ++ [x]) ≤ b.closed (xs ++ [x]) := by
  have depth := depth_add_closed unbroken
  rw [cuts_iff, and_iff_right stops, opened, closed, List.countP_append, List.countP_append,
    ← opened, ← closed,
    ← opened, ← closed, opened_cons, closed_cons]
  change _ ↔ b.opened xs + ((b.opens x).toNat + 0) ≤ b.closed xs + ((b.closes x).toNat + 0)
  omega

end Counts

section Statements

/-- What is made of a segment, and when it tells one from another: a segment that begins well gives
one item, and another one than it gives with more behind the line that may end it. -/
structure Reads (b : Blocks α) (good begins : α → Prop) (f : List α → List β) (g : List α → β) :
    Prop where
  gives : ∀ x xs, begins x → f (x :: xs) = [g (x :: xs)]
  differs : ∀ xs x ys, (∀ y ∈ ys, good y) → b.stops x = true → ys ≠ [] →
    g (xs ++ x :: ys) ≠ g (xs ++ [x])

/-- A statement: its first line begins well and its last one may end it. -/
structure Statement (b : Blocks α) (good begins : α → Prop) (s : List α) : Prop where
  good : ∀ x ∈ s, good x
  begins : ∃ x xs, s = x :: xs ∧ begins x
  ends : ∃ xs x, s = xs ++ [x] ∧ b.stops x = true

variable {good begins : α → Prop} {f : List α → List β} {g : List α → β}

theorem Statement.gives {s : List α} (reads : Reads b good begins f g)
    (statement : b.Statement good begins s) {p q : List α} (whole : s = p ++ q) (some_ : p ≠ [])
    (more : List α) : f (p ++ more) = [g (p ++ more)] := by
  obtain ⟨x, xs, same, start⟩ := statement.begins
  cases p with
  | nil => exact absurd rfl some_
  | cons y p =>
    obtain ⟨rfl, -⟩ := List.cons.inj (same.symm.trans whole)
    exact reads.gives x (p ++ more) start

theorem flatMap_ne_map {s t : List α} {segs statements : List (List α)} (gives : f t = [g t])
    (differs : g t ≠ g s) :
    ¬(t :: segs).flatMap f = (s :: statements).map g := by
  intro same
  rw [List.flatMap_cons, gives] at same
  exact differs (List.cons.inj same).1

theorem flatMap_cons_iff {s : List α} {segs statements : List (List α)} (gives : f s = [g s]) :
    (s :: segs).flatMap f = (s :: statements).map g ↔ segs.flatMap f = statements.map g := by
  rw [List.flatMap_cons, gives, List.map_cons, List.singleton_append, List.cons_inj_right]

theorem early_ne (reads : Reads b good begins f g) {xs : List α} {x : α}
    (here : b.Statement good begins (xs ++ [x])) (broken : ¬b.Unbroken 0 xs) (rest : List α)
    (statements : List (List α)) :
    ¬(b.segments 0 (xs ++ x :: rest)).flatMap f = ((xs ++ [x]) :: statements).map g := by
  obtain ⟨before, y, after, rfl, unbroken, cut⟩ := exists_cut_of_broken broken
  have whole : before ++ y :: after ++ [x] = (before ++ [y]) ++ (after ++ [x]) := by simp
  have gives := here.gives reads whole (by simp) []
  rw [List.append_nil] at gives
  rw [List.append_assoc, List.cons_append, segments_of_cut _ unbroken cut]
  apply flatMap_ne_map gives
  rw [List.append_assoc, List.cons_append]
  apply Ne.symm
  apply reads.differs _ _ _ _ (cuts_iff.mp cut).1 (by simp)
  intro z member
  apply here.good
  rw [List.append_assoc, List.cons_append]
  exact List.mem_append_right _ (List.mem_cons_of_mem _ member)

theorem late_ne (reads : Reads b good begins f g) {xs : List α} {x : α}
    (here : b.Statement good begins (xs ++ [x])) (stops : b.stops x = true)
    (unbroken : b.Unbroken 0 (xs ++ [x])) {rest : List α} (more : rest ≠ [])
    (kept : ∀ y ∈ rest, good y) (statements : List (List α)) :
    ¬(b.segments 0 (xs ++ x :: rest)).flatMap f = ((xs ++ [x]) :: statements).map g := by
  obtain ⟨s, segs, some_, first⟩ := segments_of_unbroken_append unbroken more
  have text := b.segments_flatten 0 (xs ++ [x] ++ rest)
  rw [first, List.flatten_cons, List.append_assoc, List.append_cancel_left_eq] at text
  rw [List.append_cons, first]
  apply flatMap_ne_map (here.gives reads (List.append_nil _).symm (by simp) s)
  rw [← List.append_cons]
  apply reads.differs xs x s _ stops some_
  intro y member
  exact kept y (text ▸ List.mem_append_left _ member)

/-- What the segments give is what the statements give exactly where, in each statement, more is
open than is closed at every line but the last that may end it, and in each but the last one nothing
stays open. -/
theorem flatMap_segments_eq_iff (reads : Reads b good begins f g) {statements : List (List α)}
    (each : ∀ s ∈ statements, b.Statement good begins s) :
    (b.segments 0 statements.flatten).flatMap f = statements.map g ↔
      (∀ s ∈ statements, b.Inside 0 s.dropLast) ∧ ∀ s ∈ statements.dropLast, b.opened s ≤
        b.closed s := by
  induction statements with
  | nil => exact iff_of_true rfl ⟨List.forall_mem_nil _, List.forall_mem_nil _⟩
  | cons s statements ih =>
    obtain ⟨here, rest⟩ := List.forall_mem_cons.mp each
    obtain ⟨xs, x, rfl, stops⟩ := here.ends
    rw [List.flatten_cons, List.append_assoc, List.singleton_append, List.forall_mem_cons,
      List.dropLast_concat,
      ← unbroken_iff_inside]
    by_cases unbroken : b.Unbroken 0 xs
    · rw [and_iff_right unbroken]
      cases statements with
      | nil =>
        have gives := here.gives reads (List.append_nil _).symm (by simp) []
        rw [List.append_nil] at gives
        have one : b.segments 0 (xs ++ [x]) = [xs ++ [x]] := by
          cases cut : b.cuts (xs.foldl b.after 0) x with
          | true => exact segments_of_cut [] unbroken cut
          | false =>
            obtain ⟨y, ys, same, -⟩ := here.begins
            rw [same]
            exact segments_of_unbroken (same ▸ unbroken_concat unbroken cut)
        rw [List.flatten_nil, one]
        apply iff_of_true ((flatMap_cons_iff gives).mpr rfl)
        exact ⟨List.forall_mem_nil _, List.forall_mem_nil _⟩
      | cons t statements =>
        have ends : (∀ s ∈ (xs ++ [x]) :: (t :: statements).dropLast, b.opened s ≤ b.closed s) ↔
            b.cuts (xs.foldl b.after 0) x = true ∧ ∀ s ∈ (t :: statements).dropLast, b.opened s ≤
              b.closed s := by
          rw [List.forall_mem_cons, ← cuts_concat_iff unbroken stops]
        rw [List.dropLast_cons_of_ne_nil (List.cons_ne_nil _ _), ends]
        cases cut : b.cuts (xs.foldl b.after 0) x with
        | true =>
          have gives := here.gives reads (List.append_nil _).symm (by simp) []
          rw [List.append_nil] at gives
          rw [segments_of_cut _ unbroken cut, flatMap_cons_iff gives, ih rest]
          simp only [true_and]
        | false =>
          apply iff_of_false _ (by simp)
          obtain ⟨y, ys, rfl, -⟩ := (rest t List.mem_cons_self).begins
          have some_ : ((y :: ys) :: statements).flatten ≠ [] := List.cons_ne_nil _ _
          apply late_ne reads here stops (unbroken_concat unbroken cut) some_
          intro y member
          obtain ⟨s, listed, member⟩ := List.mem_flatten.mp member
          exact (rest s listed).good y member
    · apply iff_of_false (early_ne reads here unbroken _ _)
      exact fun whole => unbroken whole.1.1

end Statements

end Blocks

end DreamStudio.Library
