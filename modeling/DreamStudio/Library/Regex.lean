import Mathlib.Data.List.Basic

namespace DreamStudio.Library

universe u

/-- Regular expressions, with groups and tests of a place. -/
inductive Regex (α : Type u)
  | empty
  | one (p : α → Bool)
  | look (p : Option α → Option α → Bool)
  | seq (r t : Regex α)
  | alt (r t : Regex α)
  | star (r : Regex α)
  | group (n : Nat) (r : Regex α)

/-- A place in a text: what stands before it, what is ahead and what the groups hold. -/
structure Spot (α : Type u) where
  last : Option α
  ahead : List α
  groups : List (Nat × List α) := []

namespace Spot

variable {α : Type u}

def step (s : Spot α) : Spot α :=
  match s.ahead with
  | [] => s
  | c :: cs => { s with last := some c, ahead := cs }

/-- `n` places further. -/
def skip : Nat → Spot α → Spot α
  | 0, s => s
  | n + 1, s => skip n s.step

/-- What is taken on the way to a later place. -/
def taken (s t : Spot α) : List α := s.ahead.take (s.ahead.length - t.ahead.length)

@[simp] theorem step_ahead (s : Spot α) : s.step.ahead = s.ahead.tail := by
  cases s with
  | mk last ahead groups => cases ahead <;> rfl

@[simp] theorem skip_ahead (n : Nat) (s : Spot α) : (s.skip n).ahead = s.ahead.drop n := by
  induction n generalizing s with
  | zero => rfl
  | succ n ih => rw [skip, ih, step_ahead, List.drop_tail]

theorem skip_add (m n : Nat) (s : Spot α) : s.skip (m + n) = (s.skip m).skip n := by
  induction m generalizing s with
  | zero => rw [Nat.zero_add]; rfl
  | succ m ih => rw [Nat.succ_add, skip, ih]; rfl

theorem taken_skip {n : Nat} {s : Spot α} (within : n ≤ s.ahead.length) :
    s.taken (s.skip n) = s.ahead.take n := by
  rw [taken, skip_ahead, List.length_drop]
  congr 1
  omega

end Spot

namespace Regex

variable {α : Type u}

def again (f : Spot α → List (Spot α)) : Nat → Spot α → List (Spot α)
  | 0, s => [s]
  | n + 1, s => ((f s).filter (·.ahead.length < s.ahead.length)).flatMap (again f n) ++ [s]

/-- Where a match may end, in the order in which a matcher that backtracks comes to it. -/
def runs : Regex α → Spot α → List (Spot α)
  | .empty, s => [s]
  | .one p, s => if s.ahead.head?.any p then [s.step] else []
  | .look p, s => if p s.last s.ahead.head? then [s] else []
  | .seq r t, s => (runs r s).flatMap (runs t)
  | .alt r t, s => runs r s ++ runs t s
  | .star r, s => again (runs r) s.ahead.length s
  | .group n r, s => (runs r s).map fun t => { t with groups := (n, s.taken t) :: t.groups }

def first (r : Regex α) (s : Spot α) : Option (Spot α) := (runs r s).head?

def plus (r : Regex α) : Regex α := .seq r (.star r)

def opt (r : Regex α) : Regex α := .alt r .empty

def literal [DecidableEq α] : List α → Regex α
  | [] => .empty
  | c :: cs => .seq (.one (· = c)) (literal cs)

theorem again_enough (f : Spot α → List (Spot α)) {m n : Nat} {s : Spot α} (hm : s.ahead.length ≤ m)
    (hn : s.ahead.length ≤ n) : again f m s = again f n s := by
  induction m generalizing n s with
  | zero =>
    have none : (f s).filter (·.ahead.length < s.ahead.length) = [] := by
      apply List.filter_eq_nil_iff.mpr
      intro t _
      simp only [decide_eq_true_eq]
      omega
    cases n with
    | zero => rfl
    | succ n => rw [again, again, none]; rfl
  | succ m ih =>
    cases n with
    | zero =>
      have none : (f s).filter (·.ahead.length < s.ahead.length) = [] := by
        apply List.filter_eq_nil_iff.mpr
        intro t _
        simp only [decide_eq_true_eq]
        omega
      rw [again, again, none]
      rfl
    | succ n =>
      rw [again, again]
      congr 1
      apply List.flatMap_congr
      intro t member
      have shorter := of_decide_eq_true (List.mem_filter.mp member).2
      apply ih <;> omega

theorem runs_star (r : Regex α) (s : Spot α) :
    runs (.star r) s = ((runs r s).filter (·.ahead.length < s.ahead.length)).flatMap
      (runs (.star r)) ++ [s] := by
  change again (runs r) s.ahead.length s = _
  rw [again_enough (runs r) (Nat.le_refl _) (Nat.le_succ _), again]
  congr 1
  apply List.flatMap_congr
  intro t member
  have shorter := of_decide_eq_true (List.mem_filter.mp member).2
  exact again_enough (runs r) (by omega) (Nat.le_refl _)

theorem first_seq (r t : Regex α) (s : Spot α) :
    first (.seq r t) s = (runs r s).findSome? (first t) :=
  List.head?_flatMap

theorem first_seq_of_first {r t : Regex α} {s u v : Spot α} (here : first r s = some u)
    (there : first t u = some v) :
    first (.seq r t) s = some v := by
  obtain ⟨us, tries⟩ := List.head?_eq_some_iff.mp here
  rw [first_seq, tries, List.findSome?_cons, there]

theorem first_seq_eq_none {r t : Regex α} {s : Spot α} (fails : ∀ u ∈ runs r s, first t u = none) :
    first (.seq r t) s = none := by
  rw [first_seq]
  exact List.findSome?_eq_none_iff.mpr fails

theorem first_group (n : Nat) (r : Regex α) (s : Spot α) :
    first (.group n r) s =
      (first r s).map fun t => { t with groups := (n, s.taken t) :: t.groups } :=
  List.head?_map

theorem first_star_isSome (r : Regex α) (s : Spot α) : (first (.star r) s).isSome := by
  rw [first, runs_star, List.head?_append]
  cases (((runs r s).filter _).flatMap _).head? <;> rfl

theorem first_star_next {r : Regex α} {s u : Spot α} (here : first r s = some u)
    (shorter : u.ahead.length < s.ahead.length) : first (.star r) s = first (.star r) u := by
  obtain ⟨us, tries⟩ := List.head?_eq_some_iff.mp here
  obtain ⟨v, ends⟩ := Option.isSome_iff_exists.mp (first_star_isSome r u)
  rw [first, runs_star, tries, List.filter_cons, if_pos (decide_eq_true shorter), List.flatMap_cons,
    List.append_assoc, List.head?_append]
  change (first (.star r) u).or _ = _
  rw [ends]
  rfl

theorem first_star_stop {r : Regex α} {s : Spot α} (none : runs r s = []) :
    first (.star r) s = some s := by
  rw [first, runs_star, none]
  rfl

theorem runs_one_of_head {p : α → Bool} {s : Spot α} {c : α} {cs : List α}
    (ahead : s.ahead = c :: cs) :
    runs (.one p) s = if p c then [s.step] else [] := by
  rw [runs, ahead]
  rfl

theorem runs_one_of_end {p : α → Bool} {s : Spot α} (ahead : s.ahead = []) :
    runs (.one p) s = [] := by
  rw [runs, ahead]
  rfl

/-- All that `p` lets through, or less. -/
theorem runs_star_one (p : α → Bool) (s : Spot α) :
    runs (.star (.one p)) s = ((List.range ((s.ahead.takeWhile p).length + 1)).reverse).map
      (s.skip ·) := by
  generalize text : s.ahead = cs
  induction cs generalizing s with
  | nil =>
    rw [runs_star, runs_one_of_end text]
    rfl
  | cons c cs ih =>
    rw [runs_star, runs_one_of_head text, List.takeWhile_cons]
    cases p c with
    | false => rfl
    | true =>
      have ahead : s.step.ahead = cs := by rw [Spot.step_ahead, text]; rfl
      have shorter : s.step.ahead.length < s.ahead.length := by
        rw [ahead, text]
        exact Nat.lt_succ_self _
      rw [if_pos rfl, List.filter_cons, if_pos (decide_eq_true shorter), List.filter_nil,
        List.flatMap_cons,
        List.flatMap_nil, List.append_nil, ih s.step ahead, if_pos rfl, List.length_cons,
          List.range_succ_eq_map (n := (cs.takeWhile p).length + 1),
        List.reverse_cons, List.map_append, ← List.map_reverse, List.map_map]
      rfl

theorem first_star_one (p : α → Bool) (s : Spot α) :
    first (.star (.one p)) s = some (s.skip (s.ahead.takeWhile p).length) := by
  rw [first, runs_star_one, List.range_succ, List.reverse_append]
  rfl

theorem runs_literal [DecidableEq α] (cs : List α) (s : Spot α) :
    runs (literal cs) s = if cs.isPrefixOf s.ahead then [s.skip cs.length] else [] := by
  induction cs generalizing s with
  | nil =>
    rw [literal, List.isPrefixOf_nil_left]
    rfl
  | cons c cs ih =>
    rw [literal, runs]
    generalize text : s.ahead = ds
    cases ds with
    | nil =>
      rw [runs_one_of_end text]
      rfl
    | cons d ds =>
      rw [runs_one_of_head text, List.isPrefixOf]
      by_cases same : d = c
      · rw [if_pos (decide_eq_true same), List.flatMap_cons, List.flatMap_nil, List.append_nil, ih,
          Spot.step_ahead,
          text, same, beq_self_eq_true]
        rfl
      · rw [if_neg (by simpa using same), beq_eq_false_iff_ne.mpr (Ne.symm same)]
        rfl

theorem again_suffix {f : Spot α → List (Spot α)}
    (hf : ∀ s, ∀ t ∈ f s, t.ahead <:+ s.ahead) (n : Nat) {s t : Spot α}
    (member : t ∈ again f n s) : t.ahead <:+ s.ahead := by
  induction n generalizing s with
  | zero => exact (List.mem_singleton.mp member) ▸ List.suffix_rfl
  | succ n ih =>
    rw [again, List.mem_append, List.mem_flatMap] at member
    rcases member with ⟨u, once, more⟩ | here
    · exact (ih more).trans (hf s u (List.mem_filter.mp once).1)
    · exact (List.mem_singleton.mp here) ▸ List.suffix_rfl

theorem runs_suffix {r : Regex α} {s t : Spot α} (member : t ∈ runs r s) :
    t.ahead <:+ s.ahead := by
  induction r generalizing s t with
  | empty => exact (List.mem_singleton.mp member) ▸ List.suffix_rfl
  | one p =>
    rw [runs] at member
    split at member
    · rw [List.mem_singleton.mp member, Spot.step_ahead]
      exact List.tail_suffix _
    · cases member
  | look p =>
    rw [runs] at member
    split at member
    · exact (List.mem_singleton.mp member) ▸ List.suffix_rfl
    · cases member
  | seq r t ihr iht =>
    obtain ⟨u, here, next⟩ := List.mem_flatMap.mp member
    exact (iht next).trans (ihr here)
  | alt r t ihr iht => exact (List.mem_append.mp member).elim ihr iht
  | star r ih => exact again_suffix (fun _ _ => ih) _ member
  | group n r ih =>
    obtain ⟨u, here, rfl⟩ := List.mem_map.mp member
    change u.ahead <:+ s.ahead
    exact ih here

/-- The leftmost match. -/
def search (r : Regex α) (last : Option α) : List α → Option (Spot α)
  | [] => first r ⟨last, [], []⟩
  | c :: cs => (first r ⟨last, c :: cs, []⟩).or (search r (some c) cs)

theorem search_of_first {r : Regex α} {last : Option α} {cs : List α} {t : Spot α}
    (here : first r ⟨last, cs, []⟩ = some t) : search r last cs = some t := by
  cases cs with
  | nil => exact here
  | cons c cs => rw [search, here]; rfl

/-- Where nothing matches at the places of `ds`, they are passed. -/
theorem search_append {r : Regex α} (last : Option α) {ds cs : List α}
    (fails : ∀ us v vs, ds = us ++ v :: vs → ∀ last, first r ⟨last, v :: vs ++ cs, []⟩ = none) :
    ∃ last', search r last (ds ++ cs) = search r last' cs := by
  induction ds generalizing last with
  | nil => exact ⟨last, rfl⟩
  | cons d ds ih =>
    rw [List.cons_append, search, ← List.cons_append, fails [] d ds rfl]
    exact ih (some d) fun us v vs split => fails (d :: us) v vs (congrArg (d :: ·) split)

end Regex

end DreamStudio.Library
