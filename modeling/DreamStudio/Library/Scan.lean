import DreamStudio.Library.Regex

namespace DreamStudio.Library

universe u v

variable {α : Type u} {β : Type v}

/-- What is found at a place, and how much of the text it takes. -/
structure Hit (α : Type u) (β : Type v) where
  place : Spot α
  found : β
  size : Nat

/-- What `m` finds from left to right, each past the one before; `n` places are passed first. -/
def hits (m : Spot α → Option (β × Nat)) : Nat → Option α → List α → List (Hit α β)
  | _, _, [] => []
  | n + 1, _, c :: cs => hits m n (some c) cs
  | 0, last, c :: cs =>
    match m ⟨last, c :: cs, []⟩ with
    | some (b, n + 1) => ⟨⟨last, c :: cs, []⟩, b, n + 1⟩ :: hits m n (some c) cs
    | _ => hits m 0 (some c) cs

/-- `m`, where `bad` does not forbid it. -/
def barred (bad : Spot α → Bool) (m : Spot α → Option (β × Nat)) (s : Spot α) : Option (β × Nat) :=
  if bad s then none else m s

variable {m : Spot α → Option (β × Nat)} {bad : Spot α → Bool}

/-- Nothing is taken at the first `n` places. -/
def Quiet (m : Spot α → Option (β × Nat)) (n : Nat) (s : Spot α) : Prop :=
  ∀ i < n, ∀ p ∈ m (s.skip i), p.2 = 0

instance (m : Spot α → Option (β × Nat)) (n : Nat) (s : Spot α) : Decidable (Quiet m n s) :=
  inferInstanceAs (Decidable (∀ i < n, ∀ p ∈ m (s.skip i), p.2 = 0))

theorem hits_of_quiet {c : α} {cs : List α} {last : Option α}
    (none : ∀ p ∈ m ⟨last, c :: cs, []⟩, p.2 = 0) :
    hits m 0 last (c :: cs) = hits m 0 (some c) cs := by
  rw [hits]
  split
  · rename_i b n found
    cases none _ found
  · rfl

theorem hits_of_some {c : α} {cs : List α} {last : Option α} {b : β} {n : Nat}
    (found : m ⟨last, c :: cs, []⟩ = some (b, n + 1)) :
    hits m 0 last (c :: cs) = ⟨⟨last, c :: cs, []⟩, b, n + 1⟩ :: hits m n (some c) cs := by
  rw [hits, found]

theorem hits_quiet {n : Nat} {last : Option α} {cs : List α} (quiet : Quiet m n ⟨last, cs, []⟩) :
    hits m 0 last cs = hits m n last cs := by
  induction n generalizing last cs with
  | zero => rfl
  | succ n ih =>
    cases cs with
    | nil => rfl
    | cons c cs =>
      rw [hits_of_quiet (quiet 0 (Nat.succ_pos n)), hits]
      exact ih fun i less => quiet (i + 1) (Nat.succ_lt_succ less)

/-- Refusing a match afterwards comes to the same as never starting it, where nothing that may start
lies within a match that is refused. -/
theorem hits_barred {n : Nat} {last : Option α} {cs : List α}
    (quiet : ∀ h ∈ hits m n last cs, bad h.place = true → Quiet (barred bad m) h.size h.place) :
    hits (barred bad m) n last cs = (hits m n last cs).filter (!bad ·.place) := by
  induction cs generalizing n last with
  | nil => cases n <;> rfl
  | cons c cs ih =>
    cases n with
    | succ n => exact ih quiet
    | zero =>
      by_cases found : ∃ b k, m ⟨last, c :: cs, []⟩ = some (b, k + 1)
      · obtain ⟨b, k, found⟩ := found
        rw [hits_of_some found] at quiet ⊢
        obtain ⟨here, later⟩ := List.forall_mem_cons.mp quiet
        have rest := ih later
        cases refused : bad ⟨last, c :: cs, []⟩ with
        | true =>
          rw [List.filter_cons_of_neg (by simp [refused]), ← rest, hits_quiet (here refused)]
          rfl
        | false =>
          have same : barred bad m ⟨last, c :: cs, []⟩ = some (b, k + 1) := by
            rw [barred, refused, if_neg Bool.false_ne_true, found]
          rw [List.filter_cons_of_pos (by simp [refused]), ← rest, hits_of_some same]
      · have none : ∀ p ∈ m ⟨last, c :: cs, []⟩, p.2 = 0 := by
          intro p here
          by_contra some
          obtain ⟨k, size⟩ := Nat.exists_eq_succ_of_ne_zero some
          exact found ⟨p.1, k, here.trans (congrArg (fun n => Option.some (p.1, n)) size)⟩
        have none' : ∀ p ∈ barred bad m ⟨last, c :: cs, []⟩, p.2 = 0 := by
          rw [barred]
          split
          · nofun
          · exact none
        rw [hits_of_quiet none] at quiet ⊢
        rw [hits_of_quiet none']
        exact ih quiet

/-- The places at which the scan asks `m`. -/
def visits (m : Spot α → Option (β × Nat)) : Nat → Option α → List α → List (Spot α)
  | _, _, [] => []
  | n + 1, _, c :: cs => visits m n (some c) cs
  | 0, last, c :: cs =>
    ⟨last, c :: cs, []⟩ ::
      match m ⟨last, c :: cs, []⟩ with
      | some (_, n + 1) => visits m n (some c) cs
      | _ => visits m 0 (some c) cs

theorem hits_congr {m m' : Spot α → Option (β × Nat)} {n : Nat} {last : Option α} {cs : List α}
    (same : ∀ s ∈ visits m n last cs, m s = m' s) :
    hits m n last cs = hits m' n last cs := by
  induction cs generalizing n last with
  | nil => cases n <;> rfl
  | cons c cs ih =>
    cases n with
    | succ n => exact ih same
    | zero =>
      rw [visits] at same
      obtain ⟨here, later⟩ := List.forall_mem_cons.mp same
      rw [hits, hits, ← here]
      split
      · rename_i found
        rw [found] at later
        rw [ih later]
      · rename_i other
        split at later
        · rename_i found
          exact absurd found (other _ _)
        · exact ih later

namespace Regex

/-- `ok` wherever `f` is begun again. -/
def throughout (ok : Spot α → Bool) (f : Spot α → List (Spot α)) : Nat → Spot α → Bool
  | 0, _ => true
  | n + 1, s => ok s && ((f s).filter (·.ahead.length < s.ahead.length)).all (throughout ok f n)

/-- Two expressions of one shape, whose tests agree on everything that a match from `s` puts them
to. -/
def even : Regex α → Regex α → Spot α → Bool
  | .empty, .empty, _ => true
  | .one p, .one q, s => s.ahead.head?.any p == s.ahead.head?.any q
  | .look p, .look q, s => p s.last s.ahead.head? == q s.last s.ahead.head?
  | .seq r t, .seq r' t', s => even r r' s && (runs r s).all (even t t')
  | .alt r t, .alt r' t', s => even r r' s && even t t' s
  | .star r, .star r', s => throughout (even r r') (runs r) s.ahead.length s
  | .group m r, .group n r', s => m == n && even r r' s
  | _, _, _ => false

theorem again_congr {ok : Spot α → Bool} {f g : Spot α → List (Spot α)}
    (same : ∀ s, ok s = true → f s = g s) {n : Nat} {s : Spot α}
    (through : throughout ok f n s = true) : again f n s = again g n s := by
  induction n generalizing s with
  | zero => rfl
  | succ n ih =>
    rw [throughout, Bool.and_eq_true] at through
    rw [again, again, ← same s through.1]
    congr 1
    apply List.flatMap_congr
    intro t member
    exact ih (List.all_eq_true.mp through.2 t member)

theorem runs_of_even {r r' : Regex α} {s : Spot α} (h : even r r' s = true) :
    runs r s = runs r' s := by
  induction r generalizing r' s with
  | empty =>
    cases r' with
    | empty => rfl
    | _ => cases h
  | one p =>
    cases r' with
    | one q =>
      have same : s.ahead.head?.any p = s.ahead.head?.any q := eq_of_beq h
      rw [runs, runs, same]
    | _ => cases h
  | look p =>
    cases r' with
    | look q =>
      have same : p s.last s.ahead.head? = q s.last s.ahead.head? := eq_of_beq h
      rw [runs, runs, same]
    | _ => cases h
  | seq r t left right =>
    cases r' with
    | seq r' t' =>
      rw [even, Bool.and_eq_true] at h
      rw [runs, runs, ← left h.1]
      apply List.flatMap_congr
      intro u member
      exact right (List.all_eq_true.mp h.2 u member)
    | _ => cases h
  | alt r t left right =>
    cases r' with
    | alt r' t' =>
      rw [even, Bool.and_eq_true] at h
      rw [runs, runs, left h.1, right h.2]
    | _ => cases h
  | star r body =>
    cases r' with
    | star r' => exact again_congr (fun _ ok => body ok) h
    | _ => cases h
  | group m r body =>
    cases r' with
    | group n r' =>
      rw [even, Bool.and_eq_true] at h
      rw [runs, runs, eq_of_beq h.1, body h.2]
    | _ => cases h

/-- Neither matches from `s`, or no test of the one parts ways with that of the other. -/
def Alike (r r' : Regex α) (s : Spot α) : Prop :=
  (first r s = none ∧ first r' s = none) ∨ even r r' s = true

instance (r r' : Regex α) (s : Spot α) : Decidable (Alike r r' s) :=
  decidable_of_iff (((first r s).isNone && (first r' s).isNone) = true ∨ even r r' s = true) <| by
    rw [Alike, Bool.and_eq_true, Option.isNone_iff_eq_none, Option.isNone_iff_eq_none]

theorem Alike.first_eq {r r' : Regex α} {s : Spot α} (alike : Alike r r' s) :
    first r s = first r' s := by
  rcases alike with ⟨fails, fails'⟩ | same
  · rw [fails, fails']
  · rw [first, first, runs_of_even same]

def tries (r : Regex α) (last : Option α) : List α → List (Spot α)
  | [] => [⟨last, [], []⟩]
  | c :: cs =>
    ⟨last, c :: cs, []⟩ ::
      if (first r ⟨last, c :: cs, []⟩).isSome then [] else tries r (some c) cs

theorem search_congr {r r' : Regex α} {last : Option α} {cs : List α}
    (same : ∀ s ∈ tries r last cs, first r s = first r' s) :
    search r last cs = search r' last cs := by
  induction cs generalizing last with
  | nil => exact same _ (List.mem_singleton_self _)
  | cons c cs ih =>
    rw [tries] at same
    obtain ⟨here, later⟩ := List.forall_mem_cons.mp same
    rw [search, search, ← here]
    cases found : first r ⟨last, c :: cs, []⟩ with
    | some t => rfl
    | none =>
      rw [found, Option.isSome_none, if_neg Bool.false_ne_true] at later
      rw [Option.none_or, Option.none_or, ih later]

def find (r : Regex α) (s : Spot α) : Option (List (Nat × List α) × Nat) :=
  (first r s).map fun t => (t.groups, s.ahead.length - t.ahead.length)

theorem find_look (p : Option α → Option α → Bool) (r : Regex α) (s : Spot α) :
    find (.seq (.look p) r) s = barred (fun s => !p s.last s.ahead.head?) (find r) s := by
  rw [find, first_seq, runs, barred]
  cases p s.last s.ahead.head? with
  | true => rw [if_pos rfl, List.findSome?_singleton]; rfl
  | false => rfl

theorem Alike.find_eq {r r' : Regex α} {s : Spot α} (alike : Alike r r' s) :
    find r s = find r' s := by
  rw [find, find, alike.first_eq]

end Regex

end DreamStudio.Library
