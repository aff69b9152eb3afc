import Mathlib.Data.List.Basic

namespace DreamStudio.Library

universe u

variable {α : Type u} [DecidableEq α] {sep : α} {ahead : List α → Bool}

/-- The text cut at every separator with text behind it that `ahead` accepts. -/
def cut (sep : α) (ahead : List α → Bool) : List α → List (List α)
  | [] => [[]]
  | c :: s =>
    if c = sep ∧ ahead s = true then [] :: cut sep ahead s
    else (cut sep ahead s).modifyHead (c :: ·)

/-- No separator has text behind it that `ahead` accepts. -/
def Whole (sep : α) (ahead : List α → Bool) : List α → Prop
  | [] => True
  | c :: s => ¬(c = sep ∧ ahead s = true) ∧ Whole sep ahead s

/-- What `ahead` accepts is settled before the next separator. -/
def Settled (sep : α) (ahead : List α → Bool) : Prop :=
  ∀ s t, ahead (s ++ sep :: t) = ahead s

theorem isPrefixOf_append_cons {p : List α} (free : sep ∉ p) (s t : List α) :
    p.isPrefixOf (s ++ sep :: t) = p.isPrefixOf s := by
  induction p generalizing s with
  | nil => simp
  | cons c p ih =>
    have apart : c ≠ sep := fun same => free (same ▸ List.mem_cons_self)
    cases s with
    | nil => simp [List.isPrefixOf, apart]
    | cons d s =>
      rw [List.cons_append, List.isPrefixOf, List.isPrefixOf,
        ih (List.not_mem_of_not_mem_cons free)]

theorem settled_any {ps : List (List α)} (free : ∀ p ∈ ps, sep ∉ p) :
    Settled sep fun s => ps.any (·.isPrefixOf s) := by
  intro s t
  induction ps with
  | nil => rfl
  | cons p ps ih =>
    rw [List.forall_mem_cons] at free
    show (p :: ps).any _ = (p :: ps).any _
    rw [List.any_cons, List.any_cons, isPrefixOf_append_cons free.1]
    exact congrArg _ (ih free.2)

section Pieces

theorem cut_ne_nil (s : List α) : cut sep ahead s ≠ [] := by
  induction s with
  | nil => exact List.cons_ne_nil _ _
  | cons c s ih =>
    rw [cut]
    split
    · exact List.cons_ne_nil _ _
    · cases h : cut sep ahead s with
      | nil => exact absurd h ih
      | cons p ps => exact List.cons_ne_nil _ _

theorem intercalate_cut (s : List α) : [sep].intercalate (cut sep ahead s) = s := by
  induction s with
  | nil => rfl
  | cons c s ih =>
    rw [cut]
    split
    next here =>
      rw [List.intercalate_cons_of_ne_nil (cut_ne_nil s), ih, here.1]
      rfl
    next =>
      cases h : cut sep ahead s with
      | nil => exact absurd h (cut_ne_nil s)
      | cons p ps =>
        rw [h] at ih
        cases ps with
        | nil =>
          rw [List.intercalate_singleton] at ih
          rw [List.modifyHead_cons, List.intercalate_singleton, ih]
        | cons q qs =>
          rw [List.intercalate_cons_cons] at ih
          rw [List.modifyHead_cons, List.intercalate_cons_cons, List.append_assoc,
            List.cons_append, ← List.append_assoc, ih]

theorem cut_of_whole {s : List α} (whole : Whole sep ahead s) : cut sep ahead s = [s] := by
  induction s with
  | nil => rfl
  | cons c s ih => rw [cut, if_neg whole.1, ih whole.2, List.modifyHead_cons]

omit [DecidableEq α] in
theorem whole_append_of_not_mem {p : List α} (free : sep ∉ p) (s : List α) :
    Whole sep ahead (p ++ s) ↔ Whole sep ahead s := by
  induction p with
  | nil => rfl
  | cons c p ih =>
    rw [List.cons_append, Whole, ih (List.not_mem_of_not_mem_cons free)]
    apply and_iff_right
    intro here
    exact free (here.1 ▸ List.mem_cons_self)

omit [DecidableEq α] in
theorem whole_of_append (grows : ∀ s t, ahead s = true → ahead (s ++ t) = true) {s t : List α}
    (whole : Whole sep ahead (s ++ t)) : Whole sep ahead s := by
  induction s with
  | nil => trivial
  | cons c s ih => exact ⟨fun here => whole.1 ⟨here.1, grows s t here.2⟩, ih whole.2⟩

theorem mem_of_mem_cut {s p : List α} (member : p ∈ cut sep ahead s) {c : α} (char : c ∈ p) :
    c ∈ s := by
  induction s generalizing p with
  | nil => rwa [← List.mem_singleton.mp member]
  | cons d s ih =>
    rw [cut] at member
    split at member
    next =>
      rcases List.mem_cons.mp member with rfl | member
      · cases char
      · exact List.mem_cons_of_mem d (ih member char)
    next =>
      cases h : cut sep ahead s with
      | nil => exact absurd h (cut_ne_nil s)
      | cons q qs =>
        rw [h] at ih member
        rcases List.mem_cons.mp member with rfl | member
        · exact (List.mem_cons.mp char).elim (fun here => here ▸ List.mem_cons_self)
            fun later => List.mem_cons_of_mem d (ih List.mem_cons_self later)
        · exact List.mem_cons_of_mem d (ih (List.mem_cons_of_mem q member) char)

variable (settled : Settled sep ahead)

include settled

theorem cut_append {t : List α} (cuts : ahead t = true) (s : List α) :
    cut sep ahead (s ++ sep :: t) = cut sep ahead s ++ cut sep ahead t := by
  induction s with
  | nil =>
    rw [List.nil_append, cut.eq_2, if_pos ⟨rfl, cuts⟩]
    rfl
  | cons c s ih =>
    rw [List.cons_append, cut.eq_2, cut.eq_2, settled s t, ih]
    split
    · rfl
    · cases h : cut sep ahead s with
      | nil => exact absurd h (cut_ne_nil s)
      | cons p ps => rfl

theorem cut_intercalate {p : List α} {ps : List (List α)} (cuts : ∀ q ∈ ps, ahead q = true) :
    cut sep ahead ([sep].intercalate (p :: ps)) = (p :: ps).flatMap (cut sep ahead) := by
  induction ps generalizing p with
  | nil => rw [List.intercalate_singleton, List.flatMap_singleton]
  | cons q ps ih =>
    have here : ahead ([sep].intercalate (q :: ps)) = true := by
      cases ps with
      | nil => rw [List.intercalate_singleton]; exact cuts q List.mem_cons_self
      | cons r ps =>
        rw [List.intercalate_cons_cons, List.append_assoc, List.singleton_append, settled]
        exact cuts q List.mem_cons_self
    rw [List.intercalate_cons_cons, List.append_assoc, List.singleton_append,
      cut_append settled here, ih fun r member => cuts r (List.mem_cons_of_mem q member)]
    rfl

theorem whole_of_mem_cut {s p : List α} (member : p ∈ cut sep ahead s) : Whole sep ahead p := by
  induction s generalizing p with
  | nil => rw [List.mem_singleton.mp member]; trivial
  | cons c s ih =>
    rw [cut] at member
    split at member
    next =>
      rcases List.mem_cons.mp member with rfl | member
      · trivial
      · exact ih member
    next here =>
      cases h : cut sep ahead s with
      | nil => exact absurd h (cut_ne_nil s)
      | cons q qs =>
        rw [h] at ih member
        rcases List.mem_cons.mp member with rfl | member
        · refine ⟨fun cuts => here ⟨cuts.1, ?_⟩, ih List.mem_cons_self⟩
          have joined : [sep].intercalate (cut sep ahead s) = s := intercalate_cut s
          rw [h] at joined
          cases qs with
          | nil => rw [List.intercalate_singleton] at joined; exact joined ▸ cuts.2
          | cons r rs =>
            rw [List.intercalate_cons_cons, List.append_assoc, List.singleton_append] at joined
            rw [← joined, settled]
            exact cuts.2
        · exact ih (List.mem_cons_of_mem q member)

end Pieces

end DreamStudio.Library
