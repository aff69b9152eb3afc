import DreamStudio.Library.Machine

namespace DreamStudio.Library.Machine

universe u v

variable {S : Type u} {L : Type v} (M : Machine S L)

/-- The steps that `counts` marks in a run. -/
def tally (counts : Transition S L → Bool) (s : S) (ls : List L) : Nat :=
  (M.transitions s ls).countP counts

/-- The allowance rule: when no step raises the potential and every marked step lowers it, the
potential of the first state bounds the marked steps, and what is left of it is in the last. -/
theorem tally_add_le {counts : Transition S L → Bool} (potential : S → Nat) {G : S → L → Prop}
    (step : ∀ s l t, G s l → M.step s l = some t →
      (if counts ⟨s, l, t⟩ then 1 else 0) + potential t ≤ potential s)
    {s t : S} {ls : List L} (guard : ∀ x ∈ M.transitions s ls, G x.before x.label)
    (reach : M.run s ls = some t) : M.tally counts s ls + potential t ≤ potential s := by
  induction ls generalizing s with
  | nil =>
    cases reach
    simp [tally]
  | cons l ls ih =>
    cases h : M.step s l with
    | none => simp [h] at reach
    | some u =>
      rw [M.transitions_cons_of_step h, List.forall_mem_cons] at guard
      simp only [run_cons, h, Option.bind_some] at reach
      have later := ih guard.2 reach
      have here := step s l u guard.1 h
      simp only [tally, M.transitions_cons_of_step h, List.countP_cons] at later ⊢
      omega

theorem add_tally_eq {counts : Transition S L → Bool} (measure : S → Nat)
    (step : ∀ s l t, M.step s l = some t →
      measure t = measure s + if counts ⟨s, l, t⟩ then 1 else 0)
    {s t : S} {ls : List L} (reach : M.run s ls = some t) :
    measure t = measure s + M.tally counts s ls := by
  induction ls generalizing s with
  | nil =>
    cases reach
    simp [tally]
  | cons l ls ih =>
    cases h : M.step s l with
    | none => simp [h] at reach
    | some u =>
      simp only [run_cons, h, Option.bind_some] at reach
      have later := ih reach
      have here := step s l u h
      simp only [tally, M.transitions_cons_of_step h, List.countP_cons] at later ⊢
      omega

theorem tally_eq_zero {counts : Transition S L → Bool} {s : S} {ls : List L} :
    M.tally counts s ls = 0 ↔ ∀ x ∈ M.transitions s ls, ¬counts x = true :=
  List.countP_eq_zero

theorem of_mem_transitions {P : S → Prop} {G : S → L → Prop}
    (keep : ∀ s l t, P s → G s l → M.step s l = some t → P t) {s t : S} {ls : List L}
    (guard : ∀ x ∈ M.transitions s ls, G x.before x.label) (reach : M.run s ls = some t)
    {x : Transition S L} (taken : x ∈ M.transitions s ls) (there : P x.after) : P t := by
  induction ls generalizing s with
  | nil => cases taken
  | cons l ls ih =>
    cases h : M.step s l with
    | none => simp [h] at reach
    | some u =>
      rw [M.transitions_cons_of_step h] at guard taken
      simp only [run_cons, h, Option.bind_some] at reach
      have rest : ∀ y ∈ M.transitions u ls, G y.before y.label :=
        fun y hy => guard y (List.mem_cons_of_mem _ hy)
      cases List.mem_cons.mp taken with
      | inl here =>
        subst here
        exact M.run_invariant_of_guarded (G := fun s l _ => G s l) keep there rest reach
      | inr later => exact ih rest reach later

theorem tally_le_one {counts : Transition S L → Bool} {P : S → Prop} {G : S → L → Prop}
    (ends : ∀ s l t, M.step s l = some t → counts ⟨s, l, t⟩ = true → ¬P s ∧ P t)
    (keep : ∀ s l t, P s → G s l → M.step s l = some t → P t)
    {s t : S} {ls : List L} (guard : ∀ x ∈ M.transitions s ls, G x.before x.label)
    (reach : M.run s ls = some t) : M.tally counts s ls ≤ 1 := by
  classical
  let potential (s : S) : Nat := if P s then 0 else 1
  have low (s : S) : potential s ≤ 1 := by
    unfold potential
    split <;> omega
  have step (s : S) (l : L) (t : S) (ok : G s l) (h : M.step s l = some t) :
      (if counts ⟨s, l, t⟩ then 1 else 0) + potential t ≤ potential s := by
    cases marked : counts ⟨s, l, t⟩ with
    | true =>
      obtain ⟨before, after⟩ := ends s l t h marked
      simp [potential, before, after]
    | false =>
      by_cases held : P s
      · simp [potential, held, keep s l t held ok h]
      · simpa [potential, held] using low t
  have bound := M.tally_add_le potential step guard reach
  have most := low s
  omega

end DreamStudio.Library.Machine
