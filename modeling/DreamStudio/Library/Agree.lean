import Mathlib.Logic.Basic

namespace DreamStudio.Library

universe u

variable {α : Type u} {s p q : α → Prop}

/-- Two searches for something wrong agree on finding none where they meet, or where each or neither
finds something that the other does not. -/
theorem none_iff_none_iff : ((∀ x, s x → ¬p x) ↔ ∀ x, s x → ¬q x) ↔
    (∃ x, s x ∧ p x ∧ q x) ∨ ((∃ x, s x ∧ p x ∧ ¬q x) ↔ ∃ x, s x ∧ q x ∧ ¬p x) := by
  constructor
  · intro agree
    apply or_iff_not_imp_left.mpr
    intro apart
    have only {x : α} (held : s x) (hp : p x) : ¬q x := fun hq => apart ⟨x, held, hp, hq⟩
    constructor
    · rintro ⟨x, held, hp, -⟩
      have some_ : ¬∀ x, s x → ¬q x := fun none => agree.mpr none x held hp
      simp only [not_forall, not_not, exists_prop] at some_
      obtain ⟨y, member, hq⟩ := some_
      exact ⟨y, member, hq, fun hp => only member hp hq⟩
    · rintro ⟨x, held, hq, -⟩
      have some_ : ¬∀ x, s x → ¬p x := fun none => agree.mp none x held hq
      simp only [not_forall, not_not, exists_prop] at some_
      obtain ⟨y, member, hp⟩ := some_
      exact ⟨y, member, hp, only member hp⟩
  · rintro (⟨x, held, hp, hq⟩ | same)
    · exact iff_of_false (fun none => none x held hp) fun none => none x held hq
    · constructor
      · intro none x held hq
        obtain ⟨y, member, hp, -⟩ := same.mpr ⟨x, held, hq, none x held⟩
        exact none y member hp
      · intro none x held hp
        obtain ⟨y, member, hq, -⟩ := same.mp ⟨x, held, hp, none x held⟩
        exact none y member hq

end DreamStudio.Library
