import DreamStudio.Conftest.Run
import DreamStudio.Library.Traverse

namespace DreamStudio.Conftest

open Library

variable {name n : String} {σ σ' : State} {stmt : Stmt} {events : List Event} {items : List String}

namespace State

structure Owns (σ : State) (n : String) (ref : Nat) : Prop where
  here : σ.names.get n = some (.list ref)
  hidden : ref ∉ σ.known
  alone : ∀ m, σ.names.get m = some (.list ref) → m = n

theorem Owns.lt {ref : Nat} (owns : σ.Owns n ref) : ref < σ.heap.length :=
  σ.names_lt n _ owns.here

structure Frame (n : String) (σ σ' : State) : Prop where
  get : σ'.names.get n = σ.names.get n
  owns : ∀ ref, σ.Owns n ref → σ'.Owns n ref ∧ σ'.heap[ref]? = σ.heap[ref]?

namespace Frame

theorem refl (σ : State) : Frame n σ σ := ⟨rfl, fun _ owns => ⟨owns, rfl⟩⟩

theorem trans (σ₁ σ₂ σ₃ : State) (first : Frame n σ₁ σ₂) (second : Frame n σ₂ σ₃) :
    Frame n σ₁ σ₃ where
  get := second.get.trans first.get
  owns ref owns := by
    obtain ⟨owns, same⟩ := first.owns ref owns
    obtain ⟨owns, same'⟩ := second.owns ref owns
    exact ⟨owns, same'.trans same⟩

theorem learn {ref : Nat} (there : ref < σ.heap.length) (other : ¬σ.Owns n ref) :
    Frame n σ (σ.learn ref there) where
  get := rfl
  owns own owns := by
    refine ⟨⟨owns.here, ?_, owns.alone⟩, rfl⟩
    intro known
    cases known with
    | head => exact other owns
    | tail _ known => exact owns.hidden known

theorem put {value : Value} (there : value.In (· < σ.heap.length)) (apart : n ≠ name)
    (other : value.In (¬σ.Owns n ·)) : Frame n σ (σ.put name value there) where
  get := Dict.get_set_of_ne _ _ apart
  owns own owns := by
    refine ⟨⟨(Dict.get_set_of_ne _ _ apart).trans owns.here, owns.hidden, ?_⟩, rfl⟩
    intro m has
    have has : (σ.names.set name value).get m = some (.list own) := has
    rw [Dict.get_set] at has
    split at has
    · exact absurd owns (by cases has; exact other)
    · exact owns.alone m has

theorem drop (apart : n ≠ name) : Frame n σ (σ.drop name) where
  get := by
    show (σ.names.erase name).get n = _
    rw [Dict.get_erase, if_neg apart]
  owns own owns := by
    refine ⟨⟨?_, owns.hidden, ?_⟩, rfl⟩
    · show (σ.names.erase name).get n = _
      rw [Dict.get_erase, if_neg apart, owns.here]
    · intro m has
      have has : (σ.names.erase name).get m = some (.list own) := has
      rw [Dict.get_erase] at has
      split at has
      · cases has
      · exact owns.alone m has

theorem edit {ref : Nat} (items : List Item) (other : ¬σ.Owns n ref) :
    Frame n σ (σ.edit ref items) where
  get := rfl
  owns own owns := by
    refine ⟨⟨owns.here, owns.hidden, owns.alone⟩, ?_⟩
    have apart : ref ≠ own := fun same => other (same ▸ owns)
    exact List.getElem?_set_ne apart

theorem alloc (items : List Item) : Frame n σ (σ.alloc items) where
  get := rfl
  owns _ owns :=
    ⟨⟨owns.here, owns.hidden, owns.alone⟩, List.getElem?_append_left owns.lt⟩

theorem apply {event : Event} (other : event.name? ≠ some n) (went : σ.apply event = some σ') :
    Frame n σ σ' := by
  cases event with
  | load name =>
    simp only [State.apply] at went
    split at went
    next ref has =>
      cases went
      apply learn
      intro owns
      exact other (congrArg some (owns.alone name has))
    next => exact Option.some.inj went ▸ refl σ
  | store name value =>
    simp only [State.apply] at went
    split at went
    next held =>
      cases went
      apply put _ fun same => other (congrArg some same.symm)
      exact held.mono fun ref known owns => owns.hidden known
    next => cases went
  | delete name =>
    cases went
    exact drop fun same => other (congrArg some same.symm)
  | change ref items =>
    simp only [State.apply] at went
    split at went
    next known =>
      cases went
      exact edit items fun owns => owns.hidden known
    next => cases went
  | create items =>
    cases went
    apply trans _ _ _ (alloc items)
    apply learn
    exact fun owns => absurd (σ.names_lt n _ owns.here) (Nat.lt_irrefl _)

theorem foldlM (other : ∀ e ∈ events, e.name? ≠ some n)
    (went : events.foldlM State.apply σ = some σ') : Frame n σ σ' :=
  Traverse.rel_foldlM refl trans (fun e mem _ _ went => apply (other e mem) went) went

theorem bind (apart : n ≠ name) (literal : Display) : Frame n σ (σ.bind name literal) := by
  cases literal with
  | list items =>
    apply trans _ _ _ (alloc (items.map .string))
    apply put (by exact σ.alloc_there _) apart
    exact fun owns => absurd (σ.names_lt n _ owns.here) (Nat.lt_irrefl _)
  | tuple items => exact put (by trivial) apart (by trivial)

theorem grow {tuple : Bool} (apart : n ≠ name) (other : ∀ e ∈ events, e.name? ≠ some n)
    (went : σ.grow name items tuple events = some σ') : Frame n σ σ' := by
  simp only [State.grow] at went
  split at went
  next ref has =>
    split at went
    next =>
      cases went
      exact edit _ fun owns => apart (owns.alone name has).symm
    next => cases went
  next old has =>
    split at went
    next =>
      cases went
      exact put _ apart trivial
    next => cases went
  next => exact foldlM other went

theorem execute (apart : (form stmt.node).target? ≠ some n)
    (other : ∀ e ∈ events, e.name? ≠ some n) (went : σ.execute stmt events = some σ') :
    Frame n σ σ' := by
  simp only [State.execute] at went
  generalize form stmt.node = form at apart went
  cases form with
  | bind name annot value =>
    have apart : n ≠ name := fun same => apart (congrArg some same.symm)
    simp only at went
    split at went
    next literal _ => exact trans _ _ _ (bind apart literal) (foldlM other went)
    next => exact foldlM other went
  | add name value =>
    have apart : n ≠ name := fun same => apart (congrArg some same.symm)
    simp only at went
    split at went
    next => exact grow apart other went
    next => exact grow apart other went
    next => exact foldlM other went
  | append name argument =>
    have apart : n ≠ name := fun same => apart (congrArg some same.symm)
    simp only at went
    split at went
    next => exact grow apart other went
    next => exact foldlM other went
  | extend name argument =>
    have apart : n ≠ name := fun same => apart (congrArg some same.symm)
    simp only at went
    split at went
    next => exact grow apart other went
    next => exact foldlM other went
  | other => exact foldlM other went

end Frame

def Keeps (σ : State) (n : String) (items : List String) : Prop :=
  σ.names.get n = some (.tuple items) ∨
    ∃ ref, σ.Owns n ref ∧ σ.heap[ref]? = some (items.map .string)

theorem Keeps.has (keeps : σ.Keeps n items) : σ.Has n items := by
  cases keeps with
  | inl tuple => exact .inl tuple
  | inr list =>
    obtain ⟨ref, owns, items⟩ := list
    exact .inr ⟨ref, owns.here, items⟩

theorem Keeps.frame (keeps : σ.Keeps n items) (frame : Frame n σ σ') : σ'.Keeps n items := by
  cases keeps with
  | inl tuple => exact .inl (frame.get.trans tuple)
  | inr list =>
    obtain ⟨ref, owns, items⟩ := list
    obtain ⟨owns, same⟩ := frame.owns ref owns
    exact .inr ⟨ref, owns, same.trans items⟩

/-- What is reported of a name is so, and no code can change it behind the reader. -/
def Settled (σ : State) (n : String) : Option Report → Prop
  | some (.strings items) => σ.Keeps n items
  | some (.unevaluable _) => True
  | none => σ.names.get n = none

theorem Settled.bears {report : Option Report} (settled : σ.Settled n report) :
    σ.Bears n report := by
  cases report with
  | none => exact settled
  | some report =>
    cases report with
    | strings => exact Keeps.has settled
    | unevaluable => trivial

theorem Settled.frame {report : Option Report} (settled : σ.Settled n report)
    (frame : Frame n σ σ') : σ'.Settled n report := by
  cases report with
  | none => exact frame.get.trans settled
  | some report =>
    cases report with
    | strings => exact Keeps.frame settled frame
    | unevaluable => trivial

theorem keeps_bind (literal : Display) : (σ.bind n literal).Keeps n literal.items := by
  cases literal with
  | tuple items => exact .inl (Dict.get_set_self _ _ _)
  | list items =>
    refine .inr ⟨σ.heap.length, ⟨Dict.get_set_self _ _ _, ?_, ?_⟩, List.getElem?_concat_length⟩
    · exact fun known => absurd (σ.known_lt _ known) (Nat.lt_irrefl _)
    · intro m has
      have has : (σ.names.set n _).get m = some (.list σ.heap.length) := has
      rw [Dict.get_set] at has
      split at has
      next same => exact same
      next => exact absurd (σ.names_lt m _ has) (Nat.lt_irrefl _)

theorem Keeps.grow {tuple : Bool} {more : List String} (keeps : σ.Keeps n items)
    (went : σ.grow n more tuple events = some σ') : σ'.Keeps n (items ++ more) := by
  simp only [State.grow] at went
  cases keeps with
  | inl held =>
    simp only [held] at went
    split at went
    next =>
      cases went
      exact .inl (Dict.get_set_self _ _ _)
    next => cases went
  | inr held =>
    obtain ⟨ref, owns, here⟩ := held
    simp only [owns.here] at went
    split at went
    next =>
      cases went
      refine .inr ⟨ref, ⟨owns.here, owns.hidden, owns.alone⟩, ?_⟩
      have old : σ.heap.getD ref [] = items.map .string := by
        rw [List.getD_eq_getElem?_getD, here, Option.getD_some]
      simp only [extend, edit, old, List.getElem?_set_self owns.lt, List.map_append]
    next => cases went

end State

end DreamStudio.Conftest
