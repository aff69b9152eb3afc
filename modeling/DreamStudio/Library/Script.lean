import DreamStudio.Library.Connection

namespace DreamStudio.Library

universe u

/-- Statements one after another, each chosen by what the ones before it have left to see. -/
inductive Script (α : Type u) where
  | done
  | exec (act : Connection.Action α) (rest : α → Script α)

namespace Connection

variable {α : Type u} {P : α → Prop}

def Calm (P : α → Prop) (act : Action α) : Prop :=
  ∀ a, P a → act (opened a) = none ∨ ∃ b, act (opened a) = some (opened b) ∧ P b

def Sure (P : α → Prop) (act : Action α) : Prop :=
  ∀ a, P a → ∃ b, act (opened a) = some (opened b) ∧ P b

theorem run_cons {act : Action α} {c c' : Connection α} (acted : act c = some c')
    (acts : List (Action α)) :
    run (act :: acts) c = run acts c' := by
  rw [run, acted]

theorem run_of_calm (acts : List (Action α)) (calm : ∀ act ∈ acts, Calm P act) {a : α}
    (start : P a) :
    ∃ b ok, run acts (opened a) = (opened b, ok) ∧ P b := by
  induction acts generalizing a with
  | nil => exact ⟨a, true, rfl, start⟩
  | cons act acts ih =>
    obtain ⟨here, later⟩ := List.forall_mem_cons.mp calm
    rw [run]
    rcases here a start with failed | ⟨b, acted, kept⟩
    · rw [failed]
      exact ⟨a, false, rfl, start⟩
    · rw [acted]
      exact ih later kept

theorem run_of_sure (acts : List (Action α)) (sure : ∀ act ∈ acts, Sure P act) {a : α}
    (start : P a) :
    ∃ b, run acts (opened a) = (opened b, true) ∧ P b := by
  induction acts generalizing a with
  | nil => exact ⟨a, rfl, start⟩
  | cons act acts ih =>
    obtain ⟨here, later⟩ := List.forall_mem_cons.mp sure
    obtain ⟨b, acted, kept⟩ := here a start
    rw [run, acted]
    exact ih later kept

end Connection

namespace Script

variable {α : Type u}

/-- Statements that are not chosen, and what follows them. -/
def all (acts : List (Connection.Action α)) (s : Script α) : Script α :=
  acts.foldr (fun act s => exec act fun _ => s) s

/-- The first so many statements. One that fails is the last. -/
def after : Script α → Nat → Connection α → Connection α
  | done, _, c => c
  | exec _ _, 0, c => c
  | exec act rest, n + 1, c =>
    match act c with
    | none => c
    | some c' => (rest c'.visible).after n c'

def finish : Script α → Connection α → Connection α × Bool
  | done, c => (c, true)
  | exec act rest, c =>
    match act c with
    | none => (c, false)
    | some c' => (rest c'.visible).finish c'

@[simp] theorem after_zero (s : Script α) (c : Connection α) : s.after 0 c = c := by
  cases s <;> rfl

theorem after_exec {act : Connection.Action α} {c c' : Connection α} (acted : act c = some c')
    (rest : α → Script α) (n : Nat) :
    (exec act rest).after (n + 1) c = (rest c'.visible).after n c' := by
  rw [after, acted]

theorem finish_exec {act : Connection.Action α} {c c' : Connection α} (acted : act c = some c')
    (rest : α → Script α) : (exec act rest).finish c = (rest c'.visible).finish c' := by
  rw [finish, acted]

theorem after_all {acts : List (Connection.Action α)} {s : Script α} {n : Nat}
    (bound : n ≤ acts.length) (c : Connection α) :
    (all acts s).after n c = (Connection.run (acts.take n) c).1 := by
  induction acts generalizing n c with
  | nil =>
    obtain rfl := Nat.le_zero.mp bound
    exact after_zero _ _
  | cons act acts ih =>
    cases n with
    | zero => exact after_zero _ _
    | succ n =>
      change (exec act fun _ => all acts s).after (n + 1) c = _
      rw [List.take_succ_cons, Connection.run, after]
      cases act c with
      | none => rfl
      | some c' => exact ih (Nat.le_of_succ_le_succ bound) c'

theorem after_all_add {acts : List (Connection.Action α)} {c c' : Connection α}
    (ran : Connection.run acts c = (c', true)) (s : Script α) (n : Nat) :
    (all acts s).after (acts.length + n) c = s.after n c' := by
  induction acts generalizing c with
  | nil =>
    cases ran
    rw [List.length_nil, Nat.zero_add]
    rfl
  | cons act acts ih =>
    rw [Connection.run] at ran
    cases acted : act c with
    | none =>
      rw [acted] at ran
      cases ran
    | some next =>
      rw [acted] at ran
      rw [List.length_cons, Nat.add_right_comm]
      exact (after_exec acted _ _).trans (ih ran)

theorem after_all_of_stuck {acts : List (Connection.Action α)} {c c' : Connection α}
    (ran : Connection.run acts c = (c', false)) (s : Script α) (n : Nat) :
    (all acts s).after n c = (Connection.run (acts.take n) c).1 := by
  induction acts generalizing c n with
  | nil => cases ran
  | cons act acts ih =>
    cases n with
    | zero => exact after_zero _ _
    | succ n =>
      change (exec act fun _ => all acts s).after (n + 1) c = _
      rw [List.take_succ_cons, Connection.run, after]
      rw [Connection.run] at ran
      cases acted : act c with
      | none => rfl
      | some next =>
        rw [acted] at ran
        exact ih ran n

theorem finish_all {acts : List (Connection.Action α)} {c c' : Connection α}
    (ran : Connection.run acts c = (c', true)) (s : Script α) :
    (all acts s).finish c = s.finish c' := by
  induction acts generalizing c with
  | nil =>
    cases ran
    rfl
  | cons act acts ih =>
    rw [Connection.run] at ran
    cases acted : act c with
    | none =>
      rw [acted] at ran
      cases ran
    | some next =>
      rw [acted] at ran
      exact (finish_exec acted _).trans (ih ran)

theorem finish_all_of_stuck {acts : List (Connection.Action α)} {c c' : Connection α}
    (ran : Connection.run acts c = (c', false)) (s : Script α) :
    (all acts s).finish c = (c', false) := by
  induction acts generalizing c with
  | nil => cases ran
  | cons act acts ih =>
    rw [Connection.run] at ran
    change (exec act fun _ => all acts s).finish c = _
    rw [finish]
    cases acted : act c with
    | none =>
      rw [acted] at ran
      cases ran
      rfl
    | some next =>
      rw [acted] at ran
      exact ih ran

end Script

end DreamStudio.Library
