import Mathlib.Data.List.Basic

namespace DreamStudio.Library

universe u

/-- A database connection: what is committed, and what an open transaction has made of it so far. -/
structure Connection (α : Type u) where
  saved : α
  pending : Option α
  deriving DecidableEq

namespace Connection

variable {α : Type u}

def opened (a : α) : Connection α := ⟨a, none⟩

def visible (c : Connection α) : α := c.pending.getD c.saved

/-- `BEGIN`, where no transaction is open. -/
def begun (c : Connection α) : Connection α := ⟨c.saved, some c.visible⟩

/-- Outside a transaction a statement takes effect at once. -/
def write (c : Connection α) (a : α) : Connection α :=
  match c.pending with
  | none => ⟨a, none⟩
  | some _ => ⟨c.saved, some a⟩

def commit (c : Connection α) : Connection α := ⟨c.visible, none⟩

def close (c : Connection α) : α := c.saved

abbrev Action (α : Type u) := Connection α → Option (Connection α)

/-- The actions one by one up to the first that fails, and whether none did. -/
def run : List (Action α) → Connection α → Connection α × Bool
  | [], c => (c, true)
  | act :: acts, c =>
    match act c with
    | some c' => run acts c'
    | none => (c, false)

@[simp] theorem visible_opened (a : α) : (opened a).visible = a := rfl

@[simp] theorem close_opened (a : α) : (opened a).close = a := rfl

theorem opened_inj {a b : α} : opened a = opened b ↔ a = b := by
  simp [opened]

@[simp] theorem run_nil (c : Connection α) : run [] c = (c, true) := rfl

theorem run_append {acts : List (Action α)} {c c' : Connection α} (ran : run acts c = (c', true))
    (more : List (Action α)) : run (acts ++ more) c = run more c' := by
  induction acts generalizing c with
  | nil =>
    cases ran
    rfl
  | cons act acts ih =>
    rw [List.cons_append, run]
    rw [run] at ran
    cases acted : act c with
    | none =>
      rw [acted] at ran
      cases ran
    | some next =>
      rw [acted] at ran
      exact ih ran

theorem run_append_of_stuck {acts : List (Action α)} {c c' : Connection α}
    (ran : run acts c = (c', false)) (more : List (Action α)) :
    run (acts ++ more) c = (c', false) := by
  induction acts generalizing c with
  | nil => cases ran
  | cons act acts ih =>
    rw [List.cons_append, run]
    rw [run] at ran
    cases acted : act c with
    | none =>
      rw [acted] at ran
      cases ran
      rfl
    | some next =>
      rw [acted] at ran
      exact ih ran

theorem exists_run_take (acts : List (Action α)) (c : Connection α) :
    ∃ k ≤ acts.length, run (acts.take k) c = ((run acts c).1, true) := by
  induction acts generalizing c with
  | nil => exact ⟨0, Nat.le_refl _, rfl⟩
  | cons act acts ih =>
    cases acted : act c with
    | none => exact ⟨0, Nat.zero_le _, by simp [run, acted]⟩
    | some next =>
      obtain ⟨k, bound, ran⟩ := ih next
      exact ⟨k + 1, Nat.succ_le_succ bound, by simpa [run, acted] using ran⟩

theorem run_invariant {P : α → Prop} {acts : List (Action α)}
    (keeps : ∀ act ∈ acts, ∀ c c', P c.saved ∧ P c.visible → act c = some c' →
      P c'.saved ∧ P c'.visible)
    {c : Connection α} (start : P c.saved ∧ P c.visible) :
    P (run acts c).1.saved ∧ P (run acts c).1.visible := by
  induction acts generalizing c with
  | nil => exact start
  | cons act acts ih =>
    rw [List.forall_mem_cons] at keeps
    rw [run]
    cases acted : act c with
    | none => exact start
    | some next => exact ih keeps.2 (keeps.1 c next start acted)

/-- However many of the actions were done when the connection closed, doing as many again on what
they left comes to where they were. -/
def Resumable (acts : List (Action α)) : Prop :=
  ∀ k a c, run (acts.take k) (opened a) = (c, true) → run (acts.take k) (opened c.close) = (c, true)

theorem Resumable.run_again {acts : List (Action α)} (resumable : Resumable acts) (k : Nat) (a : α)
    (more : List (Action α)) :
    run (acts ++ more) (opened (run (acts.take k) (opened a)).1.close) =
      run (acts ++ more) (opened a) := by
  obtain ⟨j, -, ran⟩ := exists_run_take (acts.take k) (opened a)
  rw [List.take_take] at ran
  have again := resumable _ a _ ran
  have split : acts ++ more = acts.take (min j k) ++ (acts.drop (min j k) ++ more) := by
    rw [← List.append_assoc, List.take_append_drop]
  rw [split, run_append again, run_append ran]

/-- An action that, done on a database by itself, leaves it as it is. -/
def Settled (act : Action α) (a : α) : Prop := act (opened a) = some (opened a)

theorem run_of_settled {acts : List (Action α)} {a : α} (settled : ∀ act ∈ acts, Settled act a) :
    run acts (opened a) = (opened a, true) := by
  induction acts with
  | nil => rfl
  | cons act acts ih =>
    rw [List.forall_mem_cons] at settled
    rw [run, settled.1]
    exact ih settled.2

theorem resumable_of_settling {acts : List (Action α)}
    (settles : ∀ act ∈ acts, ∀ a c, act (opened a) = some c →
      ∃ a', c = opened a' ∧ Settled act a' ∧ ∀ other ∈ acts, Settled other a → Settled other a') :
    Resumable acts := by
  have settled : ∀ some_ : List (Action α), some_ ⊆ acts → ∀ a c, run some_ (opened a) = (c, true) →
      ∃ a', c = opened a' ∧ (∀ act ∈ some_, Settled act a') ∧
        ∀ other ∈ acts, Settled other a → Settled other a' := by
    intro some_
    induction some_ with
    | nil =>
      rintro - a c ran
      cases ran
      exact ⟨a, rfl, nofun, fun _ _ => id⟩
    | cons act some_ ih =>
      intro sub a c ran
      obtain ⟨here, later⟩ := List.cons_subset.mp sub
      rw [run] at ran
      cases acted : act (opened a) with
      | none =>
        rw [acted] at ran
        cases ran
      | some next =>
        rw [acted] at ran
        obtain ⟨b, rfl, done, kept⟩ := settles act here a next acted
        obtain ⟨a', rfl, rest, kept'⟩ := ih later b c ran
        refine ⟨a', rfl, List.forall_mem_cons.mpr ⟨kept' act here done, rest⟩,
          fun other member old => ?_⟩
        exact kept' other member (kept other member old)
  intro k a c ran
  obtain ⟨a', rfl, done, -⟩ := settled _ (List.take_subset _ _) a c ran
  exact run_of_settled done

end Connection

end DreamStudio.Library
