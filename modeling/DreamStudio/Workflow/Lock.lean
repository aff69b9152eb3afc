import DreamStudio.Library.Interleave
import Mathlib.Data.Fintype.Defs

namespace DreamStudio.Workflow

open Library

/-- Where a process stands in `_file_lock`. -/
inductive LockPlace
  | idle
  | opening
  | refused
  | expired
  | reopening
  | holding
  deriving DecidableEq

/-- `create` opens with `O_CREAT | O_EXCL`; an `unlink` or a `release` whose `OSError` is swallowed
removes nothing. -/
inductive LockAct
  | enter
  | create
  | retry
  | expire
  | unlink (gone : Bool)
  | release (gone : Bool)
  | die
  deriving DecidableEq

universe u

variable {ι : Type u}

/-- One step of process `i`; the lock file is known by the process that created it. -/
def LockAct.take (i : ι) : LockAct → LockPlace → Option ι → Option (LockPlace × Option ι)
  | .enter, .idle, file => some (.opening, file)
  | .create, .opening, none => some (.holding, some i)
  | .create, .opening, some owner => some (.refused, some owner)
  | .retry, .refused, file => some (.opening, file)
  | .expire, .refused, file => some (.expired, file)
  | .unlink gone, .expired, file => some (.reopening, if gone then none else file)
  | .create, .reopening, none => some (.holding, some i)
  -- The second `FileExistsError` is not caught.
  | .create, .reopening, some owner => some (.idle, some owner)
  | .release gone, .holding, file => some (.idle, if gone then none else file)
  | .die, _, file => some (.idle, file)
  | _, _, _ => none

theorem LockAct.take_cases {i : ι} {act : LockAct} {place p : LockPlace} {file s : Option ι}
    (taken : act.take i place file = some (p, s)) :
    (p = .holding ∧ file = none ∧ s = some i) ∨
      p ≠ .holding ∧ (s = file ∨ s = none ∧
        (act = .unlink true ∨ act = .release true ∧ place = .holding)) := by
  cases act with
  | create =>
    cases place
    case opening | reopening =>
      cases file with
      | none =>
        cases taken
        exact Or.inl ⟨rfl, rfl, rfl⟩
      | some owner =>
        cases taken
        exact Or.inr ⟨nofun, Or.inl rfl⟩
    all_goals cases taken
  | unlink gone =>
    cases place
    case expired =>
      cases gone with
      | true =>
        cases taken
        exact Or.inr ⟨nofun, Or.inr ⟨rfl, Or.inl rfl⟩⟩
      | false =>
        cases taken
        exact Or.inr ⟨nofun, Or.inl rfl⟩
    all_goals cases taken
  | release gone =>
    cases place
    case holding =>
      cases gone with
      | true =>
        cases taken
        exact Or.inr ⟨nofun, Or.inr ⟨rfl, Or.inr ⟨rfl, rfl⟩⟩⟩
      | false =>
        cases taken
        exact Or.inr ⟨nofun, Or.inl rfl⟩
    all_goals cases taken
  | enter | retry | expire | die =>
    cases place
    all_goals cases taken
    all_goals exact Or.inr ⟨nofun, Or.inl rfl⟩

abbrev Lockers (ι : Type u) := Threads ι LockPlace (Option ι)

/-- Nobody is in `_file_lock`; a lock file may have been left behind. -/
def unlocked (file : Option ι) : Lockers ι := ⟨fun _ => .idle, file⟩

/-- A forced removal of the lock file finds it stale: no process is between acquiring and
releasing. -/
def Stale (c : Lockers ι) (label : ι × LockAct) : Prop :=
  label.2 = .unlink true → ∀ j, c.place j ≠ .holding

instance [Fintype ι] (c : Lockers ι) (label : ι × LockAct) : Decidable (Stale c label) :=
  inferInstanceAs (Decidable (_ → _))

def Exclusive (c : Lockers ι) : Prop := ∀ i j, c.place i = .holding → c.place j = .holding → i = j

instance [Fintype ι] [DecidableEq ι] (c : Lockers ι) : Decidable (Exclusive c) :=
  inferInstanceAs (Decidable (∀ _ _, _))

/-- A release removes no lock file that another process created. -/
def SparesOthers (x : Machine.Transition (Lockers ι) (ι × LockAct)) : Prop :=
  ∀ gone, x.label.2 = .release gone → ∀ j, x.before.shared = some j →
    x.after.shared ≠ some j → j = x.label.1

instance [Fintype ι] [DecidableEq ι] (x : Machine.Transition (Lockers ι) (ι × LockAct)) :
    Decidable (SparesOthers x) := inferInstanceAs (Decidable (∀ _, _))

def Owned (c : Lockers ι) : Prop := ∀ i, c.place i = .holding → c.shared = some i

theorem Owned.exclusive {c : Lockers ι} (owned : Owned c) : Exclusive c :=
  fun i j hi hj => Option.some.inj ((owned i hi).symm.trans (owned j hj))

variable [DecidableEq ι]

/-- Any number of processes, in any order of steps. -/
def lockMachine : Machine (Lockers ι) (ι × LockAct) where
  step c label := Threads.move (fun i => label.2.take i) c label.1

theorem lockMachine_step {c d : Lockers ι} {label : ι × LockAct}
    (step : lockMachine.step c label = some d) :
    ∃ p s, label.2.take label.1 (c.place label.1) c.shared = some (p, s) ∧
      d = ⟨Function.update c.place label.1 p, s⟩ := by
  have moved : Threads.move (fun i => label.2.take i) c label.1 = some d := step
  exact Threads.move_eq_some moved

theorem owned_step {c d : Lockers ι} {label : ι × LockAct} (owned : Owned c) (stale : Stale c label)
    (step : lockMachine.step c label = some d) : Owned d := by
  obtain ⟨p, s, taken, rfl⟩ := lockMachine_step step
  intro j holds
  by_cases own : j = label.1
  · subst own
    dsimp only at holds
    rw [Function.update_self] at holds
    rcases LockAct.take_cases taken with ⟨-, -, made⟩ | ⟨idle, -⟩
    · exact made
    · exact absurd holds idle
  · dsimp only at holds
    rw [Function.update_of_ne own] at holds
    have file := owned j holds
    rcases LockAct.take_cases taken with ⟨-, free, -⟩ | ⟨-, kept | ⟨-, forced | ⟨-, held⟩⟩⟩
    · exact absurd (free.symm.trans file) nofun
    · exact kept.trans file
    · exact absurd holds (stale forced j)
    · exact absurd (owned.exclusive j label.1 holds held) own

theorem owned_spares {c d : Lockers ι} {label : ι × LockAct} (owned : Owned c)
    (step : lockMachine.step c label = some d) : SparesOthers ⟨c, label, d⟩ := by
  obtain ⟨p, s, taken, rfl⟩ := lockMachine_step step
  intro gone release j before after
  rcases LockAct.take_cases taken with ⟨-, free, -⟩ | ⟨-, kept | ⟨-, forced | ⟨-, held⟩⟩⟩
  · exact absurd (free.symm.trans before) nofun
  · exact absurd (kept.trans before) after
  · exact absurd (release.symm.trans forced) nofun
  · exact Option.some.inj (before.symm.trans (owned label.1 held))

/-- The lock excludes, and each process releases its own, in every run whose forced removals all
find the lock file stale. -/
theorem exclusive_of_stale (file : Option ι) (steps : List (ι × LockAct))
    (stale : ∀ x ∈ lockMachine.transitions (unlocked file) steps, Stale x.before x.label) :
    ∀ x ∈ lockMachine.transitions (unlocked file) steps, Exclusive x.after ∧ SparesOthers x := by
  have start : Owned (unlocked file) := fun _ holds => nomatch holds
  have owned := lockMachine.invariant_of_guarded (G := fun c label _ => Stale c label)
    (fun _ _ _ owned stale step => owned_step owned stale step) start stale
  intro x member
  obtain ⟨before, after⟩ := owned x member
  exact ⟨after.exclusive, owned_spares before (lockMachine.step_of_mem_transitions member)⟩

def takeover : List (Bool × LockAct) :=
  [(false, .enter), (false, .create), (false, .die), (true, .enter), (true, .create),
    (true, .expire),
    (true, .unlink true), (true, .create), (true, .release true)]

theorem exclusive_after_death :
    (lockMachine.transitions (unlocked none) takeover).length = 9 ∧
      ∀ x ∈ lockMachine.transitions (unlocked none) takeover, Exclusive x.after ∧ SparesOthers x :=
  ⟨by decide, exclusive_of_stale (none : Option Bool) takeover (by decide)⟩

/-- A waiter whose time is up takes the lock from the process that holds it, which then removes the
waiter's. -/
theorem holder_overtaken :
    (¬ ∀ (ι : Type) [DecidableEq ι] (file : Option ι) (steps : List (ι × LockAct)),
      ∀ x ∈ lockMachine.transitions (unlocked file) steps, Exclusive x.after) ∧
    ¬ ∀ (ι : Type) [DecidableEq ι] (file : Option ι) (steps : List (ι × LockAct)),
      ∀ x ∈ lockMachine.transitions (unlocked file) steps, SparesOthers x := by
  constructor
  all_goals
    intro safe
    have here := safe Bool none
      [(false, .enter), (false, .create), (true, .enter), (true, .create), (true, .expire),
        (true, .unlink true), (true, .create), (false, .release true)]
    revert here
    decide

end DreamStudio.Workflow
