import DreamStudio.Library.Except

namespace DreamStudio.Library

/-- How far a check got: it may end early, and only what goes on is followed by more of it. -/
inductive Course (α : Type)
  | raises (error : String)
  | refuses (reason : String) (others : List String)
  | passes
  | goes (a : α)

/-- A check, and what of it was left unevaluated. -/
structure Gate (α : Type) where
  course : Course α
  notRun : List String

namespace Gate

variable {α β : Type}

def raise (error : String) : Gate α := ⟨.raises error, []⟩

def refuse (reason : String) (others : List String := []) : Gate α := ⟨.refuses reason others, []⟩

def pass : Gate α := ⟨.passes, []⟩

def note (text : String) : Gate Unit := ⟨.goes (), [text]⟩

def bind (g : Gate α) (f : α → Gate β) : Gate β :=
  match g.course with
  | .raises error => ⟨.raises error, g.notRun⟩
  | .refuses reason others => ⟨.refuses reason others, g.notRun⟩
  | .passes => ⟨.passes, g.notRun⟩
  | .goes a => ⟨(f a).course, g.notRun ++ (f a).notRun⟩

instance : Monad Gate where
  pure a := ⟨.goes a, []⟩
  bind := bind

def refuseAll : List String → Gate α
  | [] => pass
  | reason :: others => refuse reason others

def ofExcept : Except String α → Gate α
  | .ok a => pure a
  | .error error => raise error

/-- What a check is reported with. -/
def failures (g : Gate α) : Except String (List String) :=
  match g.course with
  | .raises error => .error error
  | .refuses reason others => .ok (reason :: others)
  | .passes => .ok []
  | .goes _ => .ok []

def Refuses (g : Gate α) : Prop := ∃ reason others, g.course = .refuses reason others

/-- Checks made one after the other; one that raises ends them all. -/
def evaluate : List (Gate α) → Except String (List String)
  | [] => .ok []
  | g :: gs => do
    let here ← g.failures
    let later ← evaluate gs
    return here ++ later

/-- `p` leaves out part of what `e` does and says so: it never objects where `e` would not, and it
is only silent where `e` objects if it says that something was left out. -/
def Abstracts (p e : Gate α) : Prop :=
  match p.course with
  | .raises _ => True
  | .refuses _ _ => e.Refuses
  | .passes => e.course = .passes ∨ p.notRun ≠ []
  | .goes a => e.course = .goes a ∨ (e.Refuses ∧ p.notRun ≠ [])

def Reasoned (P : String → Prop) (g : Gate α) : Prop :=
  ∀ reason others, g.course = .refuses reason others → ∀ r ∈ reason :: others, P r

@[simp] theorem failures_refuse (reason : String) (others : List String) :
    (refuse reason others : Gate α).failures = .ok (reason :: others) := rfl

@[simp] theorem failures_pass : (pass : Gate α).failures = .ok [] := rfl

@[simp] theorem failures_pure (a : α) : (pure a : Gate α).failures = .ok [] := rfl

@[simp] theorem failures_raise (error : String) :
    (raise error : Gate α).failures = .error error := rfl

@[simp] theorem failures_refuseAll (reasons : List String) :
    (refuseAll reasons : Gate α).failures = .ok reasons := by
  cases reasons <;> rfl

theorem bind_def (g : Gate α) (f : α → Gate β) : (g >>= f) = g.bind f := rfl

@[simp] theorem raise_bind (error : String) (f : α → Gate β) : raise error >>= f = raise error :=
  rfl

@[simp] theorem refuse_bind (reason : String) (others : List String) (f : α → Gate β) :
    refuse reason others >>= f = refuse reason others := rfl

@[simp] theorem pass_bind (f : α → Gate β) : (pass : Gate α) >>= f = pass := rfl

@[simp] theorem pure_bind' (a : α) (f : α → Gate β) : (pure a : Gate α) >>= f = f a := rfl

theorem bind_congr {g : Gate α} {f f' : α → Gate β}
    (same : ∀ a, g.course = .goes a → f a = f' a) : g >>= f = g >>= f' := by
  rw [bind_def, bind_def, bind, bind]
  cases goes : g.course with
  | goes a => simp only [same a goes]
  | raises | refuses | passes => rfl

theorem bind_course_of_goes {g : Gate α} {a : α} (h : g.course = .goes a) (f : α → Gate β) :
    (g >>= f).course = (f a).course := by
  simp [bind_def, bind, h]

theorem Refuses.bind {g : Gate α} (h : g.Refuses) (f : α → Gate β) : (g >>= f).Refuses := by
  obtain ⟨reason, others, h⟩ := h
  exact ⟨reason, others, by simp [bind_def, Gate.bind, h]⟩

theorem failures_bind_of_goes {g : Gate α} {a : α} (h : g.course = .goes a) (f : α → Gate β) :
    (g >>= f).failures = (f a).failures := by
  unfold failures
  rw [bind_course_of_goes h]

theorem notRun_bind {g : Gate α} (h : g.notRun ≠ []) (f : α → Gate β) : (g >>= f).notRun ≠ [] := by
  rw [bind_def]
  unfold bind
  cases g.course with
  | goes a => simp [h]
  | raises | refuses | passes => exact h

namespace Abstracts

variable {p e : Gate α}

theorem refl (g : Gate α) : Abstracts g g := by
  unfold Abstracts
  cases h : g.course with
  | raises => trivial
  | refuses reason others => exact ⟨reason, others, h⟩
  | passes => exact Or.inl rfl
  | goes a => exact Or.inl rfl

theorem of_passes {p e : Gate α} (h : p.course = .passes) (noted : p.notRun ≠ []) :
    Abstracts p e := by
  rw [Abstracts, h]
  exact Or.inr noted

theorem bind {f k : α → Gate β} (here : Abstracts p e) (later : ∀ a, Abstracts (f a) (k a)) :
    Abstracts (p >>= f) (e >>= k) := by
  unfold Abstracts at here
  cases hp : p.course with
  | raises error => simp [Abstracts, bind_def, Gate.bind, hp]
  | refuses reason others =>
    rw [hp] at here
    have refused : (e >>= k).Refuses := Refuses.bind here k
    simpa [Abstracts, bind_def, Gate.bind, hp] using refused
  | passes =>
    rw [hp] at here
    have same : (p >>= f).course = .passes := by simp [bind_def, Gate.bind, hp]
    rw [Abstracts, same]
    rcases here with here | noted
    · exact Or.inl (by simp [bind_def, Gate.bind, here])
    · exact Or.inr (notRun_bind noted f)
  | goes a =>
    rw [hp] at here
    have went := bind_course_of_goes hp f
    rw [Abstracts, went]
    rcases here with here | ⟨refused, noted⟩
    · have next := later a
      rw [Abstracts] at next
      have went' := bind_course_of_goes here k
      have more (h : (f a).notRun ≠ []) : (p >>= f).notRun ≠ [] := by
        simp [bind_def, Gate.bind, hp, h]
      cases hf : (f a).course with
      | raises => trivial
      | refuses reason others =>
        rw [hf] at next
        obtain ⟨r, rs, next⟩ := next
        exact ⟨r, rs, went'.trans next⟩
      | passes =>
        rw [hf] at next
        exact next.imp went'.trans more
      | goes b =>
        rw [hf] at next
        rcases next with next | ⟨⟨r, rs, next⟩, noted⟩
        · exact Or.inl (went'.trans next)
        · exact Or.inr ⟨⟨r, rs, went'.trans next⟩, more noted⟩
    · have refused' : (e >>= k).Refuses := Refuses.bind refused k
      have noted' := notRun_bind noted f
      cases (f a).course with
      | raises => trivial
      | refuses => exact refused'
      | passes => exact Or.inr noted'
      | goes b => exact Or.inr ⟨refused', noted'⟩

theorem after (g : Gate α) {f k : α → Gate β} (later : ∀ a, Abstracts (f a) (k a)) :
    Abstracts (g >>= f) (g >>= k) :=
  bind (refl g) later

end Abstracts

theorem failures_eq_ok_nil {g : Gate α} :
    g.failures = .ok [] ↔ g.course = .passes ∨ ∃ a, g.course = .goes a := by
  unfold failures
  cases g.course with
  | raises | refuses => simp
  | passes => simp
  | goes a => simp

theorem refuses_iff {g : Gate α} :
    g.Refuses ↔ ∃ reasons, g.failures = .ok reasons ∧ reasons ≠ [] := by
  unfold failures Refuses
  cases g.course <;> simp

theorem evaluate_cons_eq_ok {g : Gate α} {gs : List (Gate α)} {reasons : List String} :
    evaluate (g :: gs) = .ok reasons ↔
      ∃ here later, g.failures = .ok here ∧ evaluate gs = .ok later ∧ reasons = here ++ later := by
  simp only [evaluate, bind_eq_ok, pure_eq_ok]
  constructor
  · rintro ⟨here, h, later, h', rfl⟩
    exact ⟨here, later, h, h', rfl⟩
  · rintro ⟨here, later, h, h', rfl⟩
    exact ⟨here, h, later, h', rfl⟩

theorem evaluate_eq_ok_nil {gs : List (Gate α)} :
    evaluate gs = .ok [] ↔ ∀ g ∈ gs, g.failures = .ok [] := by
  induction gs with
  | nil => simp [evaluate]
  | cons g gs ih =>
    rw [evaluate_cons_eq_ok, List.forall_mem_cons, ← ih]
    constructor
    · rintro ⟨here, later, h, h', none⟩
      obtain ⟨rfl, rfl⟩ := List.append_eq_nil_iff.mp none.symm
      exact ⟨h, h'⟩
    · rintro ⟨h, h'⟩
      exact ⟨[], [], h, h', rfl⟩

theorem mem_of_evaluate {gs : List (Gate α)} {reasons : List String}
    (h : evaluate gs = .ok reasons) :
    (∀ g ∈ gs, ∃ own, g.failures = .ok own ∧ ∀ r ∈ own, r ∈ reasons) ∧
      ∀ r ∈ reasons, ∃ g ∈ gs, ∃ own, g.failures = .ok own ∧ r ∈ own := by
  induction gs generalizing reasons with
  | nil =>
    cases h
    exact ⟨by simp, by simp⟩
  | cons g gs ih =>
    obtain ⟨here, later, first, rest, rfl⟩ := evaluate_cons_eq_ok.mp h
    obtain ⟨there, back⟩ := ih rest
    constructor
    · refine List.forall_mem_cons.mpr ⟨⟨here, first, fun r => List.mem_append_left later⟩, ?_⟩
      intro g' member
      obtain ⟨own, found, among⟩ := there g' member
      exact ⟨own, found, fun r held => List.mem_append_right here (among r held)⟩
    · intro r held
      rcases List.mem_append.mp held with held | held
      · exact ⟨g, List.mem_cons_self, here, first, held⟩
      · obtain ⟨g', member, own⟩ := back r held
        exact ⟨g', List.mem_cons_of_mem g member, own⟩

theorem evaluate_of_forall {P : String → Prop} {gs : List (Gate α)}
    (h : ∀ g ∈ gs, ∃ own, g.failures = .ok own ∧ ∀ r ∈ own, P r) :
    ∃ reasons, evaluate gs = .ok reasons ∧ ∀ r ∈ reasons, P r := by
  induction gs with
  | nil => exact ⟨[], rfl, by simp⟩
  | cons g gs ih =>
    obtain ⟨here, later⟩ := List.forall_mem_cons.mp h
    obtain ⟨own, first, good⟩ := here
    obtain ⟨reasons, rest, good'⟩ := ih later
    refine ⟨own ++ reasons, evaluate_cons_eq_ok.mpr ⟨own, reasons, first, rest, rfl⟩, ?_⟩
    exact List.forall_mem_append.mpr ⟨good, good'⟩

theorem Refuses.evaluate_ne_nil {g : Gate α} (refused : g.Refuses) {gs : List (Gate α)}
    (h : g ∈ gs) : evaluate gs ≠ .ok [] := by
  intro none
  obtain ⟨reason, others, refused⟩ := refused
  have silent := evaluate_eq_ok_nil.mp none g h
  simp [failures, refused] at silent

theorem Abstracts.of_refuses {p e : Gate α} (refused : e.Refuses) (objects : p.failures ≠ .ok []) :
    Abstracts p e := by
  unfold Abstracts
  cases hp : p.course with
  | raises => trivial
  | refuses => exact refused
  | passes => exact absurd (failures_eq_ok_nil.mpr (Or.inl hp)) objects
  | goes a => exact absurd (failures_eq_ok_nil.mpr (Or.inr ⟨a, hp⟩)) objects

theorem Abstracts.refuses {p e : Gate α} (h : Abstracts p e) (refused : p.Refuses) : e.Refuses := by
  obtain ⟨reason, others, refused⟩ := refused
  rwa [Abstracts, refused] at h

theorem Abstracts.silent {p e : Gate α} (h : Abstracts p e) (silent : p.failures = .ok [])
    (complete : p.notRun = []) : e.failures = .ok [] := by
  rw [failures_eq_ok_nil] at silent ⊢
  unfold Abstracts at h
  rcases silent with hp | ⟨a, hp⟩
  · rw [hp] at h
    exact Or.inl (h.resolve_right (· complete))
  · rw [hp] at h
    exact Or.inr ⟨a, h.resolve_right (·.2 complete)⟩

section Reasoned

variable {P : String → Prop}

theorem reasoned_refuse {reason : String} (h : P reason) : Reasoned P (refuse reason : Gate α) := by
  intro r rs same
  cases same
  simpa using h

theorem reasoned_refuseAll {reasons : List String} (h : ∀ r ∈ reasons, P r) :
    Reasoned P (refuseAll reasons : Gate α) := by
  cases reasons with
  | nil => exact nofun
  | cons reason others =>
    intro r rs same
    cases same
    exact h

theorem reasoned_pure (a : α) : Reasoned P (pure a : Gate α) := nofun

theorem reasoned_pass : Reasoned P (pass : Gate α) := nofun

theorem reasoned_note (text : String) : Reasoned P (note text) := nofun

theorem reasoned_raise (error : String) : Reasoned P (raise error : Gate α) := nofun

theorem reasoned_ofExcept (x : Except String α) : Reasoned P (ofExcept x) := by
  cases x <;> exact nofun

theorem reasoned_ite {c : Prop} [Decidable c] {g g' : Gate α} (h : Reasoned P g)
    (h' : Reasoned P g') :
    Reasoned P (if c then g else g') := by
  split
  · exact h
  · exact h'

theorem Reasoned.failures {g : Gate α} (h : Reasoned P g) {reasons : List String}
    (given : g.failures = .ok reasons) : ∀ r ∈ reasons, P r := by
  unfold Gate.failures at given
  cases hg : g.course with
  | refuses reason others =>
    rw [hg] at given
    cases given
    exact h reason others hg
  | raises | passes | goes =>
    rw [hg] at given
    cases given
    try simp

theorem Reasoned.bind {g : Gate α} {f : α → Gate β} (here : Reasoned P g)
    (later : ∀ a, Reasoned P (f a)) :
    Reasoned P (g >>= f) := by
  intro reason others refused
  rw [bind_def] at refused
  cases hg : g.course with
  | refuses r rs =>
    simp only [Gate.bind, hg] at refused
    cases refused
    exact here _ _ hg
  | goes a =>
    simp only [Gate.bind, hg] at refused
    exact later a _ _ refused
  | raises | passes => simp [Gate.bind, hg] at refused

end Reasoned

end Gate

end DreamStudio.Library
