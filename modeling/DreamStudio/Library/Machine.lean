namespace DreamStudio.Library

universe u v

/-- A deterministic machine driven by labels; `none` is a label the state does not allow. -/
structure Machine (S : Type u) (L : Type v) where
  step : S → L → Option S

structure Machine.Transition (S : Type u) (L : Type v) where
  before : S
  label : L
  after : S

namespace Machine

variable {S : Type u} {L : Type v} (M : Machine S L)

def run : S → List L → Option S
  | s, [] => some s
  | s, l :: ls => (M.step s l).bind (run · ls)

/-- The steps a list of labels takes, up to the first label that is not allowed. -/
def transitions : S → List L → List (Transition S L)
  | _, [] => []
  | s, l :: ls =>
    match M.step s l with
    | some t => ⟨s, l, t⟩ :: transitions t ls
    | none => []

@[simp] theorem run_nil (s : S) : M.run s [] = some s := rfl

@[simp] theorem run_cons (s : S) (l : L) (ls : List L) :
    M.run s (l :: ls) = (M.step s l).bind (M.run · ls) := rfl

theorem run_append (s : S) (ls ms : List L) :
    M.run s (ls ++ ms) = (M.run s ls).bind (M.run · ms) := by
  induction ls generalizing s with
  | nil => rfl
  | cons l ls ih => cases h : M.step s l <;> simp [h, ih]

@[simp] theorem transitions_nil (s : S) : M.transitions s [] = [] := rfl

theorem transitions_cons_of_step {s t : S} {l : L} (h : M.step s l = some t) (ls : List L) :
    M.transitions s (l :: ls) = ⟨s, l, t⟩ :: M.transitions t ls := by
  simp [transitions, h]

theorem transitions_cons_of_stuck {s : S} {l : L} (h : M.step s l = none) (ls : List L) :
    M.transitions s (l :: ls) = [] := by
  simp [transitions, h]

theorem transitions_append_of_run {s t : S} {ls : List L} (h : M.run s ls = some t)
    (ms : List L) : M.transitions s (ls ++ ms) = M.transitions s ls ++ M.transitions t ms := by
  induction ls generalizing s with
  | nil => cases h; rfl
  | cons l ls ih =>
    cases hstep : M.step s l with
    | none => simp [hstep] at h
    | some u =>
      simp only [run_cons, hstep, Option.bind_some] at h
      rw [List.cons_append, M.transitions_cons_of_step hstep,
        M.transitions_cons_of_step hstep, ih h,
        List.cons_append]

theorem step_of_mem_transitions {s : S} {ls : List L} {x : Transition S L}
    (hx : x ∈ M.transitions s ls) : M.step x.before x.label = some x.after := by
  induction ls generalizing s with
  | nil => simp at hx
  | cons l ls ih =>
    cases h : M.step s l with
    | none => simp [M.transitions_cons_of_stuck h] at hx
    | some t =>
      rw [M.transitions_cons_of_step h] at hx
      rcases List.mem_cons.mp hx with rfl | hx
      · exact h
      · exact ih hx

theorem label_mem_of_mem_transitions {s : S} {ls : List L} {x : Transition S L}
    (hx : x ∈ M.transitions s ls) : x.label ∈ ls := by
  induction ls generalizing s with
  | nil => simp at hx
  | cons l ls ih =>
    cases h : M.step s l with
    | none => simp [M.transitions_cons_of_stuck h] at hx
    | some t =>
      rw [M.transitions_cons_of_step h] at hx
      rcases List.mem_cons.mp hx with rfl | hx
      · exact List.mem_cons_self
      · exact List.mem_cons_of_mem _ (ih hx)

/-- The invariant rule: a property of the first state that every step meeting the guard keeps
holds before and after each step of a run whose steps all meet the guard. -/
theorem invariant_of_guarded {J : S → Prop} {G : S → L → S → Prop}
    (step : ∀ s l t, J s → G s l t → M.step s l = some t → J t) {s : S} (start : J s) {ls : List L}
    (guard : ∀ x ∈ M.transitions s ls, G x.before x.label x.after) :
    ∀ x ∈ M.transitions s ls, J x.before ∧ J x.after := by
  induction ls generalizing s with
  | nil => simp
  | cons l ls ih =>
    cases h : M.step s l with
    | none => simp [M.transitions_cons_of_stuck h]
    | some t =>
      rw [M.transitions_cons_of_step h] at guard ⊢
      have next : J t := step s l t start (guard _ List.mem_cons_self) h
      intro x hx
      rcases List.mem_cons.mp hx with rfl | hx
      · exact ⟨start, next⟩
      · exact ih next (fun y hy => guard y (List.mem_cons_of_mem _ hy)) x hx

theorem invariant {J : S → Prop} (step : ∀ s l t, J s → M.step s l = some t → J t) {s : S}
    (start : J s) (ls : List L) : ∀ x ∈ M.transitions s ls, J x.before ∧ J x.after :=
  M.invariant_of_guarded (G := fun _ _ _ => True) (fun s l t hs _ h => step s l t hs h) start
    (fun _ _ => trivial)

theorem run_invariant_of_guarded {J : S → Prop} {G : S → L → S → Prop}
    (step : ∀ s l t, J s → G s l t → M.step s l = some t → J t) {s t : S} (start : J s)
    {ls : List L} (guard : ∀ x ∈ M.transitions s ls, G x.before x.label x.after)
    (reach : M.run s ls = some t) : J t := by
  induction ls generalizing s with
  | nil => cases reach; exact start
  | cons l ls ih =>
    cases h : M.step s l with
    | none => simp [h] at reach
    | some u =>
      rw [M.transitions_cons_of_step h] at guard
      simp only [run_cons, h, Option.bind_some] at reach
      exact ih (step s l u start (guard _ List.mem_cons_self) h)
        (fun y hy => guard y (List.mem_cons_of_mem _ hy)) reach

theorem run_invariant {J : S → Prop} (step : ∀ s l t, J s → M.step s l = some t → J t) {s t : S}
    (start : J s) {ls : List L} (reach : M.run s ls = some t) : J t :=
  M.run_invariant_of_guarded (G := fun _ _ _ => True) (fun s l t hs _ h => step s l t hs h) start
    (fun _ _ => trivial) reach

theorem rel_of_mem_transitions {R : S → S → Prop} (refl : ∀ s, R s s)
    (trans : ∀ s t u, R s t → R t u → R s u) (step : ∀ s l t, M.step s l = some t → R s t) {s t : S}
    {ls : List L} (reach : M.run s ls = some t) :
    R s t ∧ ∀ x ∈ M.transitions s ls, R x.after t := by
  induction ls generalizing s with
  | nil =>
    cases reach
    exact ⟨refl _, by simp⟩
  | cons l ls ih =>
    cases h : M.step s l with
    | none => simp [h] at reach
    | some u =>
      simp only [run_cons, h, Option.bind_some] at reach
      rw [M.transitions_cons_of_step h, List.forall_mem_cons]
      obtain ⟨here, later⟩ := ih reach
      exact ⟨trans s u t (step s l u h) here, here, later⟩

/-- When, from states with `P`, a step relates its ends by `Q` exactly if it meets `C`, and then
keeps `P`, all steps of a run do exactly if all of them meet `C`. -/
theorem forall_steps_iff_of_exact {J P : S → Prop} {Q : S → S → Prop} {C : S → L → Prop}
    (keep : ∀ s l t, J s → M.step s l = some t → J t)
    (exact_step : ∀ s l t, J s → P s → M.step s l = some t → (Q s t ↔ C s l))
    (next : ∀ s l t, J s → P s → M.step s l = some t → C s l → P t)
    {s : S} (hJ : J s) (hP : P s) (ls : List L) :
    (∀ x ∈ M.transitions s ls, Q x.before x.after) ↔
      ∀ x ∈ M.transitions s ls, C x.before x.label := by
  induction ls generalizing s with
  | nil => simp
  | cons l ls ih =>
    cases h : M.step s l with
    | none => simp [M.transitions_cons_of_stuck h]
    | some t =>
      rw [M.transitions_cons_of_step h, List.forall_mem_cons, List.forall_mem_cons]
      have here := exact_step s l t hJ hP h
      have later (hc : C s l) := ih (keep s l t hJ h) (next s l t hJ hP h hc)
      constructor
      · rintro ⟨ht, hrest⟩
        exact ⟨here.mp ht, (later (here.mp ht)).mp hrest⟩
      · rintro ⟨hc, hrest⟩
        exact ⟨here.mpr hc, (later hc).mpr hrest⟩

/-- When, from states with `P`, a step shows `Q` exactly if it meets `C`, and then keeps `P`, a run
shows `Q` throughout exactly if all of its steps meet `C`. -/
theorem forall_after_iff_of_exact {J P Q : S → Prop} {C : S → L → Prop}
    (keep : ∀ s l t, J s → M.step s l = some t → J t)
    (exact_step : ∀ s l t, J s → P s → M.step s l = some t → (Q t ↔ C s l))
    (next : ∀ s l t, J s → P s → M.step s l = some t → C s l → P t)
    {s : S} (hJ : J s) (hP : P s) (ls : List L) :
    (∀ x ∈ M.transitions s ls, Q x.after) ↔ ∀ x ∈ M.transitions s ls, C x.before x.label :=
  M.forall_steps_iff_of_exact (Q := fun _ t => Q t) keep exact_step next hJ hP ls

/-- When a step keeps `P` exactly if it meets `C`, a run keeps `P` throughout exactly if all of
its steps meet `C`. -/
theorem forall_after_iff_forall_guard {J P : S → Prop} {C : S → L → Prop}
    (keep : ∀ s l t, J s → M.step s l = some t → J t)
    (exact_step : ∀ s l t, J s → P s → M.step s l = some t → (P t ↔ C s l))
    {s : S} (hJ : J s) (hP : P s) (ls : List L) :
    (∀ x ∈ M.transitions s ls, P x.after) ↔ ∀ x ∈ M.transitions s ls, C x.before x.label :=
  M.forall_after_iff_of_exact keep exact_step
    (fun s l t hJ hP h => (exact_step s l t hJ hP h).mpr) hJ hP ls

end Machine

end DreamStudio.Library
