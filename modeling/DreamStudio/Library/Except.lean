namespace DreamStudio.Library

universe u v

variable {ε : Type u} {α β : Type v}

theorem bind_eq_ok {x : Except ε α} {f : α → Except ε β} {b : β} :
    x >>= f = .ok b ↔ ∃ a, x = .ok a ∧ f a = .ok b := by
  cases x with
  | error err => exact ⟨nofun, nofun⟩
  | ok a => exact ⟨fun h => ⟨a, rfl, h⟩, by rintro ⟨_, ⟨⟩, h⟩; exact h⟩

theorem ok_bind (a : α) (f : α → Except ε β) : (.ok a : Except ε α) >>= f = f a := rfl

theorem pure_eq_ok {a b : α} : (pure a : Except ε α) = .ok b ↔ a = b := by
  simp [pure, Except.pure]

theorem toOption_eq_some {x : Except ε α} {a : α} : x.toOption = some a ↔ x = .ok a := by
  cases x <;> simp [Except.toOption]

theorem isOk_bind_congr {x : Except ε α} {f g : α → Except ε β} (h : ∀ a, (f a).isOk = (g a).isOk) :
    (x >>= f).isOk = (x >>= g).isOk := by
  cases x with
  | error err => rfl
  | ok a => exact h a

theorem isOk_bind_pure {x y : Except ε α} {f g : α → β} (h : x.isOk = y.isOk) :
    (x >>= fun a => pure (f a)).isOk = (y >>= fun a => pure (g a)).isOk := by
  cases x <;> cases y <;> first | rfl | exact h

theorem forM_eq_ok {f : α → Except ε PUnit} {xs : List α} (h : xs.forM f = .ok ⟨⟩) :
    ∀ x ∈ xs, f x = .ok ⟨⟩ := by
  induction xs with
  | nil => simp
  | cons x xs ih =>
    obtain ⟨_, here, later⟩ := bind_eq_ok.mp h
    exact List.forall_mem_cons.mpr ⟨here, ih later⟩

theorem mapM_eq_ok {f : α → Except ε β} {xs : List α} {ys : List β} (h : xs.mapM f = .ok ys) :
    (∀ x ∈ xs, ∃ y ∈ ys, f x = .ok y) ∧ ∀ y ∈ ys, ∃ x ∈ xs, f x = .ok y := by
  induction xs generalizing ys with
  | nil =>
    cases h
    exact ⟨by simp, by simp⟩
  | cons x xs ih =>
    rw [List.mapM_cons] at h
    obtain ⟨y, first, h⟩ := bind_eq_ok.mp h
    obtain ⟨ys', rest, h⟩ := bind_eq_ok.mp h
    cases h
    obtain ⟨there, back⟩ := ih rest
    constructor
    · refine List.forall_mem_cons.mpr ⟨⟨y, List.mem_cons_self, first⟩, fun x' member => ?_⟩
      obtain ⟨y', member, same⟩ := there x' member
      exact ⟨y', List.mem_cons_of_mem y member, same⟩
    · refine List.forall_mem_cons.mpr ⟨⟨x, List.mem_cons_self, first⟩, fun y' member => ?_⟩
      obtain ⟨x', member, same⟩ := back y' member
      exact ⟨x', List.mem_cons_of_mem x member, same⟩

theorem exists_mapM_eq_ok_iff {f : α → Except ε β} {xs : List α} :
    (∃ ys, xs.mapM f = .ok ys) ↔ ∀ x ∈ xs, ∃ y, f x = .ok y := by
  apply Iff.intro
  · rintro ⟨ys, ran⟩ x member
    exact ((mapM_eq_ok ran).1 x member).imp fun _ h => h.2
  · intro each
    induction xs with
    | nil => exact ⟨[], rfl⟩
    | cons x xs ih =>
      obtain ⟨⟨y, here⟩, rest⟩ := List.forall_mem_cons.mp each
      obtain ⟨ys, ran⟩ := ih rest
      rw [List.mapM_cons, here, ok_bind, ran]
      exact ⟨y :: ys, rfl⟩

def collect (f : α → Except ε β) (xs : List α) (refused : List ε) : List β × List ε :=
  xs.foldl
    (fun (kept, refused) x =>
      match f x with
      | .ok y => (kept ++ [y], refused)
      | .error e => (kept, refused ++ [e]))
    ([], refused)

theorem collect_fst (f : α → Except ε β) (xs : List α) (refused : List ε) :
    (collect f xs refused).1 = xs.filterMap fun x => (f x).toOption := by
  unfold collect
  suffices ∀ (kept : List β) (refused : List ε),
      (xs.foldl
        (fun (kept, refused) x =>
          match f x with
          | .ok y => (kept ++ [y], refused)
          | .error e => (kept, refused ++ [e]))
        (kept, refused)).1 = kept ++ xs.filterMap fun x => (f x).toOption from this [] refused
  induction xs with
  | nil => simp
  | cons x xs ih =>
    intro kept refused
    rw [List.foldl_cons]
    cases h : f x with
    | ok y => simp [ih, h, Except.toOption]
    | error e => simp [ih, h, Except.toOption]

end DreamStudio.Library
