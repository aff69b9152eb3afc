import Mathlib.Data.List.Nodup

namespace DreamStudio.Library

universe u v

variable {α : Type u} {κ : Type v} [DecidableEq κ] (key : α → Option κ)

def firsts : List κ → List α → List α
  | _, [] => []
  | seen, x :: xs =>
    match key x with
    | none => x :: firsts seen xs
    | some k => if k ∈ seen then firsts seen xs else x :: firsts (k :: seen) xs

def repeats : List κ → List α → List α
  | _, [] => []
  | seen, x :: xs =>
    match key x with
    | none => repeats seen xs
    | some k => if k ∈ seen then x :: repeats seen xs else repeats (k :: seen) xs

theorem firsts_append_repeats (seen : List κ) (xs : List α) :
    (firsts key seen xs ++ repeats key seen xs).Perm xs := by
  induction xs generalizing seen with
  | nil => exact .nil
  | cons x xs ih =>
    rw [firsts, repeats]
    cases key x with
    | none => exact (ih seen).cons x
    | some k =>
      dsimp only
      split
      · exact List.perm_middle.trans ((ih seen).cons x)
      · exact (ih _).cons x

variable {key}

theorem firsts_cons_none {x : α} (unkeyed : key x = none) (seen : List κ) (xs : List α) :
    firsts key seen (x :: xs) = x :: firsts key seen xs := by
  rw [firsts, unkeyed]

theorem firsts_cons_some {x : α} {k : κ} (keyed : key x = some k) (seen : List κ) (xs : List α) :
    firsts key seen (x :: xs) = if k ∈ seen then firsts key seen xs else x :: firsts key
      (k :: seen) xs := by
  rw [firsts, keyed]

variable (key) in
theorem firsts_sublist (seen : List κ) (xs : List α) : (firsts key seen xs).Sublist xs := by
  induction xs generalizing seen with
  | nil => exact .slnil
  | cons x xs ih =>
    cases keyed : key x with
    | none =>
      rw [firsts_cons_none keyed]
      exact (ih seen).cons_cons x
    | some k =>
      rw [firsts_cons_some keyed]
      split
      · exact (ih seen).cons x
      · exact (ih _).cons_cons x

theorem firsts_congr {seen seen' : List κ} (same : ∀ k, k ∈ seen ↔ k ∈ seen') (xs : List α) :
    firsts key seen xs = firsts key seen' xs := by
  induction xs generalizing seen seen' with
  | nil => rfl
  | cons x xs ih =>
    cases keyed : key x with
    | none => rw [firsts_cons_none keyed, firsts_cons_none keyed, ih same]
    | some k =>
      rw [firsts_cons_some keyed, firsts_cons_some keyed, ih same]
      simp only [same k]
      split
      · rfl
      · have next (l : κ) : l ∈ k :: seen ↔ l ∈ k :: seen' := by rw [List.mem_cons, List.mem_cons, same l]
        rw [ih next]

theorem firsts_append (seen : List κ) (xs ys : List α) :
    firsts key seen (xs ++ ys) = firsts key seen xs ++
      firsts key (xs.filterMap key ++ seen) ys := by
  induction xs generalizing seen with
  | nil => rfl
  | cons x xs ih =>
    rw [List.cons_append]
    cases keyed : key x with
    | none =>
      rw [firsts_cons_none keyed, firsts_cons_none keyed, ih,
        List.filterMap_cons_none keyed, List.cons_append]
    | some k =>
      rw [firsts_cons_some keyed, firsts_cons_some keyed, List.filterMap_cons_some keyed, ih, ih]
      split
      · next old =>
        refine congrArg _ (firsts_congr (fun l => ?_) ys)
        simp only [List.mem_append, List.mem_cons]
        constructor
        · exact fun h => h.elim (fun h => Or.inl (Or.inr h)) Or.inr
        · rintro ((rfl | h) | h)
          · exact Or.inr old
          · exact Or.inl h
          · exact Or.inr h
      · rw [List.cons_append]
        refine congrArg (fun ys => x :: (_ ++ ys)) (firsts_congr (fun l => ?_) ys)
        simp only [List.cons_append, List.mem_append, List.mem_cons]
        exact or_left_comm

variable (key) in
theorem keys_firsts (seen : List κ) (xs : List α) :
    ((firsts key seen xs).filterMap key).Nodup ∧
      ∀ k ∈ (firsts key seen xs).filterMap key, k ∉ seen := by
  induction xs generalizing seen with
  | nil => exact ⟨.nil, nofun⟩
  | cons x xs ih =>
    cases keyed : key x with
    | none =>
      rw [firsts_cons_none keyed, List.filterMap_cons_none keyed]
      exact ih seen
    | some k =>
      rw [firsts_cons_some keyed]
      split
      · exact ih seen
      · next new =>
        obtain ⟨nodup, unseen⟩ := ih (k :: seen)
        rw [List.filterMap_cons_some keyed]
        refine ⟨List.nodup_cons.mpr ⟨fun h => unseen k h List.mem_cons_self, nodup⟩, ?_⟩
        rintro l (_ | ⟨_, h⟩)
        · exact new
        · exact fun h' => unseen l h (List.mem_cons_of_mem _ h')

theorem firsts_eq_self {seen : List κ} {xs : List α} (nodup : (xs.filterMap key).Nodup)
    (unseen : ∀ k ∈ xs.filterMap key, k ∉ seen) : firsts key seen xs = xs := by
  induction xs generalizing seen with
  | nil => rfl
  | cons x xs ih =>
    cases keyed : key x with
    | none =>
      rw [List.filterMap_cons_none keyed] at nodup unseen
      rw [firsts_cons_none keyed, ih nodup unseen]
    | some k =>
      rw [List.filterMap_cons_some keyed] at nodup unseen
      obtain ⟨new, nodup⟩ := List.nodup_cons.mp nodup
      obtain ⟨here, later⟩ := List.forall_mem_cons.mp unseen
      rw [firsts_cons_some keyed, if_neg here, ih nodup]
      intro l h
      rw [List.mem_cons, not_or]
      exact ⟨fun same => new (same ▸ h), later l h⟩

theorem firsts_eq_nil {seen : List κ} {xs : List α} (old : ∀ x ∈ xs, ∃ k ∈ seen, key x = some k) :
    firsts key seen xs = [] := by
  induction xs with
  | nil => rfl
  | cons x xs ih =>
    obtain ⟨⟨k, member, keyed⟩, old⟩ := List.forall_mem_cons.mp old
    rw [firsts_cons_some keyed, if_pos member]
    exact ih old

theorem firsts_eq_self_iff {seen : List κ} {xs : List α} : firsts key seen xs = xs ↔
    (xs.filterMap key).Nodup ∧ ∀ k ∈ xs.filterMap key, k ∉ seen := by
  refine ⟨fun same => ?_, fun ⟨nodup, unseen⟩ => firsts_eq_self nodup unseen⟩
  have kept := keys_firsts key seen xs
  rw [same] at kept
  exact kept

theorem firsts_of_sublist {seen : List κ} {xs ys : List α} (sub : ys.Sublist (firsts key seen xs)) :
    firsts key [] ys = ys :=
  firsts_eq_self ((keys_firsts key seen xs).1.sublist (sub.filterMap key)) fun _ _ =>
    List.not_mem_nil

theorem map_firsts {β : Type u} (f : β → α) (seen : List κ) (ys : List β) :
    (firsts (fun y => key (f y)) seen ys).map f = firsts key seen (ys.map f) := by
  induction ys generalizing seen with
  | nil => rfl
  | cons y ys ih =>
    rw [List.map_cons]
    cases keyed : key (f y) with
    | none =>
      rw [firsts_cons_none keyed, ← ih, firsts, keyed]
      rfl
    | some k =>
      rw [firsts_cons_some keyed, ← ih, ← ih, firsts, keyed]
      simp only
      split <;> rfl

end DreamStudio.Library
