import DreamStudio.Library.Dict
import Mathlib.Data.List.Forall2

namespace DreamStudio.Library

universe u v w

namespace Traverse

variable {α : Type u} {β : Type u} {xs : List α}

theorem filterMapM_induction {f : α → Option (Option β)} {P : List α → List β → Prop}
    (nil : P [] []) (cons : ∀ x xs z ys, f x = some z → P xs ys → P (x :: xs) (z.toList ++ ys)) :
    ∀ {xs ys}, xs.filterMapM f = some ys → P xs ys := by
  intro xs
  induction xs with
  | nil =>
    rintro ys ⟨⟩
    exact nil
  | cons x xs ih =>
    intro ys went
    rw [List.filterMapM_cons] at went
    obtain ⟨z, here, went⟩ := Option.bind_eq_some_iff.mp went
    cases z with
    | none => exact cons x xs none ys here (ih went)
    | some y =>
      obtain ⟨rest, later, same⟩ := Option.bind_eq_some_iff.mp went
      cases same
      exact cons x xs (some y) rest here (ih later)

theorem mapM_induction {f : α → Option β} {P : List α → List β → Prop} (nil : P [] [])
    (cons : ∀ x xs y ys, f x = some y → P xs ys → P (x :: xs) (y :: ys)) :
    ∀ {xs ys}, xs.mapM f = some ys → P xs ys := by
  intro xs
  induction xs with
  | nil =>
    rintro ys ⟨⟩
    exact nil
  | cons x xs ih =>
    intro ys went
    rw [List.mapM_cons] at went
    obtain ⟨y, here, went⟩ := Option.bind_eq_some_iff.mp went
    obtain ⟨rest, later, same⟩ := Option.bind_eq_some_iff.mp went
    cases same
    exact cons x xs y rest here (ih later)

theorem filterMapM_eq_some {f : α → Option (Option β)} {g : α → Option β}
    (pure : ∀ x ∈ xs, f x = some (g x)) :
    xs.filterMapM f = some (xs.filterMap g) := by
  induction xs with
  | nil => rfl
  | cons x xs ih =>
    obtain ⟨here, later⟩ := List.forall_mem_cons.mp pure
    rw [List.filterMapM_cons, here, ih later, List.filterMap_cons]
    cases g x <;> rfl

theorem exists_filterMapM {f : α → Option (Option β)} (each : ∀ x ∈ xs, ∃ z, f x = some z) :
    ∃ ys, xs.filterMapM f = some ys := by
  induction xs with
  | nil => exact ⟨[], rfl⟩
  | cons x xs ih =>
    obtain ⟨⟨z, here⟩, later⟩ := List.forall_mem_cons.mp each
    obtain ⟨ys, went⟩ := ih later
    rw [List.filterMapM_cons, here, went]
    cases z with
    | none => exact ⟨ys, rfl⟩
    | some y => exact ⟨y :: ys, rfl⟩

theorem exists_mapM {f : α → Option β} (each : ∀ x ∈ xs, ∃ y, f x = some y) :
    ∃ ys, xs.mapM f = some ys := by
  induction xs with
  | nil => exact ⟨[], rfl⟩
  | cons x xs ih =>
    obtain ⟨⟨y, here⟩, later⟩ := List.forall_mem_cons.mp each
    obtain ⟨ys, went⟩ := ih later
    exact ⟨y :: ys, by rw [List.mapM_cons, here, went]; rfl⟩

theorem anyM_eq_some {f : α → Option Bool} {g : α → Bool} (pure : ∀ x ∈ xs, f x = some (g x)) :
    xs.anyM f = some (xs.any g) := by
  induction xs with
  | nil => rfl
  | cons x xs ih =>
    obtain ⟨here, later⟩ := List.forall_mem_cons.mp pure
    rw [List.anyM_cons, here, ih later, List.any_cons]
    cases g x <;> rfl

theorem allM_eq_some {f : α → Option Bool} {g : α → Bool} (pure : ∀ x ∈ xs, f x = some (g x)) :
    xs.allM f = some (xs.all g) := by
  induction xs with
  | nil => rfl
  | cons x xs ih =>
    obtain ⟨here, later⟩ := List.forall_mem_cons.mp pure
    rw [List.allM_cons, here, ih later, List.all_cons]
    cases g x <;> rfl

theorem exists_of_anyM {f : α → Option Bool} (h : xs.anyM f = some true) :
    ∃ x ∈ xs, f x = some true := by
  induction xs with
  | nil => cases h
  | cons x xs ih =>
    rw [List.anyM_cons] at h
    obtain ⟨b, here, h⟩ := Option.bind_eq_some_iff.mp h
    cases b with
    | true => exact ⟨x, List.mem_cons_self, here⟩
    | false =>
      obtain ⟨y, there, holds⟩ := ih h
      exact ⟨y, List.mem_cons_of_mem _ there, holds⟩

theorem rel_foldlM {f : β → α → Option β} {R : β → β → Prop} (refl : ∀ b, R b b)
    (trans : ∀ a b c, R a b → R b c → R a c) (step : ∀ x ∈ xs, ∀ b b', f b x = some b' → R b b')
    {b b' : β} (went : xs.foldlM f b = some b') : R b b' := by
  induction xs generalizing b with
  | nil => exact Option.some.inj went ▸ refl b
  | cons x xs ih =>
    rw [List.foldlM_cons] at went
    obtain ⟨next, here, later⟩ := Option.bind_eq_some_iff.mp went
    obtain ⟨turn, turns⟩ := List.forall_mem_cons.mp step
    exact trans b next b' (turn b next here) (ih turns later)

theorem foldlM_eq_some {f : β → α → Option β} {b : β} (each : ∀ x ∈ xs, f b x = some b) :
    xs.foldlM f b = some b := by
  induction xs with
  | nil => rfl
  | cons x xs ih =>
    obtain ⟨here, later⟩ := List.forall_mem_cons.mp each
    rw [List.foldlM_cons, here]
    exact ih later

end Traverse

namespace Dict

variable {κ : Type u} {ν ω : Type u} [DecidableEq κ]

theorem get_filterMapM {f : κ × ν → Option (Option (κ × ω))}
    (keyed : ∀ item other, f item = some (some other) → other.1 = item.1) {d : Dict κ ν}
    {e : Dict κ ω} (went : d.filterMapM f = some e) :
    (keys d).Nodup → (keys e).Sublist (keys d) ∧ ∀ key, get d key = none ∧ get e key = none ∨
      ∃ value z, get d key = some value ∧ f (key, value) = some z ∧ get e key = z.map (·.2) := by
  refine Traverse.filterMapM_induction (f := f)
    (P := fun d e => (keys d).Nodup → (keys e).Sublist (keys d) ∧ ∀ key, get d key = none ∧
      get e key = none ∨
      ∃ value z, get d key = some value ∧ f (key, value) = some z ∧ get e key = z.map (·.2))
    (fun _ => ⟨.slnil, fun _ => Or.inl ⟨rfl, rfl⟩⟩) ?_ went
  rintro ⟨k, value⟩ d z e here ih nodup
  obtain ⟨absent, nodup⟩ := List.nodup_cons.mp nodup
  obtain ⟨sub, ih⟩ := ih nodup
  have gone : get e k = none := get_eq_none_iff.mpr fun h => absent (sub.subset h)
  cases z with
  | none =>
    refine ⟨sub.cons _, fun key => ?_⟩
    by_cases same : k = key
    · subst same
      refine Or.inr ⟨value, none, by rw [get_cons, if_pos rfl], here, gone⟩
    · rw [get_cons, if_neg same]
      exact ih key
  | some other =>
    have own : other.1 = k := keyed _ _ here
    refine ⟨?_, fun key => ?_⟩
    · change (other.1 :: keys e).Sublist (k :: keys d)
      rw [own]
      exact sub.cons_cons k
    · change _ ∧ get (other :: e) key = none ∨ ∃ value z, _ ∧ _ ∧ get (other :: e) key = _
      rw [get_cons, get_cons, own]
      by_cases same : k = key
      · subst same
        rw [if_pos rfl, if_pos rfl]
        exact Or.inr ⟨value, some other, rfl, here, rfl⟩
      · rw [if_neg same, if_neg same]
        exact ih key

theorem get_mapM {f : κ × ν → Option (κ × ω)}
    (keyed : ∀ item other, f item = some other → other.1 = item.1) {d : Dict κ ν} {e : Dict κ ω}
    (went : d.mapM f = some e) :
    keys e = keys d ∧ ∀ key, get d key = none ∧ get e key = none ∨
      ∃ value other, get d key = some value ∧ f (key, value) = some other ∧
        get e key = some other.2 := by
  refine Traverse.mapM_induction (f := f)
    (P := fun d e => keys e = keys d ∧ ∀ key, get d key = none ∧ get e key = none ∨
      ∃ value other, get d key = some value ∧ f (key, value) = some other ∧
        get e key = some other.2)
    ⟨rfl, fun _ => Or.inl ⟨rfl, rfl⟩⟩ ?_ went
  rintro ⟨k, value⟩ d other e here ⟨ks, ih⟩
  have own : other.1 = k := keyed _ _ here
  refine ⟨?_, fun key => ?_⟩
  · change other.1 :: keys e = k :: keys d
    rw [own, ks]
  · rw [get_cons, get_cons, own]
    by_cases same : k = key
    · subst same
      rw [if_pos rfl, if_pos rfl]
      exact Or.inr ⟨value, other, rfl, here, rfl⟩
    · rw [if_neg same, if_neg same]
      exact ih key

theorem set_of_get {d : Dict κ ν} (nodup : (keys d).Nodup) {key : κ} {value : ν}
    (has : get d key = some value) :
    set d key value = d := by
  have there : key ∈ keys d := not_not.mp fun absent => nomatch get_eq_none_iff.mpr absent ▸ has
  rw [set, if_pos (any_key.mpr there)]
  refine (List.map_congr_left fun item member => ?_).trans (List.map_id' d)
  split
  · next same =>
    obtain ⟨k, v⟩ := item
    subst same
    rw [get_of_mem nodup member] at has
    rw [Option.some.inj has]
  · rfl

theorem ext_of_get {d e : Dict κ ν} (nodup : (keys d).Nodup) (nodup' : (keys e).Nodup)
    (same : keys d = keys e) (gets : ∀ key, get d key = get e key) : d = e := by
  induction d generalizing e with
  | nil => exact (List.map_eq_nil_iff.mp same.symm).symm
  | cons item d ih =>
    cases e with
    | nil => cases same
    | cons other e =>
      obtain ⟨key, rest⟩ := List.cons.inj same
      change item.1 = other.1 at key
      obtain ⟨absent, nodup⟩ := List.nodup_cons.mp nodup
      obtain ⟨absent', nodup'⟩ := List.nodup_cons.mp nodup'
      have value := gets item.1
      rw [get_cons, get_cons, if_pos rfl, if_pos key.symm] at value
      rw [Prod.ext key (Option.some.inj value), ih nodup nodup' rest fun k => ?_]
      by_cases here : item.1 = k
      · subst here
        rw [get_eq_none_iff.mpr absent, get_eq_none_iff.mpr (key ▸ absent')]
      · have there := gets k
        rwa [get_cons, get_cons, if_neg here, if_neg (key ▸ here)] at there

theorem get_filter_key (d : Dict κ ν) (gone key : κ) :
    get (d.filter (·.1 ≠ gone)) key = if key = gone then none else get d key := by
  induction d with
  | nil => simp
  | cons item d ih =>
    rw [List.filter_cons, get_cons]
    by_cases here : item.1 = gone
    · rw [if_neg (by simpa using here), ih]
      by_cases same : key = gone
      · rw [if_pos same, if_pos same]
      · rw [if_neg same, if_neg same, if_neg fun h => same (h.symm.trans here)]
    · rw [if_pos (by simpa using here), get_cons, ih]
      by_cases same : key = gone
      · rw [if_pos same, if_pos same, if_neg fun h => here (h.trans same)]
      · rw [if_neg same, if_neg same]

end Dict

namespace Traverse

variable {α β : Type u} {R : α → β → Prop}

theorem sublistForall₂_append {xs xs' : List α} {ys ys' : List β} (h : List.SublistForall₂ R xs ys)
    (h' : List.SublistForall₂ R xs' ys') : List.SublistForall₂ R (xs ++ xs') (ys ++ ys') := by
  induction h with
  | @nil ys =>
    induction ys with
    | nil => exact h'
    | cons y ys ih => exact .cons_right ih
  | cons rel _ ih => exact .cons rel ih
  | cons_right _ ih => exact .cons_right ih

theorem sublistForall₂_flatMap {γ δ : Type u} {f : γ → List α} {g : δ → List β}
    {cs : List γ} {ds : List δ}
    (h : List.Forall₂ (fun c d => List.SublistForall₂ R (f c) (g d)) cs ds) :
    List.SublistForall₂ R (cs.flatMap f) (ds.flatMap g) := by
  induction h with
  | nil => exact .nil
  | cons here _ ih => exact sublistForall₂_append here ih

end Traverse

end DreamStudio.Library
