import DreamStudio.Library.Machine

namespace DreamStudio.Library

/-- What takes one event after another and remembers some of those it took. `none` is a delivery
that raises: it is rolled back. -/
structure Consumer (σ ε κ : Type) where
  handle : ε → Nat → σ → Option σ
  own : ε → Bool
  key : ε → κ
  seen : σ → κ → Prop
  skips : ∀ {e n s}, seen s (key e) → handle e n s = some s
  learns : ∀ {e n s t}, own e = true → handle e n s = some t → ∀ k, seen t k → seen s k ∨ k = key e

/-- A consumer that was given each event once, and one that was given some of them again. -/
structure Twice (σ ε : Type) where
  once : σ
  again : σ
  delivered : List ε := []

/-- Both are given a new event, or the second one an event it was given before. -/
inductive Delivery (ε : Type)
  | first (e : ε) (clock : Nat)
  | again (index clock : Nat)

namespace Consumer

variable {σ ε κ V : Type} [DecidableEq κ] (C : Consumer σ ε κ)

def deliver (s : Twice σ ε) : Delivery ε → Option (Twice σ ε)
  | .first e clock =>
    if C.own e = true ∧ ∀ f ∈ s.delivered, C.key f ≠ C.key e then
      (C.handle e clock s.once).bind fun once =>
        (C.handle e clock s.again).map fun again => ⟨once, again, s.delivered ++ [e]⟩
    else none
  | .again index clock =>
    s.delivered[index]?.bind fun e =>
      (C.handle e clock s.again).map fun again => { s with again := again }

def twice : Machine (Twice σ ε) (Delivery ε) := ⟨C.deliver⟩

/-- The deliveries that keep the two alike: a new event that does the same to both, and an event
that is remembered or stands. -/
def Harmless (Steady : ε → σ → σ → Prop) (Stands : ε → σ → Prop) (s : Twice σ ε) :
    Delivery ε → Prop
  | .first e _ => Steady e s.once s.again
  | .again index _ => ∀ e ∈ s.delivered[index]?, C.seen s.again (C.key e) ∨ Stands e s.again

/-- Redelivery leaves no trace in `view` after any delivery. -/
def Alike (view : σ → V) (start : σ) (deliveries : List (Delivery ε)) : Prop :=
  ∀ x ∈ C.twice.transitions ⟨start, start, []⟩ deliveries, view x.after.once = view x.after.again

/-- Every delivery is harmless. -/
def Spared (Steady : ε → σ → σ → Prop) (Stands : ε → σ → Prop) (start : σ)
    (deliveries : List (Delivery ε)) : Prop :=
  ∀ x ∈ C.twice.transitions ⟨start, start, []⟩ deliveries, C.Harmless Steady Stands x.before x.label

/-- What every run keeps. -/
structure Known (s : Twice σ ε) : Prop where
  own : ∀ e ∈ s.delivered, C.own e = true
  once : ∀ k, C.seen s.once k → ∃ e ∈ s.delivered, C.key e = k
  again : ∀ k, C.seen s.again k → ∃ e ∈ s.delivered, C.key e = k

variable {C} {s t : Twice σ ε} {label : Delivery ε}

theorem deliver_first {e : ε} {clock : Nat} (h : C.deliver s (.first e clock) = some t) :
    C.own e = true ∧ (∀ f ∈ s.delivered, C.key f ≠ C.key e) ∧
      C.handle e clock s.once = some t.once ∧ C.handle e clock s.again = some t.again ∧
      t.delivered = s.delivered ++ [e] := by
  simp only [deliver] at h
  split at h
  next new =>
    obtain ⟨once, first, h⟩ := Option.bind_eq_some_iff.mp h
    obtain ⟨again, second, rfl⟩ := Option.map_eq_some_iff.mp h
    exact ⟨new.1, new.2, first, second, rfl⟩
  next => cases h

theorem deliver_again {index clock : Nat} (h : C.deliver s (.again index clock) = some t) :
    ∃ e, s.delivered[index]? = some e ∧ C.handle e clock s.again = some t.again ∧
      t.once = s.once ∧ t.delivered = s.delivered := by
  simp only [deliver] at h
  obtain ⟨e, found, h⟩ := Option.bind_eq_some_iff.mp h
  obtain ⟨again, handled, rfl⟩ := Option.map_eq_some_iff.mp h
  exact ⟨e, found, handled, rfl, rfl⟩

theorem Known.deliver (known : C.Known s) (h : C.deliver s label = some t) : C.Known t := by
  cases label with
  | first e clock =>
    obtain ⟨own, -, once, again, delivered⟩ := deliver_first h
    have grows : ∀ {a b : σ}, (∀ k, C.seen a k → ∃ f ∈ s.delivered, C.key f = k) →
        C.handle e clock a = some b → ∀ k, C.seen b k → ∃ f ∈ t.delivered, C.key f = k := by
      intro a b before handled k seen
      rw [delivered]
      rcases C.learns own handled k seen with earlier | rfl
      · obtain ⟨f, hf, same⟩ := before k earlier
        exact ⟨f, List.mem_append_left _ hf, same⟩
      · exact ⟨e, List.mem_append_right _ List.mem_cons_self, rfl⟩
    refine ⟨?_, grows known.once once, grows known.again again⟩
    rw [delivered]
    intro f hf
    rcases List.mem_append.mp hf with hf | hf
    · exact known.own f hf
    · rw [List.mem_singleton.mp hf]
      exact own
  | again index clock =>
    obtain ⟨e, found, handled, once, delivered⟩ := deliver_again h
    refine ⟨by rw [delivered]; exact known.own, by rw [once, delivered]; exact known.once, ?_⟩
    rw [delivered]
    intro k seen
    rcases C.learns (known.own e (List.mem_of_getElem? found)) handled k seen with earlier | rfl
    · exact known.again k earlier
    · exact ⟨e, List.mem_of_getElem? found, rfl⟩

theorem alike_iff_harmless {view : σ → V} {Steady : ε → σ → σ → Prop} {Stands : ε → σ → Prop}
    (first_iff : ∀ {e clock a b a' b'}, C.own e = true → view a = view b → ¬C.seen a (C.key e) →
      ¬C.seen b (C.key e) → C.handle e clock a = some a' → C.handle e clock b = some b' →
        (view a' = view b' ↔ Steady e a b))
    (again_iff : ∀ {e clock a a'}, C.own e = true → ¬C.seen a (C.key e) →
      C.handle e clock a = some a' → (view a' = view a ↔ Stands e a))
    {start : σ} (blank : ∀ k, ¬C.seen start k) (deliveries : List (Delivery ε)) :
    C.Alike view start deliveries ↔ C.Spared Steady Stands start deliveries := by
  refine C.twice.forall_after_iff_forall_guard (J := C.Known)
    (P := fun s => view s.once = view s.again)
    (fun _ _ _ known step => known.deliver step) ?_
    ⟨by simp, fun k seen => absurd seen (blank k), fun k seen => absurd seen (blank k)⟩
      rfl deliveries
  intro s label t known alike step
  have unseen : ∀ {a : σ} {e : ε}, (∀ k, C.seen a k → ∃ f ∈ s.delivered, C.key f = k) →
      (∀ f ∈ s.delivered, C.key f ≠ C.key e) → ¬C.seen a (C.key e) := by
    intro a e before new seen
    obtain ⟨f, hf, same⟩ := before _ seen
    exact new f hf same
  cases label with
  | first e clock =>
    obtain ⟨own, new, once, again, -⟩ := deliver_first step
    exact first_iff own alike (unseen known.once new) (unseen known.again new) once again
  | again index clock =>
    obtain ⟨e, found, handled, once, -⟩ := deliver_again step
    have own := known.own e (List.mem_of_getElem? found)
    simp only [Harmless, found, Option.mem_def, Option.some.injEq, forall_eq']
    rw [once, alike]
    by_cases seen : C.seen s.again (C.key e)
    · have kept : s.again = t.again := Option.some.inj ((C.skips seen).symm.trans handled)
      exact iff_of_true (congrArg view kept) (Or.inl seen)
    · rw [or_iff_right seen, ← again_iff own seen handled]
      exact eq_comm

/-- What a new event does to the one row a consumer keeps: it may bring the row, and it patches the
row there is. -/
structure Patches (C : Consumer σ ε κ) (view : σ → Option V) (seed : ε → Nat → Option V)
    (patch : ε → V → V) : Prop where
  law : ∀ {e clock a a'}, C.own e = true → ¬C.seen a (C.key e) → C.handle e clock a = some a' →
    view a' = ((view a).or (seed e clock)).map (patch e)
  unclocked : ∀ e m n, (seed e m).isSome = (seed e n).isSome

def Stands (view : σ → Option V) (seed : ε → Nat → Option V) (patch : ε → V → V) (e : ε) (s : σ) :
    Prop :=
  match view s with
  | none => seed e 0 = none
  | some v => patch e v = v

theorem patched_iff {view : σ → Option V} {seed : ε → Nat → Option V} {patch : ε → V → V} {e : ε}
    {clock : Nat} {a a' : σ} (unclocked : ∀ m n, (seed e m).isSome = (seed e n).isSome)
    (h : view a' = ((view a).or (seed e clock)).map (patch e)) :
    view a' = view a ↔ Stands view seed patch e a := by
  unfold Stands
  rw [h]
  cases view a with
  | some v => simp
  | none =>
    have same := unclocked clock 0
    cases here : seed e clock <;> cases there : seed e 0 <;> simp [here, there] at same ⊢

theorem Patches.alike_iff {view : σ → Option V} {seed : ε → Nat → Option V} {patch : ε → V → V}
    (h : C.Patches view seed patch) {start : σ} (blank : ∀ k, ¬C.seen start k)
    (deliveries : List (Delivery ε)) :
    C.Alike view start deliveries ↔
      C.Spared (fun _ _ _ => True) (Stands view seed patch) start deliveries := by
  refine alike_iff_harmless ?_ ?_ blank deliveries
  · intro e clock a b a' b' own same newA newB handledA handledB
    exact iff_of_true (by rw [h.law own newA handledA, h.law own newB handledB, same]) trivial
  · intro e clock a a' own new handled
    exact patched_iff (h.unclocked e) (h.law own new handled)

end Consumer

end DreamStudio.Library
