import DreamStudio.Library.Machine
import Mathlib.Data.List.Nodup
import Mathlib.Logic.Function.Basic

namespace DreamStudio.Library

universe u v w

/-- Threads over one shared state, each at its own place in its program. -/
@[ext] structure Threads (ι : Type u) (P : Type v) (S : Type w) where
  place : ι → P
  shared : S

namespace Threads

variable {ι : Type u} {P : Type v} {S : Type w}

def serial (op : ι → S → S) (order : List ι) (s : S) : S := order.foldl (fun s i => op i s) s

theorem serial_concat (op : ι → S → S) (order : List ι) (i : ι) (s : S) :
    serial op (order ++ [i]) s = op i (serial op order s) := by
  rw [serial, List.foldl_append]
  rfl

variable [DecidableEq ι]

/-- One step of thread `i`, all others stand still. -/
def move (advance : ι → P → S → Option (P × S)) (c : Threads ι P S) (i : ι) :
    Option (Threads ι P S) :=
  (advance i (c.place i) c.shared).map fun next => ⟨Function.update c.place i next.1, next.2⟩

def interleaving (advance : ι → P → S → Option (P × S)) : Machine (Threads ι P S) ι where
  step := move advance

theorem move_eq_some {advance : ι → P → S → Option (P × S)} {c d : Threads ι P S} {i : ι}
    (step : move advance c i = some d) :
    ∃ p s, advance i (c.place i) c.shared = some (p, s) ∧ d = ⟨Function.update c.place i p, s⟩ := by
  obtain ⟨⟨p, s⟩, here, rfl⟩ := Option.map_eq_some_iff.mp step
  exact ⟨p, s, here, rfl⟩

/-- What linearising one step asks: it either is not the point where its operation takes effect, and
then the serial state stays, or it is, and then the serial state makes the whole operation. -/
def Linear (op : ι → S → S) (took : ι → P → Prop) (Sim : Threads ι P S → S → Prop) (i : ι)
    (c d : Threads ι P S) (s : S) : Prop :=
  ((took i (d.place i) ↔ took i (c.place i)) ∧ Sim d s) ∨
    (¬took i (c.place i) ∧ took i (d.place i) ∧ Sim d (op i s))

variable {advance : ι → P → S → Option (P × S)} (op : ι → S → S) (took : ι → P → Prop)
  (Sim : Threads ι P S → S → Prop) (G : Threads ι P S → ι → Prop)

theorem exists_serial
    (linear : ∀ c i d s, Sim c s → G c i → move advance c i = some d → Linear op took Sim i c d s)
    {c d : Threads ι P S} {steps : List ι} (fresh : ∀ i, ¬took i (c.place i)) {s : S}
    (start : Sim c s) (reach : (interleaving advance).run c steps = some d)
    (guard : ∀ x ∈ (interleaving advance).transitions c steps, G x.before x.label) :
    ∃ order : List ι, order.Nodup ∧ (∀ i, i ∈ order ↔ took i (d.place i)) ∧
      Sim d (serial op order s) := by
  let J (e : Threads ι P S) : Prop :=
    ∃ order : List ι, order.Nodup ∧ (∀ i, i ∈ order ↔ took i (e.place i)) ∧
      Sim e (serial op order s)
  have step (e : Threads ι P S) (i : ι) (f : Threads ι P S) (before : J e) (ok : G e i)
      (moved : (interleaving advance).step e i = some f) : J f := by
    obtain ⟨order, nodup, members, sim⟩ := before
    obtain ⟨p, t, -, rfl⟩ := move_eq_some moved
    have others (j : ι) (other : j ≠ i) :
        Function.update e.place i p j = e.place j := Function.update_of_ne other _ _
    rcases linear e i _ _ sim ok moved with ⟨same, sim'⟩ | ⟨before, after, sim'⟩
    · refine ⟨order, nodup, fun j => ?_, sim'⟩
      by_cases here : j = i
      · subst here
        exact (members j).trans same.symm
      · rw [members j]
        exact iff_of_eq (congrArg (took j) (others j here).symm)
    · have absent : i ∉ order := fun member => before ((members i).mp member)
      refine ⟨order ++ [i], nodup.append (List.nodup_singleton i) ?_, fun j => ?_, ?_⟩
      · exact List.disjoint_singleton.mpr absent
      · rw [List.mem_append, List.mem_singleton]
        by_cases here : j = i
        · subst here
          exact iff_of_true (.inr rfl) after
        · rw [members j, or_iff_left here]
          exact iff_of_eq (congrArg (took j) (others j here).symm)
      · rw [serial_concat]
        exact sim'
  have none_yet :
      J c := ⟨[], List.nodup_nil, fun i => iff_of_false (List.not_mem_nil) (fresh i), start⟩
  exact (interleaving advance).run_invariant_of_guarded (J := J) (G := fun c i _ => G c i) step
    none_yet guard reach

end Threads

end DreamStudio.Library
