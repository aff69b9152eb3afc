import DreamStudio.Projections.Engine
import Mathlib.Data.List.Sort

namespace DreamStudio.Projections

universe u

variable {σ : Type u} {p : Projection σ} {clock : Nat}

/-- What `handle` makes of a table: the table itself when it raises. -/
def Projection.apply (p : Projection σ) (clock : Nat) (t : σ) (e : Event) : σ :=
  match p.handle e clock t with
  | .ok (_, t') => t'
  | .error _ => t

theorem Projection.apply_ok {t t' : σ} {e : Event} {n : Nat}
    (h : p.handle e clock t = .ok (n, t')) :
    p.apply clock t e = t' := by
  unfold apply
  rw [h]

theorem Projection.apply_error {t : σ} {e : Event} {failure : Failure}
    (h : p.handle e clock t = .error failure) : p.apply clock t e = t := by
  unfold apply
  rw [h]

theorem foldl_replayEvent (events : List Event) (s : σ × Option String) :
    (events.foldl (Authority.replayEvent p (fun _ => none) clock) s).1 =
      events.foldl (p.apply clock) s.1 := by
  induction events generalizing s with
  | nil => rfl
  | cons e events ih =>
    rw [List.foldl_cons, List.foldl_cons, ih]
    congr 1
    unfold Authority.replayEvent Projection.apply
    cases p.handle e clock s.1 <;> rfl

theorem Authority.rebuild_sorted {a : Authority σ} (business : p.sourceCanonical = .business)
    (sorted : (a.events .business).Pairwise fun e f => e.eventTimestamp ≤ f.eventTimestamp) :
    (a.rebuild p (fun _ => none) clock).target =
      ((a.events .business).filter p.consumes).foldl (p.apply clock) (p.preRebuild a.target) := by
  have rows : Authority.allEvents { a with target := p.preRebuild a.target } p .business =
      (a.events .business).filter p.consumes :=
    (List.Pairwise.filter p.consumes sorted).insertionSort_eq
  unfold rebuild
  rw [business]
  change (rebuildSource _ _ _ _ .business).target = _
  unfold rebuildSource replayEvents
  rw [rows, ← foldl_replayEvent (s := (_, none))]
  split
  next replayed => exact (congrArg Prod.fst replayed).symm
  next replayed =>
    refine Eq.trans ?_ (congrArg Prod.fst replayed).symm
    simp only
    split <;> rfl

end DreamStudio.Projections
