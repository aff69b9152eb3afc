import Mathlib.Data.List.Basic

namespace DreamStudio.Library

universe u v

variable {α : Type u} {σ τ ε δ : Type v}

/-- What a loop comes to that may return early, and returns what it otherwise ends with. -/
def ended : Except σ σ → σ
  | .ok s => s
  | .error s => s

/-- Two computations go on in related states, or both return, with related answers. -/
inductive Related (R : σ → τ → Prop) (Q : ε → δ → Prop) : Except ε σ → Except δ τ → Prop
  | ok {s : σ} {t : τ} (onward : R s t) : Related R Q (.ok s) (.ok t)
  | error {e : ε} {d : δ} (out : Q e d) : Related R Q (.error e) (.error d)

theorem Related.foldlM {R : σ → τ → Prop} {Q : ε → δ → Prop} {f : σ → α → Except ε σ}
    {g : τ → α → Except δ τ} {xs : List α}
    (step : ∀ x ∈ xs, ∀ s t, R s t → Related R Q (f s x) (g t x)) {s : σ} {t : τ} (start : R s t) :
    Related R Q (xs.foldlM f s) (xs.foldlM g t) := by
  induction xs generalizing s t with
  | nil => exact .ok start
  | cons x xs ih =>
    rw [List.foldlM_cons, List.foldlM_cons]
    have here := step x List.mem_cons_self s t start
    generalize f s x = one at here
    generalize g t x = other at here
    cases here with
    | ok onward => exact ih (fun y mem => step y (List.mem_cons_of_mem x mem)) onward
    | error out => exact .error out

theorem Related.ended {R : σ → τ → Prop} {x : Except σ σ} {y : Except τ τ}
    (related : Related R R x y) :
    R (ended x) (ended y) := by
  cases related with
  | ok onward => exact onward
  | error out => exact out

theorem foldlM_of_stops {f : σ → α → Except ε σ} {stops : α → Bool} {go : σ → α → σ}
    {out : σ → α → ε} (on : ∀ s x, stops x = false → f s x = .ok (go s x))
    (off : ∀ s x, stops x = true → f s x = .error (out s x)) (xs : List α) (s : σ) :
    xs.foldlM f s = (xs.find? stops).elim (.ok (xs.foldl go s))
      fun x => .error (out ((xs.takeWhile (!stops ·)).foldl go s) x) := by
  induction xs generalizing s with
  | nil => rfl
  | cons x xs ih =>
    rw [List.foldlM_cons, List.find?_cons, List.takeWhile_cons]
    cases stop : stops x with
    | true =>
      rw [off s x stop]
      rfl
    | false =>
      rw [on s x stop]
      exact ih (go s x)

end DreamStudio.Library
