import DreamStudio.Library.Except
import Mathlib.Data.List.Nodup

namespace DreamStudio.Library

/-- How a projection meets one entity: `table r` holds the row `r` and nothing else, `seen r` are
the ids of the events `r` says it was given. -/
structure Handler (σ ρ ε κ φ : Type) where
  handle : ε → Nat → σ → Except φ (Nat × σ)
  table : ρ → σ
  own : ρ → Prop
  key : ε → κ
  seen : ρ → κ → Prop

/-- A table that is written to directly, the log of the events about it, and those of them it has
not been given. -/
structure Replica (σ ε : Type) where
  live : σ
  log : List ε
  pending : List ε := []

/-- A write and its event. -/
def Replica.record {σ ε : Type} (s : Replica σ ε) (live : σ) (e : ε) : Replica σ ε where
  live := live
  log := s.log ++ [e]
  pending := s.pending ++ [e]

namespace Handler

variable {σ ρ ε κ φ γ : Type} (H : Handler σ ρ ε κ φ) (view : ρ → γ)

/-- A pass over a list of events. -/
def project (clock : Nat) (events : List ε) (t : σ) : Except φ σ :=
  events.foldlM (fun t e => (·.2) <$> H.handle e clock t) t

def tick (clock : Nat) (s : Replica σ ε) : Option (Replica σ ε) :=
  match H.project clock s.pending s.live with
  | .ok t => some { s with live := t, pending := [] }
  | .error _ => none

/-- A tick where there is one. -/
def sync (clock : Option Nat) (s : Replica σ ε) : Option (Replica σ ε) :=
  match clock with
  | some clock => H.tick clock s
  | none => some s

/-- An event does `f` to what is seen of a row it is new to. -/
def Acts (e : ε) (f : γ → γ) : Prop :=
  ∀ (clock : Nat) (r : ρ), H.own r → ¬H.seen r (H.key e) →
    ∃ n r', H.handle e clock (H.table r) = .ok (n, H.table r') ∧ view r' = f (view r) ∧ H.own r' ∧
      ∀ k, H.seen r' k → H.seen r k ∨ k = H.key e

def Pends (events : List ε) (f : γ → γ) : Prop :=
  ∀ (clock : Nat) (r : ρ), H.own r → (events.map H.key).Nodup →
    (∀ e ∈ events, ¬H.seen r (H.key e)) →
    ∃ r', H.project clock events (H.table r) = .ok (H.table r') ∧ view r' = f (view r) ∧ H.own r' ∧
      ∀ k, H.seen r' k → H.seen r k ∨ k ∈ events.map H.key

/-- A replica with its live row `r`, the row `q` its log replays to from `start`, and what the
pending events will do to either. -/
structure Tracks (clock : Nat) (start : σ) (s : Replica σ ε) (r q : ρ) (f : γ → γ) : Prop where
  live : s.live = H.table r
  own : H.own r
  known : ∀ k, H.seen r k → ∃ e ∈ s.log, H.key e = k
  fresh : ∀ e ∈ s.pending, ¬H.seen r (H.key e)
  logged : s.pending <:+ s.log
  nodup : (s.log.map H.key).Nodup
  pends : H.Pends view s.pending f
  replay : H.project clock s.log start = .ok (H.table q)
  ownReplay : H.own q
  knownReplay : ∀ k, H.seen q k → ∃ e ∈ s.log, H.key e = k

variable {H view}

theorem project_append (clock : Nat) (events later : List ε) (t : σ) :
    H.project clock (events ++ later) t = H.project clock events t >>= H.project clock later :=
  List.foldlM_append

theorem project_singleton {clock : Nat} {e : ε} {t t' : σ} {n : Nat}
    (h : H.handle e clock t = .ok (n, t')) : H.project clock [e] t = .ok t' := by
  simp only [project, List.foldlM_cons, List.foldlM_nil, h]
  rfl

theorem tick_pending {clock : Nat} {s t : Replica σ ε} (h : H.tick clock s = some t) :
    t.pending = [] ∧ t.log = s.log := by
  unfold tick at h
  split at h
  · cases h
    exact ⟨rfl, rfl⟩
  · cases h

theorem Pends.nil : H.Pends view [] id := fun _ r own _ _ => ⟨r, rfl, rfl, own, fun _ => Or.inl⟩

theorem Pends.append {events : List ε} {e : ε} {f g : γ → γ} (before : H.Pends view events f)
    (acts : H.Acts view e g) : H.Pends view (events ++ [e]) (g ∘ f) := by
  intro clock r own nodup fresh
  rw [List.map_append] at nodup
  obtain ⟨ids, -, apart⟩ := List.nodup_append.mp nodup
  obtain ⟨r₁, projected, view₁, own₁, known₁⟩ := before clock r own ids fun e' he' =>
    fresh e' (List.mem_append_left _ he')
  have new : ¬H.seen r₁ (H.key e) := fun seen => by
    rcases known₁ _ seen with first | among
    · exact fresh e (List.mem_append_right _ List.mem_cons_self) first
    · exact apart _ among _ List.mem_cons_self rfl
  obtain ⟨n, r₂, handled, view₂, own₂, known₂⟩ := acts clock r₁ own₁ new
  refine ⟨r₂, ?_, ?_, own₂, fun k seen => ?_⟩
  · rw [project_append, projected]
    exact project_singleton handled
  · rw [view₂, view₁, Function.comp]
  · rcases known₂ k seen with earlier | rfl
    · exact (known₁ k earlier).imp_right fun among => by simp [among]
    · exact Or.inr (by simp)

namespace Tracks

variable {clock : Nat} {start : σ} {s t : Replica σ ε} {r q : ρ} {f : γ → γ}

theorem tick (h : H.Tracks view clock start s r q f) {pass : Nat}
    (ticked : H.tick pass s = some t) :
    ∃ r', H.Tracks view clock start t r' q id ∧ view r' = f (view r) := by
  have ids : (s.pending.map H.key).Nodup := h.nodup.sublist (h.logged.sublist.map _)
  obtain ⟨r', projected, acted, own, known⟩ := h.pends pass r h.own ids h.fresh
  simp only [Handler.tick, h.live, projected] at ticked
  cases ticked
  refine ⟨r', { h with
    live := rfl, own := own, known := fun k seen => ?_, fresh := fun e he => nomatch he
    logged := List.nil_suffix, pends := .nil }, acted⟩
  rcases known k seen with before | among
  · exact h.known k before
  · obtain ⟨e, he, rfl⟩ := List.mem_map.mp among
    exact ⟨e, h.logged.subset he, rfl⟩

theorem sync (h : H.Tracks view clock start s r q f) {pass : Option Nat}
    (synced : H.sync pass s = some t) :
    ∃ r' f', H.Tracks view clock start t r' q f' ∧
      ((pass = none ∧ r' = r ∧ f' = f) ∨ (pass ≠ none ∧ view r' = f (view r) ∧ f' = id)) := by
  cases pass with
  | none =>
    cases synced
    exact ⟨r, f, h, Or.inl ⟨rfl, rfl, rfl⟩⟩
  | some pass =>
    obtain ⟨r', after, acted⟩ := h.tick synced
    exact ⟨r', id, after, Or.inr ⟨Option.some_ne_none _, acted, rfl⟩⟩

theorem record (h : H.Tracks view clock start s r q f) {r' : ρ} {e : ε} {g : γ → γ}
    (own : H.own r') (seen : ∀ k, H.seen r' k ↔ H.seen r k) (acts : H.Acts view e g)
    (new : ∀ e' ∈ s.log, H.key e' ≠ H.key e) :
    ∃ q', H.Tracks view clock start (s.record (H.table r') e) r' q' (g ∘ f) ∧
      view q' = g (view q) := by
  have unseen : ∀ {r : ρ}, (∀ k, H.seen r k → ∃ e' ∈ s.log, H.key e' = k) → ¬H.seen r (H.key e) :=
    fun known seen => by
      obtain ⟨e', he', same⟩ := known _ seen
      exact new e' he' same
  obtain ⟨n, q', handled, acted, ownReplay, knownReplay⟩ :=
    acts clock q h.ownReplay (unseen h.knownReplay)
  refine ⟨q', {
    live := rfl, own := own, known := fun k hk => ?_, fresh := fun e' he' => ?_
    logged := ?_, nodup := ?_, pends := h.pends.append acts, replay := ?_, ownReplay := ownReplay
    knownReplay := fun k hk => ?_ }, acted⟩
  · obtain ⟨e', he', same⟩ := h.known k ((seen k).mp hk)
    exact ⟨e', List.mem_append_left _ he', same⟩
  · rw [seen]
    rcases List.mem_append.mp he' with before | here
    · exact h.fresh e' before
    · obtain rfl := List.mem_singleton.mp here
      exact unseen h.known
  · obtain ⟨settled, log⟩ := h.logged
    exact ⟨settled, by simp [Replica.record, ← log]⟩
  · simp only [Replica.record, List.map_append, List.map_cons, List.map_nil]
    refine List.nodup_append.mpr ⟨h.nodup, List.nodup_singleton _, ?_⟩
    rintro _ among _ here rfl
    obtain ⟨e', he', same⟩ := List.mem_map.mp among
    exact new e' he' (same.trans (List.mem_singleton.mp here))
  · rw [Replica.record, project_append, h.replay]
    exact project_singleton handled
  · rcases knownReplay k hk with before | rfl
    · obtain ⟨e', he', same⟩ := h.knownReplay k before
      exact ⟨e', List.mem_append_left _ he', same⟩
    · exact ⟨e, List.mem_append_right _ List.mem_cons_self, rfl⟩

end Tracks

end Handler

end DreamStudio.Library
