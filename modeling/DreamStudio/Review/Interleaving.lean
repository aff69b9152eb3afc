import DreamStudio.Review.Trail
import Mathlib.Data.List.Perm.Subperm

namespace DreamStudio.Review

open Library

structure Flight where
  call : Call
  prepared : Prepared

inductive Move
  | dispatch (q : Request)
  | enter (c : Call)
  | finish (i : Nat)

/-- `returned` are the submissions of the calls that returned `stored=True`. -/
structure Traffic where
  ledger : Ledger
  flights : List Flight := []
  returned : List (String × Submission) := []

/-- Calls of `record_answers` and `record_dispatch` whose reads and writes interleave. -/
def interleaved (env : Env) : Machine Traffic Move where
  step s
    | .dispatch q =>
      match recordDispatch env s.ledger q with
      | .ok (_, l) => some { s with ledger := l }
      | .error _ => some s
    | .enter c =>
      match prepare env s.ledger c with
      | .ok p => some { s with flights := s.flights ++ [⟨c, p⟩] }
      | .error _ => some s
    | .finish i =>
      match s.flights[i]? with
      | some f =>
        match conclude env s.ledger f.call f.prepared with
        | .ok (_, l) =>
          some {
            ledger := l, flights := s.flights.eraseIdx i
            returned := s.returned ++ (f.prepared.submissions f.call).map (f.call.reviewer, ·) }
        | .error _ => some { s with flights := s.flights.eraseIdx i }
      | none => none

def Traffic.start (project : Option String) : Traffic where
  ledger := { project := project }

def Traffic.returnedTo (s : Traffic) (reviewer : String) : List Submission :=
  (s.returned.filter (·.1 = reviewer)).map (·.2)

/-- Every submission whose call returned is stored, as often as it was submitted. -/
def Kept (s : Traffic) : Prop := ∀ r, (s.returnedTo r).Subperm (s.ledger.history r)

/-- A call that has something to write finds the history it read. -/
def Unraced (s : Traffic) : Move → Prop
  | .finish i => ∀ f, s.flights[i]? = some f → f.prepared.submissions f.call ≠ [] →
      f.call.write = .ok () → s.ledger.history f.call.reviewer = f.prepared.doc
  | _ => True

/-- A copy that is no longer the history is outnumbered by what has returned since. -/
structure Ahead (s : Traffic) : Prop where
  returned : ∀ r, (s.ledger.history r).length ≤ (s.returnedTo r).length
  copies : ∀ f ∈ s.flights, s.ledger.history f.call.reviewer = f.prepared.doc ∨
    f.prepared.doc.length < (s.returnedTo f.call.reviewer).length

section Steps

variable {env : Env} {s t : Traffic}

inductive Traffic.Step (s : Traffic) : Move → Traffic → Prop
  | still {m : Move} {t : Traffic} (histories : t.ledger.docs = s.ledger.docs)
      (returned : t.returned = s.returned) (flights : ∀ f ∈ t.flights, f ∈ s.flights ∨
        f.prepared.doc = s.ledger.history f.call.reviewer)
      (idle : ∀ i f, m = .finish i → s.flights[i]? = some f → f.call.write = .ok () →
        f.prepared.submissions f.call = []) : Traffic.Step s m t
  | wrote {i : Nat} {f : Flight} {x : Submission} (flight : s.flights[i]? = some f)
      (write : f.call.write = .ok ()) (submits : f.prepared.submissions f.call = [x]) :
      Traffic.Step s (.finish i) {
        ledger := s.ledger.write f.call.reviewer (f.prepared.doc ++ [x])
        flights := s.flights.eraseIdx i
        returned := s.returned ++ [(f.call.reviewer, x)] }

theorem conclude_error {l : Ledger} {c : Call} {p : Prepared} {err : String}
    (h : conclude env l c p = .error err) : c.write ≠ .ok () := by
  intro write
  unfold conclude at h
  simp only at h
  split at h
  · cases h
  · rw [write] at h
    cases h

theorem traffic_cases {m : Move} (h : (interleaved env).step s m = some t) :
    Traffic.Step s m t := by
  cases m with
  | dispatch q =>
    refine .still ?_ ?_ ?_ (fun _ _ h => nomatch h)
    all_goals
      simp only [interleaved] at h
      split at h
      next l returned =>
        cases h
        obtain ⟨_, _, -, ⟨_, -, -, -, rfl⟩ | ⟨-, rfl⟩⟩ := recordDispatch_ok returned <;>
          first | rfl | exact fun f hf => Or.inl hf
      next =>
        cases h
        first | rfl | exact fun f hf => Or.inl hf
  | enter c =>
    simp only [interleaved] at h
    split at h
    next p prepared =>
      cases h
      refine .still rfl rfl (fun f hf => ?_) (fun _ _ h => nomatch h)
      rcases List.mem_append.mp hf with hf | hf
      · exact Or.inl hf
      · obtain rfl := List.mem_singleton.mp hf
        exact Or.inr (prepare_ok prepared).copy
    next =>
      cases h
      exact .still rfl rfl (fun f hf => Or.inl hf) (fun _ _ h => nomatch h)
  | finish i =>
    simp only [interleaved] at h
    split at h
    next f flight =>
      have kept : ∀ g ∈ s.flights.eraseIdx i, g ∈ s.flights ∨
          g.prepared.doc = s.ledger.history g.call.reviewer :=
        fun g hg => Or.inl (List.mem_of_mem_eraseIdx hg)
      split at h
      next l concluded =>
        cases h
        rcases conclude_ok concluded with ⟨none, rfl⟩ | ⟨added, write, rfl⟩
        · refine .still rfl (by simp [none]) kept ?_
          rintro _ g ⟨⟩ same -
          cases flight.symm.trans same
          exact none
        · rcases submissions_cases f.prepared f.call with none | one
          · exact absurd none added
          · simpa [one] using Traffic.Step.wrote flight write one
      next err failed =>
        cases h
        refine .still rfl rfl kept ?_
        rintro _ g ⟨⟩ same write
        cases flight.symm.trans same
        exact absurd write (conclude_error failed)
    next => cases h

theorem history_of_docs {l l' : Ledger} (h : l'.docs = l.docs) (r : String) :
    l'.history r = l.history r := by
  rw [Ledger.history, Ledger.history, h]

theorem returnedTo_of_returned (h : t.returned = s.returned) (r : String) :
    t.returnedTo r = s.returnedTo r := by
  rw [Traffic.returnedTo, Traffic.returnedTo, h]

theorem returnedTo_concat (ledger : Ledger) (flights : List Flight) (reviewer : String)
    (x : Submission) (r : String) :
    Traffic.returnedTo ⟨ledger, flights, s.returned ++ [(reviewer, x)]⟩ r =
      if r = reviewer then s.returnedTo reviewer ++ [x] else s.returnedTo r := by
  unfold Traffic.returnedTo
  split
  next same => simp [same]
  next other => simp [Ne.symm other]

theorem ahead_step {m : Move} (ahead : Ahead s) (h : (interleaved env).step s m = some t) :
    Ahead t := by
  cases traffic_cases h with
  | still histories returned flights =>
    constructor
    · intro r
      rw [history_of_docs histories, returnedTo_of_returned returned]
      exact ahead.returned r
    · intro f hf
      rw [history_of_docs histories, returnedTo_of_returned returned]
      rcases flights f hf with older | fresh
      · exact ahead.copies f older
      · exact Or.inl fresh.symm
  | @wrote i f x flight =>
    have bound (g : Flight) (hg : g ∈ s.flights) :
        g.prepared.doc.length ≤ (s.returnedTo g.call.reviewer).length := by
      rcases ahead.copies g hg with same | fewer
      · exact same ▸ ahead.returned _
      · exact fewer.le
    have here := bound f (List.mem_of_getElem? flight)
    constructor
    · intro r
      rw [history_write, returnedTo_concat]
      split
      · simpa using here
      · exact ahead.returned r
    · intro g hg
      have older := List.mem_of_mem_eraseIdx hg
      rw [history_write, returnedTo_concat]
      split
      next same =>
        have fewer := bound g older
        rw [same] at fewer
        exact Or.inr (by simpa using Nat.lt_succ_of_le fewer)
      next => exact ahead.copies g older

theorem kept_step {m : Move} (ahead : Ahead s) (kept : Kept s)
    (h : (interleaved env).step s m = some t) : Kept t ↔ Unraced s m := by
  cases traffic_cases h with
  | still histories returned _ idle =>
    refine iff_of_true (fun r => ?_) ?_
    · rw [history_of_docs histories, returnedTo_of_returned returned]
      exact kept r
    · cases m with
      | finish i => exact fun f flight submits write => absurd (idle i f rfl flight write) submits
      | _ => trivial
  | @wrote i f x flight write submits =>
    constructor
    · rintro keeps g same - -
      cases flight.symm.trans same
      have returned := keeps f.call.reviewer
      rw [history_write, if_pos rfl, returnedTo_concat, if_pos rfl, List.subperm_append_right]
        at returned
      refine (ahead.copies f (List.mem_of_getElem? flight)).resolve_right ?_
      exact not_lt.mpr returned.length_le
    · intro unraced r
      have same := unraced f flight (by simp [submits]) write
      rw [history_write, returnedTo_concat]
      split
      · rw [← same, List.subperm_append_right]
        exact kept _
      · exact kept r

end Steps

section Runs

variable (env : Env)

/-- No submission whose call returned is ever overwritten exactly if every call that writes finds
the history it read. -/
theorem kept_iff_forall_unraced (project : Option String) (ms : List Move) :
    (∀ x ∈ (interleaved env).transitions (.start project) ms, Kept x.after) ↔
      ∀ x ∈ (interleaved env).transitions (.start project) ms, Unraced x.before x.label :=
  (interleaved env).forall_after_iff_forall_guard (J := Ahead)
    (fun _ _ _ ahead step => ahead_step ahead step)
    (fun _ _ _ ahead kept step => kept_step ahead kept step)
    ⟨fun _ => le_rfl, fun _ hf => absurd hf List.not_mem_nil⟩ (fun _ => List.Subperm.refl _) ms

def racedRun : List Move :=
  let submit (lane : String) : Move := .enter {
    reviewer := "ada", credential := some "a1/ada", now := ""
    door := sandboxDoor (fun _ _ => { exitCode := some 1 }) fun sha => .ok sha
    answers := [answerOn lane "finding" "pytest" 1] }
  [
    .dispatch {
      sha := "a1", image := "lane:a1", changeSet := .arr [], models := [], token := ("a1/" ++ ·)
      assignments := [{ reviewer := some "ada", seat := none, lanes := ["api", "ui"] }]
      owned := [("ada", ["api", "ui"])], now := "" },
    submit "ui", submit "api", .finish 0, .finish 0]

theorem raced_submission_overwritten :
    ∃ t, (interleaved sampleEnv).run (.start (some "p")) racedRun = some t ∧ ¬Kept t := by
  refine ⟨_, rfl, fun kept => ?_⟩
  exact absurd (kept "ada").length_le (by decide)

end Runs

end DreamStudio.Review
