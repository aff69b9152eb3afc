import DreamStudio.Library.Acyclic
import Mathlib.Data.List.Count
import Mathlib.Data.List.Perm.Subperm

namespace DreamStudio.Library.Kahn

universe u

variable {α : Type u} [DecidableEq α] (edges : List (α × α))

/-- The ends of the edges from a node, one for each edge. -/
def targets (x : α) : List α := (edges.filter (·.1 = x)).map (·.2)

/-- The edges into a node from what is not in a list. -/
def pending (done : List α) (x : α) : Nat := edges.countP fun e => e.2 = x ∧ e.1 ∉ done

structure State (α : Type u) where
  queue : List α
  degree : α → Int
  visited : Nat

def release (s : State α) (y : α) : State α :=
  { s with
    degree := Function.update s.degree y (s.degree y - 1)
    queue := if s.degree y - 1 = 0 then s.queue ++ [y] else s.queue }

def start (ids : List α) : State α where
  queue := ids.filter fun x => pending edges [] x = 0
  degree x := pending edges [] x
  visited := 0

def visit (s : State α) (x : α) (rest : List α) : State α :=
  (targets edges x).foldl release { s with queue := rest, visited := s.visited + 1 }

/-- The loop, for so many rounds. -/
def run : Nat → State α → State α
  | 0, s => s
  | n + 1, s =>
    match s.queue with
    | [] => s
    | x :: rest => run n (visit edges s x rest)

variable {edges}

def Ordered (edges : List (α × α)) (done : List α) : Prop :=
  ∀ before x after, done = before ++ x :: after → ∀ e ∈ edges, e.2 = x → e.1 ∈ before

omit [DecidableEq α] in
theorem Ordered.append {done : List α} {x : α} (ordered : Ordered edges done)
    (ready : ∀ e ∈ edges, e.2 = x → e.1 ∈ done) : Ordered edges (done ++ [x]) := by
  intro before y after split e member into
  rcases List.append_eq_append_iff.mp split with ⟨middle, rfl, here⟩ | ⟨middle, rfl, here⟩
  · cases middle with
    | nil =>
      obtain ⟨rfl, -⟩ := List.cons.inj here
      rw [List.append_nil]
      exact ready e member into
    | cons z middle =>
      obtain ⟨-, none⟩ := List.cons.inj here
      simp at none
  · cases middle with
    | nil =>
      obtain ⟨rfl, -⟩ := List.cons.inj here
      simpa using ready e member into
    | cons z middle =>
      obtain ⟨rfl, rfl⟩ := List.cons.inj here
      exact ordered before y middle rfl e member into

/-- The nodes visited so far, and the count of the edges into each node that are left, of which some
are about to be released. -/
structure Sound (edges : List (α × α)) (ids done releasing : List α) (s : State α) : Prop where
  count : s.visited = done.length
  nodup : (done ++ s.queue).Nodup
  mem : ∀ x ∈ done ++ s.queue, x ∈ ids
  degree : ∀ x, s.degree x = pending edges done x + releasing.count x
  zero : ∀ x ∈ ids, x ∈ done ++ s.queue ↔ s.degree x = 0
  ordered : Ordered edges done

theorem start_sound {ids : List α} (nodup : ids.Nodup) :
    Sound edges ids [] [] (start edges ids) where
  count := rfl
  nodup := nodup.filter _
  mem := fun _ member => List.mem_of_mem_filter member
  degree := fun x => by simp [start]
  zero := fun x member => by simp [start, member]
  ordered := fun before x after split => by simp at split

theorem release_sound {ids done releasing : List α} {s : State α} {y : α} (inside : y ∈ ids)
    (h : Sound edges ids done (y :: releasing) s) :
    Sound edges ids done releasing (release s y) := by
  have before : s.degree y = pending edges done y + releasing.count y + 1 := by
    rw [h.degree y, List.count_cons_self]
    push_cast
    omega
  have waiting : y ∉ done ++ s.queue := fun member => by
    have := (h.zero y inside).mp member
    omega
  have after : s.degree y - 1 = pending edges done y + releasing.count y := by omega
  constructor
  · exact h.count
  · unfold release
    split
    · rw [← List.append_assoc]
      exact List.nodup_append.mpr ⟨h.nodup, List.nodup_singleton y, by
        rintro a member b same rfl
        exact waiting (List.mem_singleton.mp same ▸ member)⟩
    · exact h.nodup
  · intro x member
    unfold release at member
    split at member
    · rw [← List.append_assoc, List.mem_append, List.mem_singleton] at member
      rcases member with member | rfl
      · exact h.mem x member
      · exact inside
    · exact h.mem x member
  · intro x
    change Function.update s.degree y (s.degree y - 1) x = _
    by_cases same : x = y
    · rw [same, Function.update_self, after]
    · rw [Function.update_of_ne same, h.degree x, List.count_cons_of_ne (Ne.symm same)]
  · intro x member
    change x ∈ done ++ (if s.degree y - 1 = 0 then s.queue ++ [y] else s.queue) ↔
      Function.update s.degree y (s.degree y - 1) x = 0
    by_cases same : x = y
    · subst same
      rw [Function.update_self]
      split
      next none => simp [none]
      next some => simp only [waiting, some]
    · rw [Function.update_of_ne same, ← h.zero x member]
      split
      · rw [← List.append_assoc, List.mem_append, List.mem_singleton]
        simp only [same, or_false]
      · rfl
  · exact h.ordered

theorem releases_sound {ids done releasing : List α} {s : State α}
    (inside : ∀ y ∈ releasing, y ∈ ids) (h : Sound edges ids done releasing s) :
    Sound edges ids done [] (releasing.foldl release s) := by
  induction releasing generalizing s with
  | nil => exact h
  | cons y releasing ih =>
    obtain ⟨here, rest⟩ := List.forall_mem_cons.mp inside
    exact ih rest (release_sound here h)

theorem pending_append {done : List α} {x : α} (new : x ∉ done) (y : α) :
    pending edges done y = pending edges (done ++ [x]) y + (targets edges x).count y := by
  unfold pending targets
  induction edges with
  | nil => rfl
  | cons e edges ih =>
    rw [List.countP_cons, List.countP_cons, List.filter_cons, ih]
    by_cases from_ : e.1 = x <;> by_cases into : e.2 = y
    · subst from_ into
      simp [new]
      omega
    · simp [from_, into]
    · by_cases old : e.1 ∈ done <;> simp [from_, into, old]
      omega
    · simp [from_, into]

theorem visit_sound {ids done rest : List α} {s : State α} {x : α} (closed : ∀ e ∈ edges, e.2 ∈ ids)
    (queue : s.queue = x :: rest) (h : Sound edges ids done [] s) :
    Sound edges ids (done ++ [x]) [] (visit edges s x rest) := by
  have queued : x ∈ done ++ s.queue := by simp [queue]
  have nodup : (done ++ x :: rest).Nodup := queue ▸ h.nodup
  have new : x ∉ done := fun member =>
    List.disjoint_of_nodup_append nodup member List.mem_cons_self
  have same : done ++ [x] ++ rest = done ++ s.queue := by simp [queue]
  unfold visit
  apply releases_sound
  · intro y member
    obtain ⟨e, he, rfl⟩ := List.mem_map.mp member
    exact closed e (List.mem_of_mem_filter he)
  · constructor
    · simp [h.count]
    · exact same ▸ h.nodup
    · exact same ▸ h.mem
    · intro y
      change s.degree y = _
      rw [h.degree y, pending_append new y]
      simp
    · intro y member
      change y ∈ done ++ [x] ++ rest ↔ s.degree y = 0
      rw [same]
      exact h.zero y member
    · apply h.ordered.append
      intro e member into
      have zero := (h.zero x (h.mem x queued)).mp queued
      rw [h.degree x, List.count_nil] at zero
      have none : pending edges done x = 0 := by omega
      have := List.countP_eq_zero.mp none e member
      simpa [into] using this

theorem run_sound {ids : List α} (closed : ∀ e ∈ edges, e.2 ∈ ids) (n : Nat) {done : List α}
    {s : State α}
    (h : Sound edges ids done [] s) :
    ∃ done', Sound edges ids done' [] (run edges n s) ∧
      ((run edges n s).queue = [] ∨ done'.length = done.length + n) := by
  induction n generalizing done s with
  | zero => exact ⟨done, h, Or.inr rfl⟩
  | succ n ih =>
    unfold run
    split
    next none => exact ⟨done, h, Or.inl none⟩
    next x rest queue =>
      obtain ⟨done', sound, ended⟩ := ih (visit_sound closed queue h)
      refine ⟨done', sound, ended.imp_right fun length => ?_⟩
      rw [length, List.length_append, List.length_singleton]
      omega

theorem run_settles {ids : List α} (nodup : ids.Nodup) (closed : ∀ e ∈ edges, e.2 ∈ ids) :
    ∃ done, Sound edges ids done [] (run edges ids.length (start edges ids)) ∧
      (run edges ids.length (start edges ids)).queue = [] := by
  obtain ⟨done, sound, ended⟩ := run_sound closed ids.length (start_sound nodup)
  refine ⟨done, sound, ended.elim id fun length => ?_⟩
  have fits := (sound.nodup.subperm sound.mem).length_le
  rw [List.length_append, length, List.length_nil, Nat.zero_add] at fits
  exact List.eq_nil_of_length_eq_zero (by omega)

theorem acyclic_of_visited {ids : List α} (nodup : ids.Nodup) (closed : ∀ e ∈ edges, e.2 ∈ ids)
    (all : ids.length ≤ (run edges ids.length (start edges ids)).visited) :
    Acyclic fun x y => (y, x) ∈ edges := by
  obtain ⟨done, sound, settled⟩ := run_settles nodup closed
  have unique : done.Nodup := (List.nodup_append.mp sound.nodup).1
  have sub : done ⊆ ids := fun x member => sound.mem x (List.mem_append_left _ member)
  have perm : done.Perm ids := (unique.subperm sub).perm_of_length_le (sound.count ▸ all)
  have falls : ∀ x y, (y, x) ∈ edges → done.idxOf y < done.idxOf x := fun x y edge => by
    obtain ⟨before, after, split⟩ := List.append_of_mem (perm.mem_iff.mpr (closed _ edge))
    have earlier : y ∈ before := sound.ordered before x after split _ edge rfl
    have first : x ∉ before := fun member => by
      rw [split] at unique
      exact List.disjoint_of_nodup_append unique member List.mem_cons_self
    rw [split, List.idxOf_append_of_mem earlier, List.idxOf_append_of_notMem first]
    have := List.idxOf_lt_length_of_mem earlier
    omega
  have rank : ∀ {x y}, Relation.TransGen (fun x y => (y, x) ∈ edges) x y →
      done.idxOf y < done.idxOf x := fun path => by
    induction path with
    | single edge => exact falls _ _ edge
    | tail _ edge ih => exact (falls _ _ edge).trans ih
  exact fun x loop => absurd (rank loop) (lt_irrefl _)

theorem visited_of_acyclic {ids : List α} (nodup : ids.Nodup)
    (closed : ∀ e ∈ edges, e.1 ∈ ids ∧ e.2 ∈ ids) (acyclic : Acyclic fun x y => (y, x) ∈ edges) :
    ids.length ≤ (run edges ids.length (start edges ids)).visited := by
  obtain ⟨done, sound, settled⟩ := run_settles nodup fun e member => (closed e member).2
  have all : ids ⊆ done := by
    intro x member
    by_contra left
    have nonempty : ids.filter (· ∉ done) ≠ [] :=
      List.ne_nil_of_mem (List.mem_filter.mpr ⟨member, decide_eq_true left⟩)
    obtain ⟨y, held, last⟩ := acyclic.exists_terminal nonempty
    obtain ⟨inside, unvisited⟩ := List.mem_filter.mp held
    have waits : (run edges ids.length (start edges ids)).degree y ≠ 0 := by
      apply mt (sound.zero y inside).mpr
      rw [settled, List.append_nil]
      exact of_decide_eq_true unvisited
    rw [sound.degree, List.count_nil] at waits
    have some_ : 0 < pending edges done y := by omega
    obtain ⟨e, edge, into⟩ := List.countP_pos_iff.mp some_
    obtain ⟨rfl, open_⟩ := of_decide_eq_true into
    exact last e.1 (List.mem_filter.mpr ⟨(closed e edge).1, decide_eq_true open_⟩) edge
  rw [sound.count]
  exact (nodup.subperm all).length_le

end DreamStudio.Library.Kahn
