import DreamStudio.Library.Find

namespace DreamStudio.Library

universe u

variable {α : Type u}

/-- The marks that enclose a reference, each doubled; no reference reaches over a stop. -/
structure Marks (α : Type u) where
  opener : α
  closer : α
  stops : α → Bool
  opener_stays : stops opener = false
  closer_stays : stops closer = false

inductive Piece (α : Type u)
  | lit (c : α)
  | ref (r : List α)
  deriving DecidableEq

namespace Marks

variable [DecidableEq α] (m : Marks α)

section Read

def inner : List α → Option (List α)
  | [] => none
  | c :: s =>
    if m.stops c then none
    else if [m.closer, m.closer].isPrefixOf s then some [c]
    else (inner s).map (c :: ·)

def refAt : List α → Option (List α)
  | c :: d :: s => if c = m.opener ∧ d = m.opener then m.inner s else none
  | _ => none

/-- A text cut from left to right; `n` elements are passed first. -/
def pieces : Nat → List α → List (Piece α)
  | _, [] => []
  | n + 1, _ :: s => pieces n s
  | 0, c :: s =>
    match m.refAt (c :: s) with
    | some r => .ref r :: pieces (r.length + 3) s
    | none => .lit c :: pieces 0 s

def text : Piece α → List α
  | .lit c => [c]
  | .ref r => m.opener :: m.opener :: (r ++ [m.closer, m.closer])

def render (ps : List (Piece α)) : List α := ps.flatMap m.text

/-- The references that `f` knows are replaced, the others stay. -/
def fill (f : List α → Option (List α)) (ps : List (Piece α)) : List (Piece α) :=
  ps.flatMap fun
    | .lit c => [.lit c]
    | .ref r => (f r).elim [.ref r] (·.map .lit)

/-- Every reference of the text replaced at once. -/
def substitute (f : List α → Option (List α)) (s : List α) : List α :=
  m.render (fill f (m.pieces 0 s))

end Read

variable {m} {c : α} {r s t : List α} {p : Piece α} {ps qs : List (Piece α)}
  {f : List α → Option (List α)}

section Equations

omit [DecidableEq α] in
@[simp] theorem render_nil : m.render [] = [] := rfl

omit [DecidableEq α] in
@[simp] theorem render_cons : m.render (p :: ps) = m.text p ++ m.render ps := List.flatMap_cons

omit [DecidableEq α] in
@[simp] theorem render_append : m.render (ps ++ qs) = m.render ps ++ m.render qs :=
  List.flatMap_append

omit [DecidableEq α] in
theorem render_map_lit (cs : List α) : m.render (cs.map .lit) = cs := by
  induction cs with
  | nil => rfl
  | cons c cs ih => rw [List.map_cons, render_cons, ih]; rfl

omit [DecidableEq α] in
theorem fill_lit : fill f (.lit c :: ps) = .lit c :: fill f ps := rfl

omit [DecidableEq α] in
theorem fill_ref : fill f (.ref r :: ps) = (f r).elim [.ref r] (·.map .lit) ++ fill f ps := rfl

theorem pieces_skip (n : Nat) (s : List α) : m.pieces n s = m.pieces 0 (s.drop n) := by
  induction n generalizing s with
  | zero => rfl
  | succ n ih =>
    cases s with
    | nil => rfl
    | cons c s => exact ih s

theorem pieces_of_ref (found : m.refAt (c :: s) = some r) :
    m.pieces 0 (c :: s) = .ref r :: m.pieces 0 (s.drop (r.length + 3)) := by
  rw [pieces, found, ← pieces_skip]

theorem pieces_of_lit (none : m.refAt (c :: s) = none) :
    m.pieces 0 (c :: s) = .lit c :: m.pieces 0 s := by
  rw [pieces, none]

end Equations

section Inner

theorem inner_of_stops (stops : m.stops c = true) : m.inner (c :: s) = none := if_pos stops

theorem inner_of_closed (stays : m.stops c = false) (closed : [m.closer, m.closer] <+: s) :
    m.inner (c :: s) = some [c] := by
  rw [inner, if_neg (by simp [stays]), if_pos (List.isPrefixOf_iff_prefix.mpr closed)]

theorem inner_of_open (stays : m.stops c = false) (opens : ¬[m.closer, m.closer] <+: s) :
    m.inner (c :: s) = (m.inner s).map (c :: ·) := by
  rw [inner, if_neg (by simp [stays]), if_neg (by rwa [List.isPrefixOf_iff_prefix])]

theorem exists_of_inner (found : m.inner (c :: s) = some r) :
    m.stops c = false ∧
      (([m.closer, m.closer] <+: s ∧ r = [c]) ∨
        (¬[m.closer, m.closer] <+: s ∧ ∃ r', m.inner s = some r' ∧ r = c :: r')) := by
  cases stops : m.stops c with
  | true =>
    rw [inner_of_stops stops] at found
    cases found
  | false =>
    refine ⟨rfl, ?_⟩
    by_cases closed : [m.closer, m.closer] <+: s
    · rw [inner_of_closed stops closed] at found
      exact .inl ⟨closed, (Option.some.inj found).symm⟩
    · rw [inner_of_open stops closed, Option.map_eq_some_iff] at found
      obtain ⟨r', found, same⟩ := found
      exact .inr ⟨closed, r', found, same.symm⟩

theorem not_inner_closers : m.inner [m.closer, m.closer] ≠ some r := by
  intro found
  obtain ⟨-, ⟨closed, -⟩ | ⟨-, r', found, -⟩⟩ := exists_of_inner found
  · exact absurd closed.length_le (by simp)
  · obtain ⟨-, ⟨closed, -⟩ | ⟨-, r'', found, -⟩⟩ := exists_of_inner found
    · exact absurd closed.length_le (by simp)
    · cases found

theorem inner_append_closers (found : m.inner s = some r) :
    m.inner (r ++ [m.closer, m.closer]) = some r ∧ r ++ [m.closer, m.closer] <+: s := by
  induction s generalizing r with
  | nil => cases found
  | cons c s ih =>
    obtain ⟨stays, ⟨closed, rfl⟩ | ⟨opens, r', rest, rfl⟩⟩ := exists_of_inner found
    · exact ⟨inner_of_closed stays List.prefix_rfl, List.cons_prefix_cons.mpr ⟨rfl, closed⟩⟩
    · obtain ⟨own, within⟩ := ih rest
      refine ⟨?_, List.cons_prefix_cons.mpr ⟨rfl, within⟩⟩
      rw [List.cons_append, inner_of_open stays fun closed => opens (closed.trans within), own]
      rfl

theorem inner_of_prefix (own : m.inner (r ++ [m.closer, m.closer]) = some r)
    (within : r ++ [m.closer, m.closer] <+: s) : m.inner s = some r := by
  induction r generalizing s with
  | nil => exact absurd own not_inner_closers
  | cons c r ih =>
    cases s with
    | nil => exact absurd (List.prefix_nil.mp within) (by simp)
    | cons d s =>
      obtain ⟨rfl, behind⟩ := List.cons_prefix_cons.mp within
      obtain ⟨stays, ⟨closed, alone⟩ | ⟨opens, r', rest, same⟩⟩ := exists_of_inner own
      · rw [alone]
        exact inner_of_closed stays (closed.trans behind)
      · cases same
        rw [inner_of_open stays, ih rest behind]
        · rfl
        · intro closed
          exact opens (List.prefix_of_prefix_length_le closed behind (by simp))

theorem isSome_inner (clear : ∀ c ∈ s, m.stops c = false) (filled : s ≠ []) (t : List α) :
    (m.inner (s ++ m.closer :: m.closer :: t)).isSome := by
  induction s with
  | nil => exact absurd rfl filled
  | cons c s ih =>
    rw [List.forall_mem_cons] at clear
    by_cases closed : [m.closer, m.closer] <+: s ++ m.closer :: m.closer :: t
    · rw [List.cons_append, inner_of_closed clear.1 closed]
      rfl
    · rw [List.cons_append, inner_of_open clear.1 closed, Option.isSome_map]
      apply ih clear.2
      rintro rfl
      exact closed ⟨t, rfl⟩

theorem inner_append_stop (stops : m.stops c = true) (s t : List α) :
    m.inner (s ++ c :: t) = m.inner (s ++ [c]) := by
  induction s with
  | nil => rw [List.nil_append, List.nil_append, inner_of_stops stops, inner_of_stops stops]
  | cons d s ih =>
    have apart : c ∉ [m.closer, m.closer] := by
      intro inside
      have same : c = m.closer := by simpa using inside
      rw [same, m.closer_stays] at stops
      cases stops
    have reach (t : List α) :
        [m.closer, m.closer] <+: s ++ c :: t ↔ [m.closer, m.closer] <+: s :=
      prefix_append_iff fun x first => Option.some.inj first ▸ apart
    simp only [List.cons_append, inner, List.isPrefixOf_iff_prefix, reach, ih]

end Inner

section Settled

/-- Nothing that stands alone starts a reference, and each reference ends at its own marks. -/
def Settled : List (Piece α) → Prop
  | [] => True
  | .lit c :: ps => m.refAt (c :: m.render ps) = none ∧ Settled ps
  | .ref r :: ps => m.inner (r ++ [m.closer, m.closer]) = some r ∧ Settled ps

theorem refAt_ref (own : m.inner (r ++ [m.closer, m.closer]) = some r) (s : List α) :
    m.refAt (m.text (.ref r) ++ s) = some r := by
  rw [text, List.cons_append, List.cons_append, refAt, if_pos ⟨rfl, rfl⟩]
  exact inner_of_prefix own (List.prefix_append _ s)

theorem exists_of_refAt (found : m.refAt s = some r) :
    m.inner (r ++ [m.closer, m.closer]) = some r ∧ ∃ t, s = m.text (.ref r) ++ t := by
  cases s with
  | nil => cases found
  | cons c s =>
    cases s with
    | nil => cases found
    | cons d s =>
      rw [refAt] at found
      split at found
      next marks =>
        obtain ⟨own, t, rfl⟩ := inner_append_closers found
        obtain ⟨rfl, rfl⟩ := marks
        exact ⟨own, t, by simp [text]⟩
      next => cases found

theorem settled_pieces (s : List α) : m.Settled (m.pieces 0 s) ∧ m.render (m.pieces 0 s) = s := by
  induction h : s.length using Nat.strongRecOn generalizing s with
  | ind n ih =>
    cases s with
    | nil => exact ⟨trivial, rfl⟩
    | cons c s =>
      subst h
      cases found : m.refAt (c :: s) with
      | none =>
        obtain ⟨settled, whole⟩ := ih _ (Nat.lt_succ_self _) s rfl
        rw [pieces_of_lit found]
        refine ⟨⟨?_, settled⟩, ?_⟩
        · rw [whole, found]
        · rw [render_cons, whole]
          rfl
      | some r =>
        obtain ⟨own, t, split⟩ := exists_of_refAt found
        have rest : s.drop (r.length + 3) = t := by
          have past := congrArg (List.drop (r.length + 4)) split
          simpa [text] using past
        have shorter : t.length < (c :: s).length := by
          rw [← rest, List.length_drop, List.length_cons]
          omega
        obtain ⟨settled, whole⟩ := ih _ shorter t rfl
        rw [pieces_of_ref found, rest, split]
        exact ⟨⟨own, settled⟩, by rw [render_cons, whole]⟩

theorem pieces_render (settled : m.Settled ps) : m.pieces 0 (m.render ps) = ps := by
  induction ps with
  | nil => rfl
  | cons p ps ih =>
    cases p with
    | lit c =>
      obtain ⟨here, settled⟩ := settled
      exact (pieces_of_lit here).trans (congrArg _ (ih settled))
    | ref r =>
      obtain ⟨own, settled⟩ := settled
      have found := refAt_ref own (m.render ps)
      rw [text, List.cons_append] at found
      rw [render_cons, text, List.cons_append, pieces_of_ref found]
      have rest : (m.opener :: (r ++ [m.closer, m.closer]) ++ m.render ps).drop (r.length + 3) =
          m.render ps := by
        simp
      rw [rest, ih settled]

end Settled

section Fill

omit [DecidableEq α] in
theorem fill_append : fill f (ps ++ qs) = fill f ps ++ fill f qs := List.flatMap_append

omit [DecidableEq α] in
theorem fill_map_lit (cs : List α) : fill f (cs.map .lit) = cs.map .lit := by
  induction cs with
  | nil => rfl
  | cons c cs ih => rw [List.map_cons, fill_lit, ih]

omit [DecidableEq α] in
theorem fill_fill (f g : List α → Option (List α)) (ps : List (Piece α)) :
    fill g (fill f ps) = fill (fun r => (f r).or (g r)) ps := by
  induction ps with
  | nil => rfl
  | cons p ps ih =>
    cases p with
    | lit c => rw [fill_lit, fill_lit, fill_lit, ih]
    | ref r =>
      rw [fill_ref, fill_ref, fill_append, ih]
      congr 1
      cases f r with
      | none => exact List.append_nil _
      | some v => exact fill_map_lit v

theorem clear_of_inner (found : m.inner s = some r) : ∀ c ∈ r, m.stops c = false := by
  induction s generalizing r with
  | nil => cases found
  | cons c s ih =>
    obtain ⟨stays, ⟨-, rfl⟩ | ⟨-, r', rest, rfl⟩⟩ := exists_of_inner found
    · exact List.forall_mem_singleton.mpr stays
    · exact List.forall_mem_cons.mpr ⟨stays, ih rest⟩

theorem ne_nil_of_inner (found : m.inner s = some r) : r ≠ [] := by
  cases s with
  | nil => cases found
  | cons c s =>
    obtain ⟨-, ⟨-, rfl⟩ | ⟨-, r', -, rfl⟩⟩ := exists_of_inner found
    · exact List.cons_ne_nil _ _
    · exact List.cons_ne_nil _ _

theorem inner_ne_none {front : List α} (clear : ∀ c ∈ front, m.stops c = false)
    (own : m.inner (r ++ [m.closer, m.closer]) = some r) (s : List α) :
    m.inner (front ++ r ++ m.closer :: m.closer :: s) ≠ none := by
  apply Option.ne_none_iff_isSome.mpr
  apply isSome_inner
  · intro c member
    exact (List.mem_append.mp member).elim (clear c) (clear_of_inner own c)
  · exact List.append_ne_nil_of_right_ne_nil front (ne_nil_of_inner own)

theorem exists_lits (settled : m.Settled ps) (unread : m.inner (m.render ps) = none) :
    ∃ (cs : List α) (qs : List (Piece α)), ps = cs.map .lit ++ qs ∧
      (qs = [] ∨ ∃ c qs', qs = .lit c :: qs' ∧ m.stops c = true) := by
  induction ps with
  | nil => exact ⟨[], [], rfl, .inl rfl⟩
  | cons p ps ih =>
    cases p with
    | ref r =>
      have clear : ∀ c ∈ [m.opener, m.opener], m.stops c = false := by simp [m.opener_stays]
      have read := inner_ne_none clear settled.1 (m.render ps)
      exact absurd (by simpa [text] using unread) read
    | lit c =>
      cases stops : m.stops c with
      | true => exact ⟨[], .lit c :: ps, rfl, .inr ⟨c, ps, rfl, stops⟩⟩
      | false =>
        have opens : ¬[m.closer, m.closer] <+: m.render ps := fun closed =>
          Option.some_ne_none _ ((inner_of_closed stops closed).symm.trans unread)
        have ahead : m.inner (m.render ps) = none :=
          Option.map_eq_none_iff.mp ((inner_of_open stops opens).symm.trans unread)
        obtain ⟨cs, qs, rfl, ends⟩ := ih settled.2 ahead
        exact ⟨c :: cs, qs, rfl, ends⟩

theorem inner_fill (f : List α → Option (List α)) (settled : m.Settled ps)
    (unread : m.inner (m.render ps) = none) : m.inner (m.render (fill f ps)) = none := by
  obtain ⟨cs, qs, rfl, ends⟩ := exists_lits settled unread
  rw [fill_append, fill_map_lit]
  obtain rfl | ⟨c, qs', rfl, stops⟩ := ends
  · exact unread
  · rw [render_append, render_map_lit, render_cons] at unread
    rw [render_append, render_map_lit, fill_lit, render_cons]
    exact (inner_append_stop stops _ _).trans ((inner_append_stop stops _ _).symm.trans unread)

theorem refAt_of_ne (other : c ≠ m.opener) (s : List α) : m.refAt (c :: s) = none := by
  cases s with
  | nil => rfl
  | cons d s => exact if_neg fun marks => other marks.1

theorem settled_lits {cs : List α} (free : m.opener ∉ cs) (settled : m.Settled ps) :
    m.Settled (cs.map .lit ++ ps) := by
  induction cs with
  | nil => exact settled
  | cons c cs ih =>
    rw [List.mem_cons, not_or] at free
    exact ⟨refAt_of_ne (Ne.symm free.1) _, ih free.2⟩

theorem settled_fill (free : ∀ r, ∀ v ∈ f r, m.opener ∉ v) (settled : m.Settled ps) :
    m.Settled (fill f ps) := by
  induction ps with
  | nil => trivial
  | cons p ps ih =>
    cases p with
    | ref r =>
      rw [fill_ref]
      cases known : f r with
      | none => exact ⟨settled.1, ih settled.2⟩
      | some v => exact settled_lits (free r v known) (ih settled.2)
    | lit c =>
      refine ⟨?_, ih settled.2⟩
      by_cases opens : c = m.opener
      · subst opens
        have here := settled.1
        cases ps with
        | nil => rfl
        | cons q ps =>
          cases q with
          | ref r =>
            have clear : ∀ c ∈ [m.opener], m.stops c = false := by simp [m.opener_stays]
            exact absurd (by simpa [text, refAt] using here)
              (inner_ne_none clear settled.2.1 (m.render ps))
          | lit d =>
            by_cases again : d = m.opener
            · subst again
              have ahead : m.inner (m.render ps) = none := (if_pos ⟨rfl, rfl⟩).symm.trans here
              exact (if_pos ⟨rfl, rfl⟩).trans (inner_fill f settled.2.2 ahead)
            · exact if_neg fun marks => again marks.2
      · exact refAt_of_ne opens _

theorem substitute_substitute (free : ∀ r, ∀ v ∈ f r, m.opener ∉ v)
    (g : List α → Option (List α)) (s : List α) :
    m.substitute g (m.substitute f s) = m.substitute (fun r => (f r).or (g r)) s := by
  rw [substitute, substitute, substitute, ← fill_fill,
    pieces_render (settled_fill free (settled_pieces s).1)]

/-- A text of bare pieces: what stands alone is no mark, and references hold neither marks nor
stops. -/
def Bare (m : Marks α) : Piece α → Prop
  | .lit c => c ≠ m.opener ∧ c ≠ m.closer
  | .ref r => r ≠ [] ∧ m.opener ∉ r ∧ m.closer ∉ r ∧ ∀ c ∈ r, m.stops c = false

theorem inner_bare (filled : r ≠ []) (free : m.closer ∉ r) (clear : ∀ c ∈ r, m.stops c = false) :
    m.inner (r ++ [m.closer, m.closer]) = some r := by
  induction r with
  | nil => exact absurd rfl filled
  | cons c r ih =>
    rw [List.forall_mem_cons] at clear
    rw [List.mem_cons, not_or] at free
    cases r with
    | nil => exact inner_of_closed clear.1 List.prefix_rfl
    | cons d r =>
      have opens : ¬[m.closer, m.closer] <+: d :: r ++ [m.closer, m.closer] := fun closed =>
        free.2 ((List.cons_prefix_cons.mp closed).1 ▸ List.mem_cons_self)
      rw [List.cons_append, inner_of_open clear.1 opens,
        ih (List.cons_ne_nil d r) free.2 clear.2]
      rfl

theorem settled_bare (bare : ∀ p ∈ ps, m.Bare p) : m.Settled ps := by
  induction ps with
  | nil => trivial
  | cons p ps ih =>
    rw [List.forall_mem_cons] at bare
    cases p with
    | lit c => exact ⟨refAt_of_ne bare.1.1 _, ih bare.2⟩
    | ref r => exact ⟨inner_bare bare.1.1 bare.1.2.2.1 bare.1.2.2.2, ih bare.2⟩

end Fill

section Extend

theorem inner_append (found : m.inner s = some r) (t : List α) : m.inner (s ++ t) = some r := by
  obtain ⟨own, within⟩ := inner_append_closers found
  exact inner_of_prefix own (within.trans (List.prefix_append s t))

theorem refAt_append (found : m.refAt s = some r) (t : List α) : m.refAt (s ++ t) = some r := by
  obtain ⟨own, t', rfl⟩ := exists_of_refAt found
  rw [List.append_assoc]
  exact refAt_ref own _

theorem inner_eq_none (free : m.closer ∉ s) : m.inner s = none := by
  cases found : m.inner s with
  | none => rfl
  | some r =>
    obtain ⟨-, within⟩ := inner_append_closers found
    exact absurd (within.subset (by simp)) free

theorem inner_append_free (free : m.closer ∉ t) (s : List α) : m.inner (s ++ t) = m.inner s := by
  induction s with
  | nil => exact inner_eq_none free
  | cons c s ih =>
    have reach : [m.closer, m.closer] <+: s ++ t ↔ [m.closer, m.closer] <+: s := by
      apply prefix_append_iff
      intro x first inside
      have same : x = m.closer := by simpa using inside
      exact free (same ▸ List.mem_of_mem_head? first)
    simp only [List.cons_append, inner, List.isPrefixOf_iff_prefix, reach, ih]

theorem refAt_append_free (opens : m.opener ∉ t) (free : m.closer ∉ t) (c : α) (s : List α) :
    m.refAt (c :: s ++ t) = m.refAt (c :: s) := by
  cases s with
  | cons d s =>
    have same := inner_append_free free s
    simp only [List.cons_append, refAt, same]
  | nil =>
    cases t with
    | nil => rfl
    | cons d t =>
      apply if_neg
      rintro ⟨-, rfl⟩
      exact opens List.mem_cons_self

theorem settled_append_lits (opens : m.opener ∉ t) (free : m.closer ∉ t) (settled : m.Settled ps) :
    m.Settled (ps ++ t.map .lit) := by
  induction ps with
  | nil =>
    rw [List.nil_append, ← List.append_nil (t.map _)]
    exact settled_lits opens trivial
  | cons p ps ih =>
    cases p with
    | ref r => exact ⟨settled.1, ih settled.2⟩
    | lit c =>
      refine ⟨?_, ih settled.2⟩
      show m.refAt (c :: m.render (ps ++ t.map .lit)) = none
      rw [render_append, render_map_lit]
      exact (refAt_append_free opens free c _).trans settled.1

theorem settled_append {qs' : List (Piece α)} (settled : m.Settled (ps ++ qs))
    (shorter : m.render qs' <+: m.render qs) (next : m.Settled qs') : m.Settled (ps ++ qs') := by
  induction ps with
  | nil => exact next
  | cons p ps ih =>
    cases p with
    | ref r => exact ⟨settled.1, ih settled.2⟩
    | lit c =>
      refine ⟨?_, ih settled.2⟩
      have here : m.refAt (c :: m.render (ps ++ qs)) = none := settled.1
      obtain ⟨t, split⟩ := shorter
      cases found : m.refAt (c :: m.render (ps ++ qs')) with
      | none => rfl
      | some r =>
        have whole := refAt_append found t
        rw [render_append] at whole here
        rw [List.cons_append, List.append_assoc, split, here] at whole
        cases whole

theorem settled_of_append (settled : m.Settled (ps ++ qs)) : m.Settled qs := by
  induction ps with
  | nil => exact settled
  | cons p ps ih =>
    cases p with
    | lit c => exact ih settled.2
    | ref r => exact ih settled.2

end Extend

section Cut

omit [DecidableEq α] in
theorem exists_cut (whole : m.render ps = s ++ c :: t) :
    (∃ front back, ps = front ++ .lit c :: back ∧ m.render front = s ∧ m.render back = t) ∨
      ∃ front r back x y, ps = front ++ .ref r :: back ∧ m.text (.ref r) = x ++ c :: y ∧
        s = m.render front ++ x := by
  induction ps generalizing s with
  | nil => exact absurd whole (by simp)
  | cons p ps ih =>
    rw [render_cons] at whole
    obtain ⟨x, rfl, rest⟩ | ⟨x, text, rest⟩ := List.append_eq_append_iff.mp whole
    · obtain ⟨front, back, rfl, rfl, rfl⟩ | ⟨front, r, back, x, y, rfl, text, rfl⟩ := ih rest
      · exact .inl ⟨p :: front, back, rfl, rfl, rfl⟩
      · exact .inr ⟨p :: front, r, back, x, y, rfl, text, (List.append_assoc _ _ _).symm⟩
    · cases x with
      | nil =>
        rw [List.append_nil] at text
        obtain ⟨front, back, rfl, none, rfl⟩ | ⟨front, r, back, x, y, rfl, inside, none⟩ :=
          ih (s := []) rest.symm
        · exact .inl ⟨p :: front, back, rfl, by rw [render_cons, none, text, List.append_nil], rfl⟩
        · refine .inr ⟨p :: front, r, back, x, y, rfl, inside, ?_⟩
          rw [render_cons, List.append_assoc, ← none, List.append_nil, text]
      | cons d x =>
        obtain ⟨rfl, rfl⟩ := List.cons.inj rest
        cases p with
        | ref r => exact .inr ⟨[], r, ps, s, x, rfl, text, rfl⟩
        | lit d =>
          cases s with
          | nil =>
            obtain ⟨rfl, rfl⟩ := List.cons.inj text
            exact .inl ⟨[], ps, rfl, rfl, rfl⟩
          | cons e s => exact absurd (congrArg List.length text) (by simp [Marks.text])

omit [DecidableEq α] in
theorem exists_lits_append {cs : List α} (free : m.opener ∉ cs) (whole : m.render ps = cs ++ t) :
    ∃ qs : List (Piece α), ps = cs.map .lit ++ qs ∧ m.render qs = t := by
  induction cs generalizing ps with
  | nil => exact ⟨ps, rfl, whole⟩
  | cons c cs ih =>
    rw [List.mem_cons, not_or] at free
    cases ps with
    | nil => cases whole
    | cons p ps =>
      cases p with
      | ref r => exact absurd (List.cons.inj whole).1 free.1
      | lit d =>
        obtain ⟨rfl, rest⟩ := List.cons.inj whole
        obtain ⟨qs, rfl, text⟩ := ih free.2 rest
        exact ⟨qs, rfl, text⟩

omit [DecidableEq α] in
theorem exists_inside {x y : List α} (opens : c ≠ m.opener) (closes : c ≠ m.closer)
    (whole : m.text (.ref r) = x ++ c :: y) :
    ∃ r₁ r₂, r = r₁ ++ c :: r₂ ∧ x = m.opener :: m.opener :: r₁ := by
  cases x with
  | nil => exact absurd (List.cons.inj whole).1.symm opens
  | cons a x =>
    obtain ⟨rfl, first⟩ := List.cons.inj whole
    cases x with
    | nil => exact absurd (List.cons.inj first).1.symm opens
    | cons b r₁ =>
      obtain ⟨rfl, rest⟩ := List.cons.inj first
      obtain ⟨bs, rfl, ends⟩ | ⟨bs, rfl, ends⟩ := List.append_eq_append_iff.mp rest
      · have inside : c ∈ [m.closer, m.closer] := ends ▸ by simp
        exact absurd (by simpa using inside) closes
      · cases bs with
        | nil => exact absurd (List.cons.inj ends).1 closes
        | cons d bs =>
          obtain ⟨rfl, -⟩ := List.cons.inj ends
          exact ⟨r₁, bs, rfl, rfl⟩

theorem inner_cons_ne_none (stays : m.stops c = false) (found : m.inner s = some r) :
    m.inner (c :: s) ≠ none := by
  by_cases closed : [m.closer, m.closer] <+: s
  · rw [inner_of_closed stays closed]
    exact Option.some_ne_none _
  · rw [inner_of_open stays closed, found]
    exact Option.some_ne_none _

theorem settled_unclosed {r' : List α} (settled : m.Settled (ps ++ .ref (r ++ c :: r') :: qs)) :
    m.Settled (ps ++ .lit m.opener :: .lit m.opener :: m.pieces 0 r) := by
  have own := (settled_of_append settled).1
  obtain ⟨inside, text⟩ := settled_pieces (m := m) r
  have unread : m.inner r = none := by
    cases found : m.inner r with
    | none => rfl
    | some q =>
      have longer := inner_append found (c :: r' ++ [m.closer, m.closer])
      rw [← List.append_assoc, own] at longer
      obtain ⟨-, within⟩ := inner_append_closers found
      have short := within.length_le
      rw [← Option.some.inj longer] at short
      simp only [List.length_append, List.length_cons] at short
      omega
  apply settled_append settled
  · rw [render_cons, render_cons, text, render_cons]
    exact ⟨c :: (r' ++ [m.closer, m.closer]) ++ m.render qs, by simp [Marks.text]⟩
  · refine ⟨?_, ?_, inside⟩
    · rw [render_cons, text]
      exact (if_pos ⟨rfl, rfl⟩).trans unread
    · rw [text]
      cases found : m.refAt (m.opener :: r) with
      | none => rfl
      | some q =>
        obtain ⟨own', t', split⟩ := exists_of_refAt found
        have ahead : r = m.opener :: (q ++ [m.closer, m.closer] ++ t') := (List.cons.inj split).2
        rw [ahead] at unread
        exact absurd unread (inner_cons_ne_none m.opener_stays (inner_append own' t'))

end Cut

end Marks

section Occurrences

variable [DecidableEq α]

/-- `s.count(part)`: the places of a part that do not overlap; `n` elements are passed first. -/
def occurrences (part : List α) : Nat → List α → Nat
  | _, [] => 0
  | n + 1, _ :: s => occurrences part n s
  | 0, c :: s => if part.isPrefixOf (c :: s) then occurrences part (part.length - 1) s + 1
      else occurrences part 0 s

variable {part s t : List α}

/-- No place of the part lies on both sides. -/
def Apart (part s t : List α) : Prop :=
  (∀ x ∈ t.head?, x ∉ part) ∨ ∀ x ∈ s.getLast?, x ∉ part

omit [DecidableEq α] in
theorem Apart.tail {c : α} (apart : Apart part (c :: s) t) : Apart part s t := by
  apply apart.imp_right
  intro last x final
  apply last
  rw [List.getLast?_cons, Option.mem_def.mp final]
  rfl

omit [DecidableEq α] in
theorem Apart.prefix_iff (filled : s ≠ []) (apart : Apart part s t) :
    part <+: s ++ t ↔ part <+: s := by
  obtain head | last := apart
  · exact prefix_append_iff head
  · constructor
    · intro reaches
      have own : s <+: s ++ t := List.prefix_append s t
      obtain shorter | longer := Nat.le_total part.length s.length
      · exact List.prefix_of_prefix_length_le reaches own shorter
      · have within := List.prefix_of_prefix_length_le own reaches longer
        have final := List.getLast?_eq_some_getLast filled
        exact absurd (within.subset (List.getLast_mem filled)) (last _ final)
    · exact fun within => within.trans (List.prefix_append s t)

theorem occurrences_cons_of_here {c : α} (here : part <+: c :: s) :
    occurrences part 0 (c :: s) = occurrences part (part.length - 1) s + 1 :=
  if_pos (List.isPrefixOf_iff_prefix.mpr here)

theorem occurrences_cons_of_other {c : α} (other : ¬part <+: c :: s) :
    occurrences part 0 (c :: s) = occurrences part 0 s :=
  if_neg fun here => other (List.isPrefixOf_iff_prefix.mp here)

theorem occurrences_append {n : Nat} (fits : n ≤ s.length) (apart : Apart part s t) :
    occurrences part n (s ++ t) = occurrences part n s + occurrences part 0 t := by
  induction s generalizing n with
  | nil =>
    cases Nat.le_zero.mp fits
    exact (Nat.zero_add _).symm
  | cons c s ih =>
    cases n with
    | succ n => exact ih (Nat.le_of_succ_le_succ fits) apart.tail
    | zero =>
      have same : part <+: c :: (s ++ t) ↔
          part <+: c :: s := apart.prefix_iff (List.cons_ne_nil c s)
      by_cases here : part <+: c :: s
      · have fits : part.length - 1 ≤ s.length := Nat.sub_le_of_le_add here.length_le
        rw [occurrences_cons_of_here here, List.cons_append,
          occurrences_cons_of_here (same.mpr here),
          ih fits apart.tail]
        omega
      · rw [occurrences_cons_of_other here, List.cons_append,
          occurrences_cons_of_other fun there => here (same.mp there),
          ih (Nat.zero_le _) apart.tail]

theorem occurrences_eq_zero {x : α} (inside : x ∈ part) (absent : x ∉ s) :
    occurrences part 0 s = 0 := by
  induction s with
  | nil => rfl
  | cons c s ih =>
    rw [occurrences_cons_of_other fun here => absent (here.subset inside)]
    exact ih (List.not_mem_of_not_mem_cons absent)

theorem occurrences_ne_zero (filled : part ≠ []) (inside : part <:+: s) :
    occurrences part 0 s ≠ 0 := by
  induction s with
  | nil => exact absurd (List.infix_nil.mp inside) filled
  | cons c s ih =>
    by_cases here : part <+: c :: s
    · rw [occurrences_cons_of_here here]
      exact Nat.succ_ne_zero _
    · rw [occurrences_cons_of_other here]
      exact ih ((List.infix_cons_iff.mp inside).resolve_left here)

end Occurrences

end DreamStudio.Library
