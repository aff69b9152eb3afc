import DreamStudio.Boundaries.Contained
import DreamStudio.Library.Except
import DreamStudio.Library.Strip
import DreamStudio.WorkOrders.Criteria

namespace DreamStudio.Boundaries

open Library WorkOrders Hooks.Native Regex

section Stripped

theorem toList_pyRstrip (s : String) : (pyRstrip s).toList = s.toList.rdropWhile pySpace := by
  rw [pyRstrip, String.toList_ofList]
  rfl

theorem pyRstrip_pyRstrip (s : String) : pyRstrip (pyRstrip s) = pyRstrip s := by
  rw [← String.toList_inj, toList_pyRstrip, toList_pyRstrip, List.rdropWhile_idempotent]

theorem stripClause_rstripped (s : String) : pyRstrip (stripClause s) = stripClause s := by
  rw [stripClause]
  split <;> exact pyRstrip_pyRstrip _

theorem splitMarker_append {before after : List Char}
    (new : ∀ us v vs, before = us ++ v :: vs →
      ¬boundaryMarker.toList <+: v :: vs ++ (boundaryMarker.toList ++ after)) :
    splitMarker (before ++ (boundaryMarker.toList ++ after)) = some (before, after) := by
  induction before with
  | nil =>
    have here : boundaryMarker.toList.isPrefixOf (boundaryMarker.toList ++ after) = true :=
      List.isPrefixOf_iff_prefix.mpr (List.prefix_append _ _)
    cases text : boundaryMarker.toList ++ after with
    | nil => cases text
    | cons c cs =>
      rw [text] at here
      rw [List.nil_append, splitMarker, if_pos here, ← text, ← String.length_toList,
        List.drop_left]
  | cons c before ih =>
    have away : ¬boundaryMarker.toList.isPrefixOf
        (c :: (before ++ (boundaryMarker.toList ++ after))) = true :=
      fun here => new [] c before rfl (List.isPrefixOf_iff_prefix.mp here)
    have later := ih fun us v vs split => new (c :: us) v vs (congrArg (c :: ·) split)
    rw [List.cons_append, splitMarker, if_neg away, later]
    rfl

theorem afterClause_append {cs : List Char} (continues : Continues cs) (line : '\n' ∉ cs)
    (ds : List Char) : afterClause (cs ++ ds) = afterClause ds := by
  induction cs with
  | nil => rfl
  | cons c cs ih =>
    have newline : c ≠ '\n' := fun same => line (same ▸ List.mem_cons_self)
    have goes : ¬(c = '.' ∧ ((cs ++ ds).head? = none ∨ (cs ++ ds).head? = some ' ' ∨
        (cs ++ ds).head? = some '\n')) := by
      rintro ⟨rfl, stops⟩
      have lower := continues [] cs rfl
      cases cs with
      | nil => cases lower
      | cons d cs =>
        have small : lowercase d = true := lower
        rw [List.cons_append, List.head?_cons] at stops
        rcases stops with none | blank | newline
        · cases none
        · cases blank
          exact absurd small (by decide)
        · cases newline
          exact absurd small (by decide)
    rw [List.cons_append, afterClause, if_neg newline, if_neg goes]
    exact ih continues.tail (List.not_mem_of_not_mem_cons line)

end Stripped

section Removed

/-- What is left behind the keyword of what `boundary_globs` reads there. -/
def behindRead (after : List Char) : List Char :=
  (first body ⟨none, after, []⟩).elim after (·.ahead)

def behindClause (after : List Char) : List Char :=
  if (behindRead after).head? = some '.' then (behindRead after).tail else behindRead after

/-- A description without its clause. -/
def removeClause (description : String) : String :=
  match splitMarker description.toList with
  | none => description
  | some (before, after) => String.ofList (before ++ behindClause after)

theorem behindClause_suffix_read (after : List Char) : behindClause after <:+ behindRead after := by
  rw [behindClause]
  split
  · exact List.tail_suffix _
  · exact List.suffix_rfl

theorem behindClause_suffix (after : List Char) : behindClause after <:+ after := by
  apply (behindClause_suffix_read after).trans
  rw [behindRead]
  cases found : first body ⟨none, after, []⟩ with
  | none => exact List.suffix_rfl
  | some t => exact runs_suffix (List.mem_of_mem_head? found)

theorem afterClause_suffix (cs : List Char) : afterClause cs <:+ cs := by
  induction cs with
  | nil => exact List.suffix_rfl
  | cons c cs ih =>
    rw [afterClause]
    split
    · exact List.suffix_rfl
    · split
      · exact List.suffix_cons c cs
      · exact ih.trans (List.suffix_cons c cs)

theorem length_removeClause_lt {s : String} (claimed : contains s boundaryMarker = true) :
    (removeClause s).toList.length < s.toList.length := by
  rw [removeClause]
  split
  next none => exact absurd ((contains_iff s boundaryMarker).mp claimed) (splitMarker_eq_none none)
  next before after found =>
    have whole := congrArg List.length (splitMarker_eq_some found).1
    have keyword : boundaryMarker.toList.length = 16 := rfl
    have tail := (behindClause_suffix after).length_le
    rw [List.length_append, List.length_append, keyword] at whole
    rw [String.toList_ofList, List.length_append]
    omega

theorem rstrip_ends_iff {before after us vs : List Char} (hu : us <:+ after) (hv : vs <:+ after) :
    pyRstrip (String.ofList (before ++ us)) = pyRstrip (String.ofList (before ++ vs)) ↔
      us = vs ∨ (∀ c ∈ us, pySpace c = true) ∧ ∀ c ∈ vs, pySpace c = true := by
  rw [← String.toList_inj, toList_pyRstrip, toList_pyRstrip, String.toList_ofList,
    String.toList_ofList]
  rcases List.suffix_or_suffix_of_suffix hu hv with ⟨ws, rfl⟩ | ⟨ws, rfl⟩
  · rw [eq_comm, rdropWhile_append_append, List.self_eq_append_left, List.forall_mem_append]
    tauto
  · rw [rdropWhile_append_append, List.append_left_eq_self, List.forall_mem_append]
    tauto

theorem behindRead_of_reads {after cs : List Char} (reads : ReadsFrom ⟨none, after, []⟩ cs) :
    behindRead after = cs.drop (clause cs).length := by
  obtain ⟨t, found, -, rest⟩ := reads
  rw [behindRead, found, Option.elim_some, rest]

theorem Continues.append_right {us vs : List Char} (continues : Continues (us ++ vs)) :
    Continues vs :=
  fun as bs split => continues (us ++ as) bs (by rw [split, List.append_assoc])

theorem Continues.append {us vs : List Char} (front : Continues us) (back : Continues vs) :
    Continues (us ++ vs) := by
  induction us with
  | nil => exact back
  | cons c us ih =>
    refine (ih front.tail).cons fun dot => ?_
    have lower : us.head?.any lowercase = true := front [] us (by rw [dot]; rfl)
    cases us with
    | nil => cases lower
    | cons d us => exact lower

theorem Continues.of_blank {us : List Char} (spaces : ∀ x ∈ us, pySpace x = true) :
    Continues us := by
  intro as bs split
  have dot := spaces '.' (split ▸ List.mem_append_right _ List.mem_cons_self)
  cases dot

theorem exists_start {cs : List Char} (held : ∃ c ∈ cs, pySpace c = false) :
    ∃ w d ds, cs = w ++ d :: ds ∧ (∀ x ∈ w, pySpace x = true) ∧ pySpace d = false := by
  induction cs with
  | nil =>
    obtain ⟨c, member, -⟩ := held
    cases member
  | cons c cs ih =>
    cases start : pySpace c with
    | false => exact ⟨[], c, cs, rfl, List.forall_mem_nil _, start⟩
    | true =>
      obtain ⟨d, member, later⟩ := held
      have inside := (List.mem_cons.mp member).resolve_left fun same => by
        rw [same, start] at later
        cases later
      obtain ⟨w, d, ds, rfl, spaces, here⟩ := ih ⟨d, inside, later⟩
      exact ⟨c :: w, d, ds, rfl, List.forall_mem_cons.mpr ⟨start, spaces⟩, here⟩

theorem behindRead_line {w : List Char} {c : Char} {cs : List Char}
    (spaces : ∀ x ∈ w, pySpace x = true ∧ x ≠ '\n') (start : pySpace c = false)
    (dot : c = '.' → w ≠ []) :
    behindRead (w ++ c :: cs) = (c :: cs).drop (clause (c :: cs)).length := by
  have blanks : ∀ x ∈ w, pySpace x = true := fun x member => (spaces x member).1
  by_cases same : c = '.'
  · subst same
    obtain ⟨v, x, rfl⟩ := (List.eq_nil_or_concat' w).resolve_left (dot rfl)
    obtain ⟨space, line⟩ := spaces x (List.mem_append_right _ (List.mem_singleton_self x))
    have here := inline_of_space space line
    have reads : ReadsFrom ⟨none, v ++ [x] ++ '.' :: cs, []⟩ (x :: '.' :: cs) :=
      first_body_dot (n := 0) (by rw [List.append_assoc]; rfl)
        (fun y member => blanks y (List.mem_append_left _ member)) space here
    rw [behindRead_of_reads reads, clause_cons_of_inline here]
    rfl
  · have goes := inline_of_start start same
    exact behindRead_of_reads (first_body rfl blanks start goes)

theorem blank_of_not_held {line : List Char} (whole : '\n' ∉ line)
    (none : ¬∃ c ∈ line, pySpace c = false) : ∀ x ∈ line, pySpace x = true ∧ x ≠ '\n' := by
  intro x member
  refine ⟨?_, fun newline => whole (newline ▸ member)⟩
  by_contra start
  exact none ⟨x, member, Bool.eq_false_iff.mpr start⟩

theorem behindRead_append {us ds : List Char} (line : '\n' ∉ us) (continues : Continues us)
    (opens : us.head? ≠ some '.') (stops : clause ds = [])
    (held : (us ≠ [] ∧ ds.head? = some '.') ∨ ∃ c ∈ us, pySpace c = false) :
    behindRead (us ++ ds) = ds := by
  by_cases start : ∃ c ∈ us, pySpace c = false
  · obtain ⟨w, c, vs, rfl, spaces, start⟩ := exists_start start
    have dot : c = '.' → w ≠ [] := by
      rintro rfl rfl
      exact opens rfl
    have inside : '\n' ∉ c :: vs := fun member => line (List.mem_append_right _ member)
    have blanks : ∀ x ∈ w, pySpace x = true ∧ x ≠ '\n' := fun x member =>
      ⟨spaces x member, fun same => line (List.mem_append_left _ (same ▸ member))⟩
    rw [List.append_assoc, List.cons_append, behindRead_line blanks start dot, ← List.cons_append,
      clause_append continues.append_right inside, stops, List.append_nil, List.drop_left]
  · obtain ⟨some, dot⟩ := held.resolve_right start
    have spaces := blank_of_not_held line start
    cases ds with
    | nil => cases dot
    | cons d cs =>
      obtain rfl := Option.some.inj dot
      rw [behindRead_line spaces rfl fun _ => some, stops]
      rfl

/-- A full stop with nothing that goes on behind it, or that opens the keyword's line. -/
def StopsAt (us vs : List Char) : Prop :=
  Continues us ∧ (us = [] ∨ us.head? ≠ some '.' ∧ vs.head?.any lowercase = false)

/-- Behind a keyword the clause that is read is the one that is taken away. -/
inductive EndsAlike : List Char → Prop
  | blank {after : List Char} (spaces : ∀ c ∈ after, pySpace c = true) : EndsAlike after
  | below {w : List Char} (spaces : ∀ c ∈ w, pySpace c = true ∧ c ≠ '\n') (n : Nat)
    (cs : List Char) : EndsAlike (w ++ (List.replicate (n + 1) '\n' ++ '.' :: cs))
  | line {line below : List Char} (whole : '\n' ∉ line) (ends : below.head?.all (· = '\n') = true)
    (held : ∃ c ∈ line, pySpace c = false)
    (stops : ∀ us vs, line = us ++ '.' :: vs → StopsAt us vs →
      vs.head?.all (· = ' ') = true ∨ ∀ c ∈ vs ++ below, pySpace c = true) :
    EndsAlike (line ++ below)

theorem Continues.nil : Continues [] := fun as bs split => by cases as <;> cases split

theorem continues_or_stops (cs : List Char) :
    Continues cs ∨
      ∃ us vs, cs = us ++ '.' :: vs ∧ Continues us ∧ vs.head?.any lowercase = false := by
  induction cs with
  | nil => exact Or.inl .nil
  | cons c cs ih =>
    by_cases stop : c = '.' ∧ cs.head?.any lowercase = false
    · obtain ⟨rfl, stop⟩ := stop
      exact Or.inr ⟨[], cs, rfl, .nil, stop⟩
    · have dot : c = '.' → cs.head?.any lowercase = true := fun same =>
        (Bool.eq_false_or_eq_true _).resolve_right fun none => stop ⟨same, none⟩
      rcases ih with continues | ⟨us, vs, rfl, continues, ends⟩
      · exact Or.inl (continues.cons dot)
      · refine Or.inr ⟨c :: us, vs, rfl, continues.cons fun same => ?_, ends⟩
        cases us with
        | nil =>
          have lower : lowercase '.' = true := dot same
          exact absurd lower (by decide)
        | cons d us => exact dot same

theorem behindClause_stop {us vs below : List Char} (front : '\n' ∉ us)
    (ends : below.head?.all (· = '\n') = true) (stop : StopsAt us vs) :
    behindClause (us ++ '.' :: vs ++ below) = vs ++ below := by
  have opened : behindRead ('.' :: (vs ++ below)) = '.' :: (vs ++ below) := by
    rw [behindRead, first_body_at_dot rfl]
    rfl
  have rest : behindRead (us ++ '.' :: (vs ++ below)) = '.' :: (vs ++ below) := by
    rcases stop.2 with rfl | ⟨opens, lower⟩
    · exact opened
    · have none : (vs ++ below).head?.any lowercase = false := by
        cases vs with
        | cons v vs => exact lower
        | nil =>
          cases below with
          | nil => rfl
          | cons b below =>
            have newline : b = '\n' := of_decide_eq_true ends
            rw [newline]
            rfl
      by_cases some : us = []
      · rw [some]
        exact opened
      · exact behindRead_append front stop.1 opens (clause_dot_of_stop none) (Or.inl ⟨some, rfl⟩)
  rw [List.append_assoc, List.cons_append, behindClause, rest]
  rfl

theorem afterClause_dot_iff {vs below : List Char} (whole : '\n' ∉ vs)
    (ends : below.head?.all (· = '\n') = true) :
    afterClause ('.' :: (vs ++ below)) = vs ++ below ↔ vs.head?.all (· = ' ') = true := by
  cases vs with
  | nil =>
    refine iff_of_true ?_ rfl
    rw [afterClause, if_neg (by decide), if_pos]
    refine ⟨rfl, ?_⟩
    cases below with
    | nil => exact Or.inl rfl
    | cons b below => exact Or.inr (Or.inr (by rw [of_decide_eq_true ends]; rfl))
  | cons v vs =>
    have newline : v ≠ '\n' := fun same => whole (same ▸ List.mem_cons_self)
    by_cases blank : v = ' '
    · subst blank
      refine iff_of_true ?_ rfl
      rw [List.cons_append, afterClause, if_neg (by decide), if_pos ⟨rfl, Or.inr (Or.inl rfl)⟩]
    · -- The dot ends nothing there, so more than `v` is taken.
      refine iff_of_false (fun same => ?_) (by simpa using blank)
      have goes : ¬('.' = '.' ∧ ((v :: (vs ++ below)).head? = none ∨
          (v :: (vs ++ below)).head? = some ' ' ∨ (v :: (vs ++ below)).head? = some '\n')) := by
        simp [blank, newline]
      rw [List.cons_append, afterClause, if_neg (by decide), if_neg goes, afterClause,
        if_neg newline] at same
      split at same
      · exact absurd (congrArg List.length same) (by rw [List.length_cons]; omega)
      · have short := (afterClause_suffix (vs ++ below)).length_le
        rw [same, List.length_cons] at short
        omega

theorem stop_iff {us vs below : List Char} (whole : '\n' ∉ us ++ '.' :: vs)
    (ends : below.head?.all (· = '\n') = true) (stop : StopsAt us vs) :
    behindClause (us ++ '.' :: vs ++ below) = vs ++ below ∧
      (afterClause (us ++ '.' :: vs ++ below) = vs ++ below ↔
        vs.head?.all (· = ' ') = true) := by
  have front : '\n' ∉ us := fun member => whole (List.mem_append_left _ member)
  have back : '\n' ∉ vs := fun member =>
    whole (List.mem_append_right _ (List.mem_cons_of_mem _ member))
  refine ⟨behindClause_stop front ends stop, ?_⟩
  rw [List.append_assoc, List.cons_append, afterClause_append stop.1 front]
  exact afterClause_dot_iff back ends

theorem behindRead_below {w : List Char} (spaces : ∀ c ∈ w, pySpace c = true ∧ c ≠ '\n') (n : Nat)
    (cs : List Char) :
    behindRead (w ++ (List.replicate (n + 1) '\n' ++ '.' :: cs)) =
      List.replicate (n + 1) '\n' ++ '.' :: cs := by
  rcases List.eq_nil_or_concat' w with rfl | ⟨v, x, rfl⟩
  · rw [List.nil_append, behindRead, first_body_eq_none]
    · rfl
    · have count : ((List.replicate (n + 1) '\n' ++ '.' :: cs).takeWhile pySpace).length = n + 1 := by
        rw [takeWhile_spaces _ rfl, List.length_replicate]
        intro x member
        rw [List.eq_of_mem_replicate member]
        rfl
      intro k few
      change Stops ((List.replicate (n + 1) '\n' ++ '.' :: cs).drop k)
      rw [count] at few
      exact stops_newlines cs few
  · obtain ⟨space, line⟩ := spaces x (List.mem_append_right _ (List.mem_singleton_self x))
    have here := inline_of_space space line
    have reads : ReadsFrom ⟨none, v ++ [x] ++ (List.replicate (n + 1) '\n' ++ '.' :: cs), []⟩
        (x :: (List.replicate (n + 1) '\n' ++ '.' :: cs)) :=
      first_body_dot (by rw [List.append_assoc]; rfl)
        (fun y member => (spaces y (List.mem_append_left _ member)).1) space here
    rw [behindRead_of_reads reads, clause_cons_of_inline here]
    rfl

theorem stops_or_continues (line : List Char) :
    (∃ us vs, line = us ++ '.' :: vs ∧ StopsAt us vs) ∨
      Continues line ∧ line.head? ≠ some '.' := by
  by_cases opens : line.head? = some '.'
  · cases line with
    | nil => cases opens
    | cons c cs =>
      obtain rfl := Option.some.inj opens
      exact Or.inl ⟨[], cs, rfl, .nil, Or.inl rfl⟩
  · rcases continues_or_stops line with continues | ⟨us, vs, split, continues, ends⟩
    · exact Or.inr ⟨continues, opens⟩
    · refine Or.inl ⟨us, vs, split, continues, Classical.or_iff_not_imp_left.mpr fun some => ?_⟩
      refine ⟨fun first => opens ?_, ends⟩
      rw [split, List.head?_append_of_ne_nil us some, first]

theorem whole_line {line below : List Char} (whole : '\n' ∉ line)
    (ends : below.head?.all (· = '\n') = true) (held : ∃ c ∈ line, pySpace c = false)
    (continues : Continues line) (opens : line.head? ≠ some '.') :
    behindClause (line ++ below) = below ∧ afterClause (line ++ below) = below := by
  rw [afterClause_append continues whole, behindClause]
  cases below with
  | nil =>
    rw [behindRead_append whole continues opens rfl (Or.inr held)]
    exact ⟨rfl, rfl⟩
  | cons b below =>
    obtain rfl : b = '\n' := of_decide_eq_true ends
    rw [behindRead_append whole continues opens (clause_newline below) (Or.inr held)]
    exact ⟨rfl, rfl⟩

theorem afterClause_suffix_behind {line below : List Char} (whole : '\n' ∉ line)
    (ends : below.head?.all (· = '\n') = true) (held : ∃ c ∈ line, pySpace c = false) :
    afterClause (line ++ below) <:+ behindClause (line ++ below) := by
  rcases stops_or_continues line with ⟨us, vs, rfl, stop⟩ | ⟨continues, opens⟩
  · have front : '\n' ∉ us := fun member => whole (List.mem_append_left _ member)
    rw [(stop_iff whole ends stop).1, List.append_assoc, afterClause_append stop.1 front,
      List.cons_append, afterClause, if_neg (by decide)]
    split
    · exact List.suffix_rfl
    · exact afterClause_suffix _
  · obtain ⟨behind, taken⟩ := whole_line whole ends held continues opens
    rw [behind, taken]

theorem endsAlike_line_iff {line below : List Char} (whole : '\n' ∉ line)
    (ends : below.head?.all (· = '\n') = true) (held : ∃ c ∈ line, pySpace c = false) :
    (afterClause (line ++ below) = behindClause (line ++ below) ∨
      (∀ c ∈ afterClause (line ++ below), pySpace c = true) ∧
        ∀ c ∈ behindClause (line ++ below), pySpace c = true) ↔
    ∀ us vs, line = us ++ '.' :: vs → StopsAt us vs →
      vs.head?.all (· = ' ') = true ∨ ∀ c ∈ vs ++ below, pySpace c = true := by
  constructor
  · rintro same us vs rfl stop
    obtain ⟨behind, taken⟩ := stop_iff whole ends stop
    rw [behind] at same
    exact same.imp taken.mp And.right
  · intro stops
    have shorter := afterClause_suffix_behind whole ends held
    rcases stops_or_continues line with ⟨us, vs, rfl, stop⟩ | ⟨continues, opens⟩
    · obtain ⟨behind, taken⟩ := stop_iff whole ends stop
      rw [behind] at shorter ⊢
      exact (stops us vs rfl stop).imp taken.mpr fun blank =>
        ⟨fun c member => blank c (shorter.subset member), blank⟩
    · obtain ⟨behind, taken⟩ := whole_line whole ends held continues opens
      exact Or.inl (taken.trans behind.symm)

theorem exists_line (after : List Char) : ∃ line below, after = line ++ below ∧ '\n' ∉ line ∧
    below.head?.all (· = '\n') = true := by
  refine ⟨after.takeWhile (· ≠ '\n'), after.dropWhile (· ≠ '\n'),
    List.takeWhile_append_dropWhile.symm, fun member => ?_, ?_⟩
  · exact absurd (List.mem_takeWhile_imp member) (by decide)
  · have first := List.head?_dropWhile_not (· ≠ '\n') after
    cases rest : after.dropWhile (· ≠ '\n') with
    | nil => rfl
    | cons b below =>
      rw [rest] at first
      simpa using first

theorem blank_cases (w : List Char) : (∃ n, w = List.replicate n '\n') ∨
    ∃ us x n, w = us ++ x :: List.replicate n '\n' ∧ x ≠ '\n' := by
  induction w with
  | nil => exact Or.inl ⟨0, rfl⟩
  | cons c w ih =>
    rcases ih with ⟨n, rfl⟩ | ⟨us, x, n, rfl, other⟩
    · by_cases newline : c = '\n'
      · exact Or.inl ⟨n + 1, by rw [newline]; rfl⟩
      · exact Or.inr ⟨[], c, n, rfl, newline⟩
    · exact Or.inr ⟨c :: us, x, n, rfl, other⟩

theorem behindClause_short {w b cs : List Char} {c : Char}
    (spaces : ∀ x ∈ w, pySpace x = true ∧ x ≠ '\n') (blanks : ∀ x ∈ b, pySpace x = true)
    (start : pySpace c = false) (reached : c = '.' → ¬∃ n, b = List.replicate (n + 1) '\n')
    (below : '\n' ∈ b) :
    (behindClause (w ++ (b ++ c :: cs))).length < (b ++ c :: cs).length := by
  apply Nat.lt_of_le_of_lt (behindClause_suffix_read _).length_le
  have front : ∀ x ∈ w ++ b, pySpace x = true :=
    List.forall_mem_append.mpr ⟨fun x member => (spaces x member).1, blanks⟩
  by_cases dot : c = '.'
  · subst dot
    rcases blank_cases b with ⟨n, rfl⟩ | ⟨us, x, n, rfl, other⟩
    · obtain ⟨m, rfl⟩ := Nat.exists_eq_succ_of_ne_zero fun none : n = 0 => by
        rw [none] at below
        cases below
      exact absurd ⟨m, rfl⟩ (reached rfl)
    · have space := blanks x (List.mem_append_right _ List.mem_cons_self)
      have here := inline_of_space space other
      have reads : ReadsFrom ⟨none, w ++ (us ++ x :: List.replicate n '\n' ++ '.' :: cs), []⟩
          (x :: (List.replicate n '\n' ++ '.' :: cs)) :=
        first_body_dot (w := w ++ us) (by simp only [List.append_assoc, List.cons_append])
          (List.forall_mem_append.mpr ⟨fun y member => (spaces y member).1,
            fun y member => blanks y (List.mem_append_left _ member)⟩) space here
      rw [behindRead_of_reads reads, clause_cons_of_inline here]
      simp only [List.length_drop, List.length_append, List.length_cons]
      omega
  · have goes := inline_of_start start dot
    have reads : ReadsFrom ⟨none, w ++ (b ++ c :: cs), []⟩ (c :: cs) :=
      first_body (List.append_assoc _ _ _).symm front start goes
    rw [behindRead_of_reads reads, clause_cons_of_inline goes]
    simp only [List.length_drop, List.length_append, List.length_cons]
    omega

theorem afterClause_blank {line below : List Char}
    (spaces : ∀ x ∈ line, pySpace x = true ∧ x ≠ '\n')
    (ends : below.head?.all (· = '\n') = true) : afterClause (line ++ below) = below := by
  have blank : ∀ x ∈ line, pySpace x = true := fun x member => (spaces x member).1
  rw [afterClause_append (.of_blank blank) fun member => (spaces '\n' member).2 rfl]
  cases below with
  | nil => rfl
  | cons b below => rw [afterClause, if_pos (of_decide_eq_true ends)]

theorem strips_alike_iff (before after : List Char) :
    pyRstrip (String.ofList (before ++ afterClause after)) =
      pyRstrip (String.ofList (before ++ behindClause after)) ↔ EndsAlike after := by
  rw [rstrip_ends_iff (afterClause_suffix after) (behindClause_suffix after)]
  constructor
  · intro same
    obtain ⟨line, below, rfl, whole, ends⟩ := exists_line after
    by_cases held : ∃ c ∈ line, pySpace c = false
    · exact .line whole ends held ((endsAlike_line_iff whole ends held).mp same)
    · have spaces := blank_of_not_held whole held
      have blank : ∀ x ∈ line, pySpace x = true := fun x member => (spaces x member).1
      by_cases lower : ∃ c ∈ below, pySpace c = false
      · rw [afterClause_blank spaces ends] at same
        obtain ⟨b, c, cs, rfl, blanks, start⟩ := exists_start lower
        have newline : '\n' ∈ b := by
          cases b with
          | nil =>
            obtain rfl : c = '\n' := of_decide_eq_true ends
            cases start
          | cons x b => exact List.mem_cons.mpr (Or.inl (of_decide_eq_true ends).symm)
        by_cases reached : c = '.' → ¬∃ n, b = List.replicate (n + 1) '\n'
        · have short := @behindClause_short _ b cs c spaces blanks start reached newline
          rcases same with same | ⟨gone, -⟩
          · rw [← same] at short
            exact absurd short (lt_irrefl _)
          · rw [gone c (List.mem_append_right _ List.mem_cons_self)] at start
            cases start
        · obtain ⟨rfl, n, rfl⟩ : c = '.' ∧ ∃ n, b = List.replicate (n + 1) '\n' := by
            push Not at reached
            exact reached
          exact .below spaces n cs
      · refine .blank (List.forall_mem_append.mpr ⟨blank, fun x member => ?_⟩)
        by_contra start
        exact lower ⟨x, member, Bool.eq_false_iff.mpr start⟩
  · intro alike
    cases alike with
    | blank spaces =>
      exact Or.inr ⟨fun c member => spaces c ((afterClause_suffix _).subset member),
        fun c member => spaces c ((behindClause_suffix _).subset member)⟩
    | below spaces n cs =>
      rw [afterClause_blank spaces rfl, behindClause, behindRead_below spaces]
      exact Or.inl rfl
    | line whole ends held stops => exact (endsAlike_line_iff whole ends held).mpr stops

theorem stripClause_eq_iff (s : String) : stripClause s = pyRstrip (removeClause s) ↔
    ∀ after, afterMarker s = some after → EndsAlike after := by
  rw [stripClause, removeClause, afterMarker]
  cases splitMarker s.toList with
  | none => exact iff_of_true rfl nofun
  | some parts =>
    obtain ⟨before, after⟩ := parts
    rw [strips_alike_iff]
    exact ⟨fun alike after' same => Option.some.inj same ▸ alike, fun alike => alike after rfl⟩

theorem bare_of_lt {after : List Char}
    (less : (behindClause after).length < (afterClause after).length) :
    ∃ w below, after = w ++ '\n' :: below ∧ ∀ x ∈ w, pySpace x = true ∧ x ≠ '\n' := by
  obtain ⟨line, below, rfl, whole, ends⟩ := exists_line after
  have spaces : ∀ x ∈ line, pySpace x = true ∧ x ≠ '\n' := blank_of_not_held whole fun held =>
    absurd (afterClause_suffix_behind whole ends held).length_le (by omega)
  cases below with
  | nil =>
    rw [afterClause_blank spaces rfl] at less
    cases less
  | cons b below =>
    obtain rfl : b = '\n' := of_decide_eq_true ends
    exact ⟨line, below, rfl, spaces⟩

theorem bare_of_claimed {s : String} (claimed : contains (stripClause s) boundaryMarker = true)
    (same : pyRstrip (removeClause (stripClause s)) = pyRstrip (removeClause s)) :
    ∃ w below, afterMarker s = some (w ++ '\n' :: below) ∧
      ∀ x ∈ w, pySpace x = true ∧ x ≠ '\n' := by
  have shorter := length_removeClause_lt claimed
  have kept := length_rdropWhile_le (p := pySpace) (removeClause (stripClause s)).toList
  rw [← toList_pyRstrip, same, toList_pyRstrip] at kept
  rw [afterMarker]
  cases found : splitMarker s.toList with
  | none =>
    have marked := (contains_iff _ _).mp claimed
    rw [stripClause, found, toList_pyRstrip] at marked
    exact absurd (marked.trans (List.rdropWhile_prefix _ _).isInfix) (splitMarker_eq_none found)
  | some parts =>
    obtain ⟨before, after⟩ := parts
    rcases Nat.lt_or_ge (behindClause after).length (afterClause after).length with less | more
    · obtain ⟨w, below, rfl, spaces⟩ := bare_of_lt less
      exact ⟨w, below, rfl, spaces⟩
    · obtain ⟨bs, split⟩ := List.suffix_of_suffix_length_le (afterClause_suffix after)
        (behindClause_suffix after) more
      have long := length_rdropWhile_append_le (p := pySpace) before bs (afterClause after)
      have taken : (stripClause s).toList = (before ++ afterClause after).rdropWhile pySpace := by
        rw [stripClause, found, toList_pyRstrip, String.toList_ofList]
      have read : (removeClause s).toList = before ++ behindClause after := by
        rw [removeClause, found, String.toList_ofList]
      rw [split, ← taken, ← read] at long
      omega

end Removed

section Entries

theorem pyStrip_stripPart (p : String) : pyStrip (stripPart p) = stripPart p := by
  rw [stripPart, ← String.toList_inj, toList_pyStrip, toList_pyStrip, trimmed_trimmed]

theorem trimmed_subset (cs : List Char) : trimmed cs ⊆ cs := by
  obtain ⟨front, back, whole, -⟩ := exists_trimmed cs
  intro c member
  rw [whole]
  exact List.mem_append_right _ (List.mem_append_left _ member)

theorem stripPart_subset (p : String) : (stripPart p).toList ⊆ p.toList := by
  rw [stripPart, toList_pyStrip, String.toList_ofList]
  intro c member
  have outer := List.mem_reverse.mp (trimmed_subset _ member)
  have inner := (List.dropWhile_sublist _).subset outer
  rw [List.mem_reverse, toList_pyStrip] at inner
  exact trimmed_subset _ inner

theorem splitCommas_parts {s e : String} (member : e ∈ splitCommas s) :
    ',' ∉ e.toList ∧ e.toList ⊆ s.toList := by
  obtain ⟨piece, here, rfl⟩ := List.mem_map.mp member
  rw [String.toList_ofList]
  clear member
  generalize s.toList = cs at here ⊢
  induction cs generalizing piece with
  | nil =>
    rw [List.mem_singleton.mp here]
    exact ⟨List.not_mem_nil, List.Subset.refl _⟩
  | cons c cs ih =>
    rw [List.splitOnP_cons_eq_if_modifyHead] at here
    split at here
    next =>
      rcases List.mem_cons.mp here with rfl | later
      · exact ⟨List.not_mem_nil, List.nil_subset _⟩
      · exact ⟨(ih piece later).1, List.subset_cons_of_subset c (ih piece later).2⟩
    next other =>
      cases pieces : cs.splitOnP (· = ',') with
      | nil => exact absurd pieces (List.splitOnP_ne_nil _ _)
      | cons first rest =>
        rw [pieces] at here ih
        rcases List.mem_cons.mp here with rfl | later
        · obtain ⟨free, sub⟩ := ih first List.mem_cons_self
          have apart : ',' ≠ c := fun same => other (decide_eq_true same.symm)
          exact ⟨fun same => (List.mem_cons.mp same).elim apart free, List.cons_subset_cons c sub⟩
        · have inner := ih piece (List.mem_cons_of_mem first later)
          exact ⟨inner.1, List.subset_cons_of_subset c inner.2⟩

theorem clause_line (cs : List Char) : '\n' ∉ clause cs := by
  induction cs with
  | nil => exact List.not_mem_nil
  | cons c cs ih =>
    rw [clause]
    split
    · exact List.not_mem_nil
    next newline =>
      split
      · exact List.not_mem_nil
      · exact fun member => (List.mem_cons.mp member).elim (fun same => newline same.symm) ih

theorem kept_line {cs : List Char} (line : '\n' ∉ cs) {e : String} (member : e ∈ kept cs) :
    '\n' ∉ e.toList := by
  obtain ⟨p, part, rfl⟩ := List.mem_map.mp (List.mem_filter.mp member).1
  intro inside
  have sub := (splitCommas_parts part).2 (stripPart_subset p inside)
  rw [String.toList_ofList] at sub
  exact line sub

end Entries

section Amended

def declaredEntries (moduleBoundary : String) : List String :=
  ((splitCommas (pyStrip moduleBoundary)).map stripPart).filter isBoundaryPath

variable {py : Stdlib} {present : String → Bool} {description : Option String}
  {moduleBoundary reason : String} {a : Amendment}

theorem of_amend (ok : amendModuleBoundary py present description moduleBoundary reason = .ok a) :
    a.moduleBoundary = declaredEntries moduleBoundary ∧ a.moduleBoundary ≠ [] ∧
      a.description = composeModuleBoundary (stripClause (description.getD ""))
        (some (.parts a.moduleBoundary)) := by
  have usable : (((splitCommas (pyStrip moduleBoundary)).map stripPart).filter (· ≠ "")).filter
      isBoundaryPath = declaredEntries moduleBoundary := by
    rw [List.filter_filter, declaredEntries]
    apply List.filter_congr
    intro e _
    cases path : isBoundaryPath e with
    | false => rfl
    | true =>
      rw [Bool.true_and]
      exact decide_eq_true fun empty => ne_nil_of_path path (String.toList_eq_nil_iff.mpr empty)
  rw [amendModuleBoundary] at ok
  simp only [usable] at ok
  split at ok
  · simp only [reduceCtorEq] at ok
  · split at ok
    · simp only [reduceCtorEq] at ok
    · split at ok
      · simp only [reduceCtorEq] at ok
      · split at ok
        · simp only [reduceCtorEq] at ok
        next some =>
          split at ok
          · simp only [reduceCtorEq] at ok
          · have stored := Except.ok.inj ok
            have entries := congrArg Amendment.moduleBoundary stored
            have text := congrArg Amendment.description stored
            dsimp only at entries text
            rw [← text, ← entries]
            exact ⟨rfl, some, rfl⟩

theorem declaredEntries_fit {e : String} (member : e ∈ declaredEntries moduleBoundary) :
    isBoundaryPath e = true ∧ ',' ∉ e.toList ∧ pyStrip e = e := by
  obtain ⟨part, path⟩ := List.mem_filter.mp member
  obtain ⟨p, here, rfl⟩ := List.mem_map.mp part
  refine ⟨path, ?_, pyStrip_stripPart p⟩
  intro comma
  exact (splitCommas_parts here).1 (stripPart_subset p comma)

theorem joined_goes {es : List String} (some : es ≠ [])
    (plain : ∀ e ∈ es, Continues e.toList ∧ '\n' ∉ e.toList) :
    ∃ us, joined es = us ++ ['.'] ∧ Continues us ∧ '\n' ∉ us := by
  induction es with
  | nil => exact absurd rfl some
  | cons e es ih =>
    obtain ⟨⟨goes, line⟩, others⟩ := List.forall_mem_cons.mp plain
    cases es with
    | nil => exact ⟨e.toList, rfl, goes, line⟩
    | cons f es =>
      obtain ⟨us, split, later, below⟩ := ih (List.cons_ne_nil f es) others
      refine ⟨e.toList ++ ',' :: ' ' :: us, ?_, goes.append ((later.cons ?_).cons ?_), ?_⟩
      · rw [joined, split, List.append_assoc]
        rfl
      · intro same
        cases same
      · intro same
        cases same
      · simp [line, below]

theorem removeClause_compose {text : String} {entries : List String}
    (rstripped : pyRstrip text = text) (unclaimed : contains text boundaryMarker = false)
    (some : entries ≠ []) (paths : ∀ e ∈ entries, isBoundaryPath e = true)
    (stripped : ∀ e ∈ entries, pyStrip e = e)
    (plain : ∀ e ∈ entries, Continues e.toList ∧ '\n' ∉ e.toList) :
    pyRstrip (removeClause (composeModuleBoundary text (.some (.parts entries)))) = text := by
  have found := splitMarker_append (before_unclaimed unclaimed
    (boundaryMarker.toList ++ ' ' :: joined entries))
  have gone : behindClause (' ' :: joined entries) = [] := by
    obtain ⟨us, split, goes, line⟩ := joined_goes some plain
    have rest : behindRead (' ' :: us ++ ['.']) = ['.'] :=
      behindRead_append (by simp [line]) (goes.cons nofun) (by simp) (clause_dot_of_stop rfl)
        (Or.inl ⟨List.cons_ne_nil _ _, rfl⟩)
    rw [split, ← List.cons_append, behindClause, rest]
    rfl
  rw [removeClause, compose_eq unclaimed some paths stripped, found]
  dsimp only
  rw [gone, List.append_nil, ← String.toList_inj, toList_pyRstrip, String.toList_ofList, before,
    rstripped]
  split
  next empty => rw [empty]; rfl
  next =>
    have blank : (text.toList ++ ['\n', '\n']).rdropWhile pySpace =
        text.toList.rdropWhile pySpace := by
      rw [List.rdropWhile, List.reverse_append]
      rfl
    rw [blank, ← toList_pyRstrip, rstripped]

/-- The clause is taken away as it is read, no other keyword is left, and the entries are written as
one clause. -/
structure Rewritten (description moduleBoundary : String) : Prop where
  sole : contains (stripClause description) boundaryMarker = false
  alike : ∀ after, afterMarker description = some after → EndsAlike after
  plain : ∀ e ∈ declaredEntries moduleBoundary, Continues e.toList ∧ '\n' ∉ e.toList

/-- The keyword stands alone on its line, and the text below it is what is asked for as it is. -/
structure Standing (description moduleBoundary : String) : Prop where
  left : contains (stripClause description) boundaryMarker = true
  bare : ∃ w below, afterMarker description = some (w ++ '\n' :: below) ∧
    ∀ x ∈ w, pySpace x = true ∧ x ≠ '\n'
  declared : boundaryGlobs (stripClause description) = declaredEntries moduleBoundary
  text : pyRstrip (removeClause (stripClause description)) = pyRstrip (removeClause description)

/-- An amendment that is accepted replaces the boundary and nothing else exactly where the clause is
rewritten, or has nothing to be written. -/
theorem amend_replaces_iff
    (ok : amendModuleBoundary py present description moduleBoundary reason = .ok a) :
    (boundaryGlobs a.description = a.moduleBoundary ∧
      pyRstrip (removeClause a.description) = pyRstrip (removeClause (description.getD ""))) ↔
    Rewritten (description.getD "") moduleBoundary ∨
      Standing (description.getD "") moduleBoundary := by
  obtain ⟨entries, some, stored⟩ := of_amend ok
  have rstripped := stripClause_rstripped (description.getD "")
  have fits := fun e (member : e ∈ a.moduleBoundary) => declaredEntries_fit (entries ▸ member)
  have paths := fun e member => (fits e member).1
  have stripped := fun e member => (fits e member).2.2
  cases claimed : contains (stripClause (description.getD "")) boundaryMarker with
  | true =>
    -- The clause that is left stays in the way, and nothing is written.
    have left : a.description = stripClause (description.getD "") := by
      rw [stored, composeModuleBoundary]
      exact if_pos (Or.inr (Or.inl claimed))
    rw [left, entries]
    constructor
    · rintro ⟨globs, same⟩
      exact Or.inr ⟨claimed, bare_of_claimed claimed same, globs, same⟩
    · rintro (rewritten | standing)
      · rw [rewritten.sole] at claimed
        cases claimed
      · exact ⟨standing.declared, standing.text⟩
  | false =>
    have written := fun plain => removeClause_compose rstripped claimed some paths stripped plain
    have read := fun (line : ∀ e ∈ a.moduleBoundary, '\n' ∉ e.toList) =>
      kept_joined_iff some fun e (member : e ∈ a.moduleBoundary) =>
        Entry.mk (paths e member) (fits e member).2.1 (line e member) (stripped e member)
    rw [stored, boundaryGlobs_compose claimed some paths stripped]
    constructor
    · rintro ⟨globs, same⟩
      have line : ∀ e ∈ a.moduleBoundary, '\n' ∉ e.toList :=
        fun e member => kept_line (clause_line _) (globs ▸ member)
      have continues := (read line).mp globs
      have plain := fun e member => And.intro (continues e member) (line e member)
      rw [written plain] at same
      exact Or.inl ⟨claimed, (stripClause_eq_iff _).mp same, entries ▸ plain⟩
    · rintro (rewritten | standing)
      · have plain := entries ▸ rewritten.plain
        refine ⟨?_, (written plain).trans ((stripClause_eq_iff _).mpr rewritten.alike)⟩
        exact (read fun e member => (plain e member).2).mpr fun e member => (plain e member).1
      · rw [standing.left] at claimed
        cases claimed

/-- A library that reads a clause as `re.search` does. -/
def readingStdlib : Stdlib where
  __ := bareStdlib
  search _ description := (clauseOf description).map fun clause => [String.ofList clause]

theorem amend_replaces_docs : ∃ a, amendModuleBoundary readingStdlib (fun _ => true)
    (some "Module boundary: a/b. More.") "docs" "the tests have moved to docs since" = .ok a ∧
      ((boundaryGlobs a.description = a.moduleBoundary ∧
        pyRstrip (removeClause a.description) =
          pyRstrip (removeClause "Module boundary: a/b. More.")) ↔
        Rewritten "Module boundary: a/b. More." "docs" ∨
          Standing "Module boundary: a/b. More." "docs") := by
  have accepts : (amendModuleBoundary readingStdlib (fun _ => true)
      (some "Module boundary: a/b. More.") "docs" "the tests have moved to docs since").isOk =
      true := by decide +kernel
  cases ok : amendModuleBoundary readingStdlib (fun _ => true)
      (some "Module boundary: a/b. More.") "docs" "the tests have moved to docs since" with
  | error why =>
    rw [ok] at accepts
    cases accepts
  | ok a =>
    have replaces := amend_replaces_iff ok
    rw [Option.getD_some] at replaces
    exact ⟨a, rfl, replaces⟩

/-- A second clause stays, and the new boundary is not written. -/
theorem second_clause_stays :
    ¬∀ (py : Stdlib) (present : String → Bool) (description : Option String)
    (moduleBoundary reason : String) (a : Amendment),
    amendModuleBoundary py present description moduleBoundary reason = .ok a →
      boundaryGlobs a.description = a.moduleBoundary := by
  intro all
  have run : (amendModuleBoundary readingStdlib (fun _ => true)
      (some "Module boundary: a. Module boundary: b.") "docs"
      "the tests have moved to docs since").toOption.map
        (fun a => (boundaryGlobs a.description, a.moduleBoundary)) = some (["b"], ["docs"]) := by
    decide +kernel
  obtain ⟨a, accepted, both⟩ := Option.map_eq_some_iff.mp run
  have ok := toOption_eq_some.mp accepted
  rw [Prod.mk.injEq] at both
  have globs := all _ _ _ _ _ a ok
  rw [both.1, both.2] at globs
  exact absurd globs (by decide)

end Amended

end DreamStudio.Boundaries
