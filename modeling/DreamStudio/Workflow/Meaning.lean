import DreamStudio.Workflow.Conditions

namespace DreamStudio.Workflow

open Library

section Syntax

def reserved : List Char := ['{', '}', '=', '<', '>', '!']

/-- Text that holds no mark, and references whose names hold no brace; these may hold operators. -/
def PlainPiece : Piece Char → Prop
  | .lit c => c ∉ reserved
  | .ref r => r ≠ [] ∧ '{' ∉ r ∧ '}' ∉ r ∧ '\n' ∉ r

structure Side where
  pieces : List (Piece Char)
  plain : ∀ p ∈ pieces, PlainPiece p

inductive Condition
  | holds (side : Side)
  | compare (op : Operator) (left right : Side)

def Side.text (side : Side) : List Char := braces.render side.pieces

def Condition.text : Condition → List Char
  | .holds side => side.text
  | .compare op left right => left.text ++ (op.text ++ right.text)

end Syntax

section Meaning

variable {ν : Type} (num : Numerals ν) (lookup : List Char → Option (List Char))

def pieceValue : Piece Char → Option (List Char)
  | .lit c => some [c]
  | .ref r => lookup r

/-- The text of a side with its references replaced; a side has none where a reference is missing,
or where marks stand in what the references bring. -/
def Side.value (side : Side) : Option (List Char) :=
  (((side.pieces.mapM (pieceValue lookup)).map List.flatten).filter (!marked ·)).map trimmed

def Condition.meaning : Condition → Bool
  | .holds side => (side.value lookup).any (· ≠ [])
  | .compare op left right =>
    (left.value lookup).any fun l => (right.value lookup).any fun r =>
      DreamStudio.Workflow.compare num op (coerce num l) (coerce num r)

end Meaning

section Depth

variable {before r s t : List Char} {c : Char}

def Closed (before : List Char) : Prop := Level before ∧ ∀ c ∈ before.getLast?, c ≠ '{'

theorem closed_nil : Closed [] := ⟨rfl, by simp⟩

theorem Closed.lits (closed : Closed before) (opens : '{' ∉ s) (closes : '}' ∉ s) :
    Closed (before ++ s) := by
  constructor
  · have front (c : Char) (free : c ∉ s) : Apart [c, c] before s := by
      apply Or.inl
      intro x first inside
      have same : x = c := by simpa using inside
      exact free (same ▸ List.mem_of_mem_head? first)
    rw [Level, occurrences_append (Nat.zero_le _) (front '{' opens),
      occurrences_append (Nat.zero_le _) (front '}' closes),
      occurrences_eq_zero List.mem_cons_self opens, occurrences_eq_zero List.mem_cons_self closes]
    exact closed.1
  · intro c last same
    rw [List.getLast?_append, Option.mem_def, Option.or_eq_some_iff] at last
    obtain last | ⟨-, last⟩ := last
    · exact opens (same ▸ List.mem_of_getLast? last)
    · exact closed.2 c last same

theorem Closed.inside (closed : Closed before) (opens : '{' ∉ r) (closes : '}' ∉ r) :
    occurrences ['{', '{'] 0 (before ++ '{' :: '{' :: r) =
      occurrences ['}', '}'] 0 (before ++ '{' :: '{' :: r) + 1 := by
  have front : Apart ['{', '{'] before ('{' :: '{' :: r) := by
    apply Or.inr
    intro c last inside
    exact closed.2 c last (by simpa using inside)
  have behind : Apart ['}', '}'] before ('{' :: '{' :: r) := by
    apply Or.inl
    simp
  have one : occurrences ['{', '{'] 0 ('{' :: '{' :: r) = 1 := by
    rw [occurrences_cons_of_here ⟨r, rfl⟩]
    exact congrArg (· + 1) (occurrences_eq_zero List.mem_cons_self opens)
  have none : occurrences ['}', '}'] 0 ('{' :: '{' :: r) = 0 := by
    apply occurrences_eq_zero List.mem_cons_self
    simpa using closes
  rw [occurrences_append (Nat.zero_le _) front, occurrences_append (Nat.zero_le _) behind, one,
    none, Nat.add_zero]
  exact congrArg (· + 1) closed.1

theorem Closed.not_level (closed : Closed before) (opens : '{' ∉ r) (closes : '}' ∉ r) :
    ¬Level (before ++ '{' :: '{' :: r) := by
  intro level
  have more := closed.inside opens closes
  rw [level] at more
  exact Nat.succ_ne_self _ more.symm

theorem Closed.ref (closed : Closed before) (filled : r ≠ []) (opens : '{' ∉ r) (closes : '}' ∉ r) :
    Closed (before ++ '{' :: '{' :: r ++ ['}', '}']) := by
  constructor
  · have front : Apart ['{', '{'] (before ++ '{' :: '{' :: r) ['}', '}'] := by
      apply Or.inl
      simp
    have behind : Apart ['}', '}'] (before ++ '{' :: '{' :: r) ['}', '}'] := by
      apply Or.inr
      intro c last inside
      have same : c = '}' := by simpa using inside
      have end_r : (before ++ '{' :: '{' :: r).getLast? = r.getLast? := by
        rw [show before ++ '{' :: '{' :: r = (before ++ ['{', '{']) ++ r by simp,
          List.getLast?_append_of_ne_nil _ filled]
      rw [end_r] at last
      exact closes (same ▸ List.mem_of_getLast? last)
    have more := closed.inside opens closes
    rw [Level, occurrences_append (Nat.zero_le _) front, occurrences_append (Nat.zero_le _) behind,
      more]
    rfl
  · rw [List.getLast?_append_of_ne_nil _ (List.cons_ne_nil _ _)]
    simp

end Depth

section Walk

variable {before op s t : List Char} {c : Char}

theorem topLevel_cons (other : ¬(op <+: c :: t ∧ Level before)) :
    topLevel op before (c :: t) = topLevel op (before ++ [c]) t :=
  if_neg fun here => other ⟨List.isPrefixOf_iff_prefix.mp here.1, here.2⟩

theorem topLevel_append (quiet : ∀ front c rest, s = front ++ c :: rest →
      ¬(op <+: c :: (rest ++ t) ∧ Level (before ++ front))) :
    topLevel op before (s ++ t) = topLevel op (before ++ s) t := by
  induction s generalizing before with
  | nil => rw [List.append_nil, List.nil_append]
  | cons c s ih =>
    have here := quiet [] c s rfl
    rw [List.append_nil] at here
    rw [List.cons_append, topLevel_cons here, ih, List.append_assoc]
    · rfl
    · intro front d rest same
      have later := quiet (c :: front) d rest (congrArg (c :: ·) same)
      rwa [List.append_assoc]

theorem Operator.head_mem (o : Operator) :
    ∀ c ∈ o.text.head?, c ∈ reserved ∧ c ≠ '{' ∧ c ≠ '}' := by
  cases o <;> simp [Operator.text, reserved]

theorem Operator.not_prefix (o : Operator) (other : ∀ x ∈ o.text.head?, x ≠ c) :
    ¬o.text <+: c :: t := by
  intro here
  cases o <;> exact other _ rfl (List.cons_prefix_cons.mp here).1

theorem topLevel_other (o : Operator) (other : ∀ x ∈ o.text.head?, x ≠ c) :
    topLevel o.text before (c :: t) = topLevel o.text (before ++ [c]) t :=
  topLevel_cons fun here => o.not_prefix other here.1

theorem topLevel_ref (o : Operator) (closed : Closed before) (opens : '{' ∉ s) (closes : '}' ∉ s) :
    topLevel o.text before (braces.text (.ref s) ++ t) =
      topLevel o.text (before ++ braces.text (.ref s)) t := by
  have brace (c : Char) (is : c = '{' ∨ c = '}') : ∀ x ∈ o.text.head?, x ≠ c := by
    rintro x first rfl
    exact is.elim (o.head_mem x first).2.1 (o.head_mem x first).2.2
  have quiet : ∀ front c rest, s = front ++ c :: rest →
      ¬(o.text <+: c :: (rest ++ '}' :: '}' :: t) ∧ Level (before ++ ['{'] ++ ['{'] ++ front)) := by
    rintro front c rest rfl ⟨-, level⟩
    rw [List.mem_append, not_or] at opens closes
    rw [List.append_assoc, List.append_assoc] at level
    exact closed.not_level opens.1 closes.1 level
  have shape : braces.text (.ref s) ++ t = '{' :: '{' :: (s ++ '}' :: '}' :: t) := by
    simp [Marks.text, braces]
  rw [shape, topLevel_other o (brace '{' (.inl rfl)), topLevel_other o (brace '{' (.inl rfl)),
    topLevel_append quiet, topLevel_other o (brace '}' (.inr rfl)),
    topLevel_other o (brace '}' (.inr rfl))]
  simp [Marks.text, braces]

theorem topLevel_render (o : Operator) {ps : List (Piece Char)} (plain : ∀ p ∈ ps, PlainPiece p)
    (closed : Closed before) :
    topLevel o.text before (braces.render ps ++ t) =
      topLevel o.text (before ++ braces.render ps) t ∧ Closed (before ++ braces.render ps) := by
  induction ps generalizing before with
  | nil =>
    rw [Marks.render_nil, List.append_nil]
    exact ⟨rfl, closed⟩
  | cons p ps ih =>
    rw [List.forall_mem_cons] at plain
    have step : topLevel o.text before (braces.text p ++ (braces.render ps ++ t)) =
        topLevel o.text (before ++ braces.text p) (braces.render ps ++ t) ∧
          Closed (before ++ braces.text p) := by
      cases p with
      | lit c =>
        have free : c ∉ reserved := plain.1
        constructor
        · apply topLevel_other
          rintro x first rfl
          exact free (o.head_mem x first).1
        · apply closed.lits
          · intro inside
            exact free (List.mem_singleton.mp inside ▸ by decide)
          · intro inside
            exact free (List.mem_singleton.mp inside ▸ by decide)
      | ref r =>
        obtain ⟨filled, opens, closes, -⟩ := plain.1
        exact ⟨topLevel_ref o closed opens closes, by
          simpa [Marks.text, braces] using closed.ref filled opens closes⟩
    obtain ⟨on, closed⟩ := ih plain.2 step.2
    rw [Marks.render_cons, List.append_assoc, step.1, on, List.append_assoc]
    rw [List.append_assoc] at closed
    exact ⟨rfl, closed⟩

end Walk

section Split

variable {before s t : List Char}

def earlier (op : Operator) : List Operator := operators.takeWhile (· ≠ op)

theorem topLevel_found (op : Operator) (level : Level before) :
    topLevel op.text before (op.text ++ t) = some (before, t) := by
  cases op <;> simp [topLevel, Operator.text, level]

theorem earlier_apart (op : Operator) : ∀ o ∈ earlier op, ∀ s ∈ op.text.tails, s ≠ [] →
    ¬o.text <+: s := by
  cases op <;> decide

theorem topLevel_earlier {op o : Operator} (before_op : o ∈ earlier op)
    (next : ∀ x ∈ t.head?, x ∉ o.text) :
    topLevel o.text before (op.text ++ t) = topLevel o.text (before ++ op.text) t := by
  apply topLevel_append
  rintro front c rest same ⟨here, -⟩
  have within : o.text <+: c :: rest := by
    rw [← List.cons_append] at here
    exact (prefix_append_iff next).mp here
  have tail : c :: rest ∈ op.text.tails := (List.mem_tails _ _).mpr ⟨front, same.symm⟩
  exact earlier_apart op o before_op _ tail (List.cons_ne_nil c rest) within

theorem Operator.mem_reserved (o : Operator) : ∀ x ∈ o.text, x ∈ reserved ∧ x ≠ '{' ∧ x ≠ '}' := by
  cases o <;> simp [Operator.text, reserved]

theorem Operator.text_ne_nil (o : Operator) :
    o.text ≠ [] := by cases o <;> exact List.cons_ne_nil _ _

theorem Side.head_not_mem (side : Side) (o : Operator) : ∀ x ∈ side.text.head?, x ∉ o.text := by
  intro x first inside
  obtain ⟨marks, opens, -⟩ := o.mem_reserved x inside
  rw [Side.text] at first
  cases whole : side.pieces with
  | nil =>
    rw [whole] at first
    cases first
  | cons p ps =>
    have plain := side.plain p (whole ▸ List.mem_cons_self)
    rw [whole] at first
    cases p with
    | lit c =>
      cases first
      exact plain marks
    | ref r =>
      cases first
      exact opens rfl

theorem topLevel_side (o : Operator) (side : Side) (closed : Closed before) :
    topLevel o.text before side.text = none := by
  obtain ⟨on, -⟩ := topLevel_render o side.plain closed (t := [])
  rw [List.append_nil] at on
  exact on

theorem split_side (side : Side) : split side.text = none := by
  apply List.findSome?_eq_none_iff.mpr
  intro o member
  rw [topLevel_side o side closed_nil]
  rfl

theorem split_compare (op : Operator) (left right : Side) :
    split (left.text ++ (op.text ++ right.text)) = some ⟨op, left.text, right.text⟩ := by
  apply List.findSome?_eq_some_iff.mpr
  refine ⟨earlier op, op, (operators.dropWhile (· ≠ op)).tail, ?_, ?_, ?_⟩
  · cases op <;> rfl
  · obtain ⟨on, closed⟩ := topLevel_render op left.plain closed_nil (t := op.text ++ right.text)
    rw [Side.text, on, topLevel_found op closed.1]
    rfl
  · intro o member
    obtain ⟨on, closed⟩ := topLevel_render o left.plain closed_nil (t := op.text ++ right.text)
    have past : Closed (braces.render left.pieces ++ op.text) := by
      apply closed.lits
      · exact fun inside => (op.mem_reserved _ inside).2.1 rfl
      · exact fun inside => (op.mem_reserved _ inside).2.2 rfl
    rw [Side.text, on, topLevel_earlier member (right.head_not_mem o), List.nil_append,
      topLevel_side o right past]
    rfl

end Split

section Reading

variable {lookup : List Char → Option (List Char)} {ps : List (Piece Char)} {s : List Char}

/-- What `evaluate` takes from a text, where everything in it is resolved. -/
def reading (lookup : List Char → Option (List Char)) (s : List Char) : Option (List Char) :=
  if (resolve lookup s).2 then none else some (trimmed (resolve lookup s).1)

/-- `_replace` of `_resolve`: a missing reference brings nothing. -/
def brought (lookup : List Char → Option (List Char)) (r : List Char) : Option (List Char) :=
  some ((lookup r).getD [])

theorem PlainPiece.bare {p : Piece Char} (plain : PlainPiece p) : braces.Bare p := by
  cases p with
  | lit c =>
    constructor
    · rintro rfl
      exact plain (by decide)
    · rintro rfl
      exact plain (by decide)
  | ref r =>
    obtain ⟨filled, opens, closes, lines⟩ := plain
    refine ⟨filled, opens, closes, ?_⟩
    rintro c inside
    apply decide_eq_false
    rintro rfl
    exact lines inside

theorem resolve_render (lookup : List Char → Option (List Char)) (settled : braces.Settled ps) :
    resolve lookup (braces.render ps) =
      (braces.render (Marks.fill (brought lookup) ps),
        ps.any (missing lookup) || marked (braces.render (Marks.fill (brought lookup) ps))) := by
  rw [resolve, Marks.substitute, Marks.pieces_render settled]
  rfl

theorem mapM_pieceValue (ps : List (Piece Char)) :
    (ps.mapM (pieceValue lookup)).map List.flatten =
      if ps.any (missing lookup) then none
      else some (braces.render (Marks.fill (brought lookup) ps)) := by
  induction ps with
  | nil => rfl
  | cons p ps ih =>
    have bind : ((p :: ps).mapM (pieceValue lookup)).map List.flatten =
        (pieceValue lookup p).bind fun v =>
          ((ps.mapM (pieceValue lookup)).map List.flatten).map (v ++ ·) := by
      rw [List.mapM_cons]
      cases pieceValue lookup p with
      | none => rfl
      | some v => cases ps.mapM (pieceValue lookup) <;> rfl
    rw [bind, ih, List.any_cons]
    cases p with
    | lit c =>
      cases h : ps.any (missing lookup) <;> simp [pieceValue, missing, Marks.fill_lit, Marks.text]
    | ref r =>
      cases known : lookup r with
      | none => simp [pieceValue, missing, known]
      | some v =>
        cases h : ps.any (missing lookup) <;>
          simp [pieceValue, missing, Marks.fill_ref, brought, known, Marks.render_map_lit]

theorem reading_text (side : Side) : reading lookup side.text = side.value lookup := by
  have settled : braces.Settled side.pieces :=
    Marks.settled_bare fun p member => (side.plain p member).bare
  rw [reading, Side.text, resolve_render lookup settled, Side.value, mapM_pieceValue]
  cases side.pieces.any (missing lookup) with
  | true => rfl
  | false =>
    cases h : marked (braces.render (Marks.fill (brought lookup) side.pieces)) <;>
      simp [Option.filter, h]

theorem ne_of_pySpace {c : Char} (blank : pySpace c = true) : c ≠ '{' ∧ c ≠ '}' := by
  constructor
  · rintro rfl
    cases blank
  · rintro rfl
    cases blank

theorem trimmed_blank_append {front : List Char} (blank : ∀ c ∈ front, pySpace c = true)
    (s : List Char) :
    trimmed (front ++ s) = trimmed s := by
  rw [trimmed, List.dropWhile_append_of_pos blank]
  rfl

theorem marked_blank {front back : List Char} (blank : ∀ c ∈ front, pySpace c = true)
    (blank' : ∀ c ∈ back, pySpace c = true) (s : List Char) :
    marked (front ++ (s ++ back)) = marked s := by
  have same (c : Char) (other : ∀ d, pySpace d = true → d ≠ c) :
      occurrences [c, c] 0 (front ++ (s ++ back)) = occurrences [c, c] 0 s := by
    have free : c ∉ front := fun inside => other c (blank c inside) rfl
    have free' : c ∉ back := fun inside => other c (blank' c inside) rfl
    have apart : Apart [c, c] front (s ++ back) := by
      apply Or.inr
      intro d last inside
      have same : d = c := by simpa using inside
      exact free (same ▸ List.mem_of_getLast? last)
    have apart' : Apart [c, c] s back := by
      apply Or.inl
      intro d first inside
      have same : d = c := by simpa using inside
      exact free' (same ▸ List.mem_of_mem_head? first)
    rw [occurrences_append (Nat.zero_le _) apart, occurrences_append (Nat.zero_le _) apart',
      occurrences_eq_zero List.mem_cons_self free, occurrences_eq_zero List.mem_cons_self free',
      Nat.zero_add, Nat.add_zero]
  rw [marked, marked, same '{' fun d blank => (ne_of_pySpace blank).1,
    same '}' fun d blank => (ne_of_pySpace blank).2]

theorem reading_trimmed (s : List Char) : reading lookup (trimmed s) = reading lookup s := by
  obtain ⟨front, back, whole, blank, blank'⟩ := exists_trimmed s
  have opens : '{' ∉ front ∧ '{' ∉ back := ⟨fun inside => (ne_of_pySpace (blank _ inside)).1 rfl,
    fun inside => (ne_of_pySpace (blank' _ inside)).1 rfl⟩
  have closes : '}' ∉ back := fun inside => (ne_of_pySpace (blank' _ inside)).2 rfl
  obtain ⟨settled, text⟩ := Marks.settled_pieces (m := braces) (trimmed s)
  have around := Marks.settled_lits opens.1 (Marks.settled_append_lits opens.2 closes settled)
  have inner := resolve_render lookup settled
  have outer := resolve_render lookup around
  rw [text] at inner
  rw [Marks.render_append, Marks.render_append, Marks.render_map_lit, Marks.render_map_lit, text,
    ← whole, Marks.fill_append, Marks.fill_append, Marks.fill_map_lit, Marks.fill_map_lit,
    Marks.render_append, Marks.render_append, Marks.render_map_lit, Marks.render_map_lit,
    marked_blank blank blank', List.any_append, List.any_append] at outer
  have bare (cs : List Char) : (cs.map Piece.lit).any (missing lookup) = false := by
    rw [List.any_map]
    exact List.any_eq_false.mpr fun c _ => by simp [missing]
  rw [bare, bare, Bool.false_or, Bool.or_false] at outer
  rw [reading, reading, inner, outer, trimmed_blank_append blank, trimmed_append_blank blank']

end Reading

section Evaluate

variable {ν : Type} (num : Numerals ν) (lookup : List Char → Option (List Char))

theorem evaluate_of_split {expr : List Char} {sides : Split} (splits : split expr = some sides) :
    evaluate num lookup expr = (reading lookup sides.left).any fun l =>
      (reading lookup sides.right).any fun r =>
        compare num sides.op (coerce num l) (coerce num r) := by
  rw [evaluate, splits, ← reading_trimmed sides.left, ← reading_trimmed sides.right, reading,
    reading]
  cases h : (resolve lookup (trimmed sides.left)).2 <;>
    cases h' : (resolve lookup (trimmed sides.right)).2 <;> simp [h, h']

theorem evaluate_of_whole {expr : List Char} (whole : split expr = none) :
    evaluate num lookup expr = (reading lookup expr).any (· ≠ []) := by
  rw [evaluate, whole, reading]
  cases h : (resolve lookup expr).2 <;> simp [h]

/-- The interpreter gives every condition its meaning, whatever the nodes wrote: no output is read
as an operator, as a reference or as the other side. -/
theorem evaluate_text (condition : Condition) :
    evaluate num lookup condition.text = condition.meaning num lookup := by
  cases condition with
  | holds side => rw [Condition.text, evaluate_of_whole num lookup (split_side side), reading_text,
      Condition.meaning]
  | compare op left right =>
    rw [Condition.text, evaluate_of_split num lookup (split_compare op left right), reading_text,
      reading_text, Condition.meaning]

end Evaluate

section Missing

variable {lookup : List Char → Option (List Char)} {ps : List (Piece Char)}
  {before expr left right s op : List Char} {c : Char}

theorem exists_of_topLevel (found : topLevel op before s = some (left, right)) :
    ∃ rest, left = before ++ rest ∧ s = rest ++ (op ++ right) := by
  induction s generalizing before with
  | nil => cases found
  | cons c s ih =>
    rw [topLevel] at found
    split at found
    next here =>
      cases found
      obtain ⟨rest, whole⟩ := List.isPrefixOf_iff_prefix.mp here.1
      refine ⟨[], (List.append_nil _).symm, ?_⟩
      rw [List.nil_append, ← whole, List.drop_left]
    next =>
      obtain ⟨rest, rfl, rfl⟩ := ih found
      exact ⟨c :: rest, by simp, rfl⟩

theorem exists_of_split {sides : Split} (found : split expr = some sides) :
    expr = sides.left ++ (sides.op.text ++ sides.right) := by
  obtain ⟨op, -, here⟩ := List.exists_of_findSome?_eq_some found
  obtain ⟨⟨left, right⟩, place, rfl⟩ := Option.map_eq_some_iff.mp here
  obtain ⟨rest, rfl, whole⟩ := exists_of_topLevel place
  exact whole

theorem reading_of_missing {r : List Char} (settled : braces.Settled ps) (member : .ref r ∈ ps)
    (unknown : lookup r = none) : reading lookup (braces.render ps) = none := by
  have some_missing : ps.any (missing lookup) = true :=
    List.any_eq_true.mpr ⟨.ref r, member, by simp [missing, unknown]⟩
  rw [reading, resolve_render lookup settled, some_missing]
  rfl

theorem reading_unclosed {qs : List (Piece Char)} {r r' : List Char}
    (settled : braces.Settled (ps ++ .ref (r ++ c :: r') :: qs)) :
    reading lookup (braces.render ps ++ '{' :: '{' :: r) = none := by
  have alone : braces.Settled (ps ++ .lit '{' :: .lit '{' :: braces.pieces 0 r) :=
    Marks.settled_unclosed settled
  have text : braces.render (ps ++ .lit '{' :: .lit '{' :: braces.pieces 0 r) =
      braces.render ps ++ '{' :: '{' :: r := by
    rw [Marks.render_append, Marks.render_cons, Marks.render_cons, (Marks.settled_pieces r).2]
    rfl
  have open_marks : marked (braces.render (Marks.fill (brought lookup)
      (ps ++ .lit '{' :: .lit '{' :: braces.pieces 0 r))) = true := by
    have inside : ['{', '{'] <:+: braces.render (Marks.fill (brought lookup)
        (ps ++ .lit '{' :: .lit '{' :: braces.pieces 0 r)) := by
      rw [Marks.fill_append, Marks.fill_lit, Marks.fill_lit, Marks.render_append]
      exact ⟨_, _, List.append_assoc _ _ _⟩
    have counted := occurrences_ne_zero (List.cons_ne_nil _ _) inside
    simp [marked, counted]
  rw [← text, reading, resolve_render lookup alone, open_marks, Bool.or_true]
  rfl

theorem evaluate_of_missing {ν : Type} (num : Numerals ν) {r : List Char}
    (member : .ref r ∈ braces.pieces 0 expr) (unknown : lookup r = none) :
    evaluate num lookup expr = false := by
  obtain ⟨settled, text⟩ := Marks.settled_pieces (m := braces) expr
  generalize braces.pieces 0 expr = ps at member settled text
  cases splits : split expr with
  | none =>
    rw [evaluate_of_whole num lookup splits, ← text, reading_of_missing settled member unknown]
    rfl
  | some sides =>
    rw [evaluate_of_split num lookup splits]
    have nowhere (none : reading lookup sides.left = none ∨ reading lookup sides.right = none) :
        ((reading lookup sides.left).any fun l => (reading lookup sides.right).any fun r =>
          compare num sides.op (coerce num l) (coerce num r)) = false := by
      obtain none | none := none
      · rw [none]
        rfl
      · rw [none]
        cases reading lookup sides.left <;> rfl
    apply nowhere
    have whole := text.trans (exists_of_split splits)
    obtain ⟨c, tail, shape⟩ := List.exists_cons_of_ne_nil sides.op.text_ne_nil
    have marks (x : Char) (inside : x ∈ sides.op.text) := (sides.op.mem_reserved x inside).2
    rw [shape] at whole marks
    obtain ⟨front, back, rfl, left, right⟩ | ⟨front, r', back, x, y, rfl, inside, left⟩ :=
      Marks.exists_cut whole
    · have free : '{' ∉ tail := fun inside => (marks _ (List.mem_cons_of_mem c inside)).1 rfl
      obtain ⟨rest, rfl, behind⟩ := Marks.exists_lits_append free right
      have first : braces.Settled front := by
        have alone : braces.Settled (front ++ []) :=
          Marks.settled_append settled List.nil_prefix trivial
        rwa [List.append_nil] at alone
      have past : braces.Settled (tail.map .lit ++ rest) := (Marks.settled_of_append settled).2
      have second : braces.Settled rest := Marks.settled_of_append past
      rw [← left, ← behind]
      rw [List.mem_append, List.mem_cons, List.mem_append] at member
      obtain member | same | alone | member := member
      · exact .inl (reading_of_missing first member unknown)
      · cases same
      · obtain ⟨c, -, same⟩ := List.mem_map.mp alone
        cases same
      · exact .inr (reading_of_missing second member unknown)
    · obtain ⟨opens, closes⟩ := marks c List.mem_cons_self
      obtain ⟨r₁, r₂, rfl, rfl⟩ := Marks.exists_inside opens closes inside
      rw [left]
      exact .inl (reading_unclosed settled)

end Missing

section Nodes

variable {ν : Type} (num : Numerals ν)

/-- A node whose condition refers to a node that the run does not have is never ready: when its turn
comes it is skipped, whatever else its condition says. -/
theorem skipped_of_missing {yaml : YamlNodes} {wf : Run} {id condition : String} {ynode : YamlNode}
    {r : List Char} (unique : (yaml.map (·.1)).Nodup) (listed : (id, ynode) ∈ yaml)
    (turn : due wf (id, ynode) = true) (written : ynode.condition = some condition)
    (member : .ref r ∈ braces.pieces 0 condition.toList) (unknown : wf.resolveRef r = none) :
    id ∈ (computeReadyNodes (evaluateIn num) yaml wf).2 ∧
      id ∉ (computeReadyNodes (evaluateIn num) yaml wf).1 := by
  have filled : condition ≠ "" := by
    rintro rfl
    cases member
  have unmet : ynode.conditionMet (evaluateIn num) wf = false := by
    rw [YamlNode.conditionMet, written]
    simp [filled, evaluateIn, evaluate_of_missing num member unknown]
  constructor
  · apply List.mem_map.mpr
    exact ⟨(id, ynode), List.mem_filter.mpr ⟨listed, by simp [turn, unmet]⟩, rfl⟩
  · intro ready
    obtain ⟨item, inside, same⟩ := List.mem_map.mp ready
    obtain ⟨there, met⟩ := List.mem_filter.mp inside
    have one : item = (id, ynode) := List.inj_on_of_nodup_map unique there listed same
    rw [one, turn, unmet] at met
    cases met

def countingNumbers : Numerals Nat where
  read cs := (String.ofList cs).toNat?
  print n := (toString n).toList
  holds
    | .eq, m, n => m = n
    | .ne, m, n => m ≠ n
    | .gt, m, n => m > n
    | .lt, m, n => m < n
    | .ge, m, n => m ≥ n
    | .le, m, n => m ≤ n
  qualityScore := 0

def remnant : Run where
  workflow := "w"
  started := "t"
  yamlPath := "w.yaml"
  nodes := [("b", {})]

def gated : YamlNode where
  condition := some "{{a.output}} != PASSED"

theorem skipped_of_missing_gated :
    "b" ∈ (computeReadyNodes (evaluateIn countingNumbers) [("b", gated)] remnant).2 ∧
      "b" ∉ (computeReadyNodes (evaluateIn countingNumbers) [("b", gated)] remnant).1 :=
  skipped_of_missing countingNumbers (List.nodup_singleton _) (List.mem_singleton_self _)
    (by decide) rfl (r := "a.output".toList) (by decide +kernel) (by decide +kernel)

/-- Nothing that templates bring from a state of the run holds an opening brace. -/
structure Run.Clean (session : List Char → Option (List Char)) (wf : Run) : Prop where
  nodes : ∀ item ∈ wf.nodes, ∀ field, '{' ∉ (item.2.field field).toList
  workOrderId : '{' ∉ wf.workOrderId.toList
  session : ∀ file, ∀ cs ∈ session file, '{' ∉ cs

theorem Run.Clean.template {session : List Char → Option (List Char)} {wf : Run}
    (clean : wf.Clean session) (r : List Char) : ∀ v ∈ wf.template session r, '{' ∉ v := by
  intro v known
  rw [Run.template] at known
  split at known
  next =>
    obtain ⟨value, found, rfl⟩ := Option.map_eq_some_iff.mp known
    have first : wf.params.get _ = some value := (Option.filter_eq_some_iff.mp found).1
    obtain ⟨item, here, rfl⟩ := Option.map_eq_some_iff.mp first
    have only := List.mem_singleton.mp (List.mem_of_find?_eq_some here)
    rw [only]
    exact clean.workOrderId
  next =>
    split at known
    next => exact clean.session _ v known
    next =>
      obtain ⟨parts, -, found⟩ := Option.bind_eq_some_iff.mp known
      obtain ⟨node, there, rfl⟩ := Option.map_eq_some_iff.mp found
      obtain ⟨item, here, rfl⟩ := Option.map_eq_some_iff.mp there
      exact clean.nodes item (List.mem_of_find?_eq_some here) _

/-- Templates that are resolved in one state of a run and then in another are resolved as if both
had been asked at once, the first one first; a second time in the same state changes nothing. -/
theorem resolveTemplates_again {session : List Char → Option (List Char)} {wf : Run}
    (clean : wf.Clean session) (text : List Char) :
    (∀ (session' : List Char → Option (List Char)) (wf' : Run),
      wf'.resolveTemplates session' (wf.resolveTemplates session text) =
        braces.substitute (fun r => (wf.template session r).or (wf'.template session' r)) text) ∧
      wf.resolveTemplates session (wf.resolveTemplates session text) =
        wf.resolveTemplates session text := by
  have again (g : List Char → Option (List Char)) :=
    Marks.substitute_substitute clean.template g text (m := braces)
  refine ⟨fun session' wf' => again _, (again _).trans ?_⟩
  rw [Run.resolveTemplates]
  simp only [Option.or_self]

theorem resolveTemplates_again_remnant :
    (∀ (session' : List Char → Option (List Char)) (wf' : Run),
      wf'.resolveTemplates session' (remnant.resolveTemplates (fun _ => none)
          "{{b.status}}".toList) =
        braces.substitute
          (fun r => (remnant.template (fun _ => none) r).or (wf'.template session' r))
          "{{b.status}}".toList) ∧
      remnant.resolveTemplates (fun _ => none)
          (remnant.resolveTemplates (fun _ => none) "{{b.status}}".toList) =
        remnant.resolveTemplates (fun _ => none) "{{b.status}}".toList := by
  apply resolveTemplates_again
  constructor
  · intro item member field
    rw [List.mem_singleton.mp member, Node.field]
    repeat' split
    all_goals decide +kernel
  · decide
  · intro file cs known
    cases known

end Nodes

end DreamStudio.Workflow
