import DreamStudio.Hooks.Native
import DreamStudio.Library.Regex

namespace DreamStudio.Boundaries

open Library WorkOrders Hooks.Native Regex

/-- `[^.\n]`. -/
def inline (c : Char) : Bool := c ≠ '.' && c ≠ '\n'

/-- `[a-z]`. -/
def lowercase (c : Char) : Bool := 'a' ≤ c && c ≤ 'z'

/-- `\.[a-z]+[^.\n]*`. -/
def extension : Regex Char :=
  .seq (.one (· = '.')) (.seq (plus (.one lowercase)) (.star (.one inline)))

/-- `[^.\n]+(?:\.[a-z]+[^.\n]*)*`. -/
def sentence : Regex Char := .seq (plus (.one inline)) (.star extension)

/-- `\s*([^.\n]+(?:\.[a-z]+[^.\n]*)*)`. -/
def body : Regex Char := .seq (.star (.one pySpace)) (.group 1 sentence)

/-- `Module boundary:\s*([^.\n]+(?:\.[a-z]+[^.\n]*)*)`. -/
def clausePattern : Regex Char := .seq (literal boundaryMarker.toList) body

/-- The text of the clause, as `re.search` finds it. -/
def clauseOf (description : String) : Option (List Char) :=
  (search clausePattern none description.toList).bind (·.groups.lookup 1)

def partsOf (clause : List Char) : List String := (splitCommas (String.ofList clause)).map stripPart

/-- `boundary_globs` of `enforcement.py`. -/
def boundaryGlobs (description : String) : List String :=
  ((clauseOf description).elim [] partsOf).filter isBoundaryPath

theorem inline_of_lowercase {c : Char} (lower : lowercase c = true) : inline c = true := by
  rw [lowercase, Bool.and_eq_true, decide_eq_true_eq, decide_eq_true_eq] at lower
  rw [inline, Bool.and_eq_true, decide_eq_true_eq, decide_eq_true_eq]
  constructor
  · rintro rfl
    exact absurd lower.1 (by decide)
  · rintro rfl
    exact absurd lower.1 (by decide)

theorem takeWhile_takeWhile {α : Type} {p q : α → Bool} (sub : ∀ a, p a = true → q a = true)
    (xs : List α) :
    (xs.takeWhile p).length + ((xs.drop (xs.takeWhile p).length).takeWhile q).length =
      (xs.takeWhile q).length := by
  induction xs with
  | nil => rfl
  | cons x xs ih =>
    cases here : p x with
    | false =>
      rw [List.takeWhile_cons_of_neg (by simp [here]), List.length_nil, Nat.zero_add,
        List.drop_zero]
    | true =>
      rw [List.takeWhile_cons_of_pos here, List.takeWhile_cons_of_pos (sub x here),
        List.length_cons, List.length_cons,
        List.drop_succ_cons, ← ih]
      omega

section Clause

def Stops (cs : List Char) : Prop := cs.head?.all fun c => !inline c

theorem stops_drop (cs : List Char) : Stops (cs.drop (cs.takeWhile inline).length) := by
  induction cs with
  | nil => rfl
  | cons c cs ih =>
    cases here : inline c with
    | false =>
      rw [List.takeWhile_cons_of_neg (by simp [here])]
      simp [Stops, here]
    | true =>
      rw [List.takeWhile_cons_of_pos here]
      exact ih

theorem inline_of_ne {c : Char} (dot : c ≠ '.') (line : c ≠ '\n') : inline c = true := by
  simp [inline, dot, line]

theorem clause_cons_of_inline {c : Char} (here : inline c = true) (cs : List Char) :
    clause (c :: cs) = c :: clause cs := by
  rw [inline, Bool.and_eq_true, decide_eq_true_eq, decide_eq_true_eq] at here
  rw [clause, if_neg here.2, if_neg fun dot => here.1 dot.1]

theorem clause_dot_of_lowercase {cs : List Char} (goes : cs.head?.any lowercase = true) :
    clause ('.' :: cs) = '.' :: clause cs := by
  rw [clause, if_neg (by decide), if_neg]
  rintro ⟨-, stops⟩
  apply stops
  cases cs with
  | nil => cases goes
  | cons c cs =>
    rw [List.head?_cons, Option.any_some, lowercase, Bool.and_eq_true, decide_eq_true_eq,
      decide_eq_true_eq] at goes
    rw [List.head?_cons, Option.any_some]
    exact decide_eq_true goes

theorem clause_dot_of_stop {cs : List Char} (stops : cs.head?.any lowercase = false) :
    clause ('.' :: cs) = [] := by
  rw [clause, if_neg (by decide), if_pos]
  refine ⟨rfl, fun goes => ?_⟩
  cases cs with
  | nil => cases goes
  | cons c cs =>
    rw [List.head?_cons, Option.any_some, lowercase] at stops
    rw [List.head?_cons, Option.any_some, Bool.decide_and] at goes
    exact absurd (stops.symm.trans goes) Bool.false_ne_true

theorem clause_newline (cs : List Char) : clause ('\n' :: cs) = [] := by rw [clause, if_pos rfl]

theorem clause_eq_inline (cs : List Char) :
    clause cs = cs.takeWhile inline ++ clause (cs.drop (cs.takeWhile inline).length) := by
  induction cs with
  | nil => rfl
  | cons c cs ih =>
    cases here : inline c with
    | false => rw [List.takeWhile_cons_of_neg (by simp [here])]; rfl
    | true => rw [List.takeWhile_cons_of_pos here, clause_cons_of_inline here, ih]; rfl

theorem clause_begins (cs : List Char) : clause cs <+: cs := by
  induction cs with
  | nil => exact List.prefix_rfl
  | cons c cs ih =>
    rw [clause]
    split
    · exact List.nil_prefix
    · split
      · exact List.nil_prefix
      · exact List.cons_prefix_cons.mpr ⟨rfl, ih⟩

end Clause

section Sentence

theorem first_extension {s : Spot Char} {cs : List Char} (ahead : s.ahead = '.' :: cs)
    (goes : cs.head?.any lowercase = true) :
    first extension s = some (s.skip ((cs.takeWhile inline).length + 1)) := by
  have dot : first (.one (· = '.')) s = some s.step := by rw [first, runs_one_of_head ahead]; rfl
  have rest : s.step.ahead = cs := by rw [Spot.step_ahead, ahead]; rfl
  cases cs with
  | nil => cases goes
  | cons c cs =>
    have lower : lowercase c = true := goes
    have letter : first (.one lowercase) s.step = some (s.skip 2) := by
      rw [first, runs_one_of_head rest, if_pos lower]
      rfl
    have ahead₂ : (s.skip 2).ahead = cs := by rw [Spot.skip_ahead, ahead]; rfl
    have letters := first_seq_of_first letter (first_star_one lowercase (s.skip 2))
    rw [← Spot.skip_add, ahead₂] at letters
    have tail := first_star_one inline (s.skip (2 + (cs.takeWhile lowercase).length))
    have ahead₃ : (s.skip (2 + (cs.takeWhile lowercase).length)).ahead =
        cs.drop (cs.takeWhile lowercase).length := by
      rw [Spot.skip_add, Spot.skip_ahead, ahead₂]
    rw [← Spot.skip_add, ahead₃] at tail
    have size :
        (cs.takeWhile lowercase).length +
        ((cs.drop (cs.takeWhile lowercase).length).takeWhile inline).length =
        (cs.takeWhile inline).length := takeWhile_takeWhile (fun _ => inline_of_lowercase) cs
    rw [extension, plus, first_seq_of_first dot (first_seq_of_first letters tail),
      List.takeWhile_cons_of_pos (inline_of_lowercase lower), List.length_cons]
    congr 2
    omega

theorem runs_extension_of_stop {s : Spot Char} (stops : Stops s.ahead)
    (bad : ∀ cs, s.ahead = '.' :: cs →
      cs.head?.any lowercase = false) : runs extension s = [] := by
  generalize text : s.ahead = cs at stops bad
  cases cs with
  | nil => rw [extension, runs, runs_one_of_end text]; rfl
  | cons c cs =>
    rw [extension, runs, runs_one_of_head text]
    by_cases dot : c = '.'
    · rw [if_pos (decide_eq_true dot), List.flatMap_cons, List.flatMap_nil, List.append_nil, runs,
        plus, runs, runs,
        Spot.step_ahead, text, List.tail_cons, bad cs (by rw [dot])]
      rfl
    · rw [if_neg (by simpa using dot)]
      rfl

theorem first_star_extension {n : Nat} {s : Spot Char} (small : s.ahead.length ≤ n)
    (stops : Stops s.ahead) :
    first (.star extension) s = some (s.skip (clause s.ahead).length) := by
  induction n generalizing s with
  | zero =>
    have text := List.eq_nil_of_length_eq_zero (Nat.le_zero.mp small)
    rw [first_star_stop (runs_extension_of_stop stops (by rw [text]; nofun)), text]
    rfl
  | succ n ih =>
    by_cases goes : ∃ cs, s.ahead = '.' :: cs ∧ cs.head?.any lowercase = true
    · obtain ⟨cs, text, goes⟩ := goes
      have next := first_extension text goes
      have rest : (s.skip ((cs.takeWhile inline).length + 1)).ahead =
          cs.drop (cs.takeWhile inline).length := by
        rw [Spot.skip_ahead, text, List.drop_succ_cons]
      have size : s.ahead.length = cs.length + 1 := by rw [text, List.length_cons]
      have shorter : (cs.drop (cs.takeWhile inline).length).length ≤ cs.length := by
        rw [List.length_drop]
        exact Nat.sub_le _ _
      rw [first_star_next next (by rw [rest]; omega),
        ih (by rw [rest]; omega) (rest ▸ stops_drop cs), rest,
        ← Spot.skip_add, text, clause_dot_of_lowercase goes, clause_eq_inline cs, List.length_cons,
          List.length_append]
      congr 2
      omega
    · have bad : ∀ cs, s.ahead = '.' :: cs → cs.head?.any lowercase = false := fun cs text =>
        Bool.eq_false_iff.mpr fun lower => goes ⟨cs, text, lower⟩
      rw [first_star_stop (runs_extension_of_stop stops bad)]
      generalize text : s.ahead = cs at stops bad
      cases cs with
      | nil => rfl
      | cons c cs =>
        have none : clause (c :: cs) = [] := by
          by_cases dot : c = '.'
          · rw [dot, clause_dot_of_stop (bad cs (by rw [dot]))]
          · have newline : c = '\n' := by simpa [Stops, inline, dot] using stops
            rw [newline, clause_newline]
        rw [none]
        rfl

theorem first_sentence {s : Spot Char} {c : Char} {cs : List Char} (ahead : s.ahead = c :: cs)
    (here : inline c = true) :
    first sentence s = some (s.skip (clause (c :: cs)).length) := by
  have one : first (.one inline) s = some s.step := by
    rw [first, runs_one_of_head ahead, if_pos here]; rfl
  have rest : s.step.ahead = cs := by rw [Spot.step_ahead, ahead]; rfl
  have line := first_seq_of_first one (first_star_one inline s.step)
  have place : s.step.skip (s.step.ahead.takeWhile inline).length =
      s.skip ((cs.takeWhile inline).length + 1) := by
    rw [rest]
    rfl
  rw [place] at line
  have ahead' : (s.skip ((cs.takeWhile inline).length + 1)).ahead =
      cs.drop (cs.takeWhile inline).length := by
    rw [Spot.skip_ahead, ahead, List.drop_succ_cons]
  have more := first_star_extension (Nat.le_refl _) (ahead' ▸ stops_drop cs)
  rw [sentence, plus, first_seq_of_first line more, ahead', ← Spot.skip_add,
    clause_cons_of_inline here,
    clause_eq_inline cs, List.length_cons, List.length_append]
  congr 2
  omega

theorem first_sentence_eq_none {s : Spot Char} (stops : Stops s.ahead) :
    first sentence s = none := by
  rw [sentence]
  apply first_seq_eq_none
  intro u member
  rw [plus, runs] at member
  generalize text : s.ahead = cs at stops
  cases cs with
  | nil =>
    rw [runs_one_of_end text] at member
    cases member
  | cons c cs =>
    have none : inline c = false := by simpa [Stops] using stops
    rw [runs_one_of_head text, none] at member
    cases member

theorem first_group_sentence {s : Spot Char} {c : Char} {cs : List Char} (ahead : s.ahead = c :: cs)
    (here : inline c = true) :
    ∃ t, first (.group 1 sentence) s = some t ∧ t.groups.lookup 1 = some (clause (c :: cs)) ∧
      t.ahead = (c :: cs).drop (clause (c :: cs)).length := by
  have whole := List.prefix_iff_eq_take.mp (clause_begins (c :: cs))
  have within : (clause (c :: cs)).length ≤ s.ahead.length :=
    ahead ▸ (clause_begins (c :: cs)).length_le
  refine ⟨_, by rw [first_group, first_sentence ahead here]; rfl, ?_, ?_⟩
  · change some (s.taken (s.skip (clause (c :: cs)).length)) = _
    rw [Spot.taken_skip within, ahead, ← whole]
  · change (s.skip (clause (c :: cs)).length).ahead = _
    rw [Spot.skip_ahead, ahead]

theorem first_group_sentence_eq_none {s : Spot Char} (stops : Stops s.ahead) :
    first (.group 1 sentence) s = none := by
  rw [first_group, first_sentence_eq_none stops]
  rfl

theorem findSome?_range_reverse {β : Type} {f : Nat → Option β} {m n : Nat} {b : β} (within : n ≤ m)
    (fails : ∀ k, n < k → k ≤ m → f k = none) (here : f n = some b) :
    (List.range (m + 1)).reverse.findSome? f = some b := by
  induction m with
  | zero =>
    rw [Nat.le_zero.mp within] at here
    exact List.findSome?_cons.trans (by rw [here])
  | succ m ih =>
    rw [List.range_succ, List.reverse_append, List.reverse_singleton, List.singleton_append]
    rcases Nat.eq_or_lt_of_le within with rfl | less
    · rw [List.findSome?_cons, here]
    · rw [List.findSome?_cons, fails (m + 1) less (Nat.le_refl _)]
      exact ih (Nat.le_of_lt_succ less) fun k more few => fails k more (Nat.le_succ_of_le few)

theorem takeWhile_spaces {w : List Char} (spaces : ∀ x ∈ w, pySpace x = true) {cs : List Char}
    (start : cs.head?.any pySpace = false) : ((w ++ cs).takeWhile pySpace).length = w.length := by
  have none : cs.takeWhile pySpace = [] := by
    cases cs with
    | nil => rfl
    | cons c cs => exact List.takeWhile_cons_of_neg (Bool.eq_false_iff.mp start)
  rw [List.takeWhile_append_of_pos spaces, none, List.append_nil]

/-- From `s` the clause of `cs` is read. -/
def ReadsFrom (s : Spot Char) (cs : List Char) : Prop :=
  ∃ t, first body s = some t ∧ t.groups.lookup 1 = some (clause cs) ∧
    t.ahead = cs.drop (clause cs).length

theorem first_body_of_last {s : Spot Char} {n : Nat} {c : Char} {cs : List Char}
    (within : n ≤ (s.ahead.takeWhile pySpace).length)
    (stops : ∀ k, n < k → k ≤ (s.ahead.takeWhile pySpace).length → Stops (s.ahead.drop k))
    (text : s.ahead.drop n = c :: cs) (here : inline c = true) :
    ReadsFrom s (c :: cs) := by
  obtain ⟨t, found, read⟩ := first_group_sentence ((s.skip_ahead n).trans text) here
  refine ⟨t, ?_, read⟩
  rw [body, first_seq, runs_star_one, List.findSome?_map]
  apply findSome?_range_reverse within _ found
  intro k more few
  exact first_group_sentence_eq_none (by rw [Spot.skip_ahead]; exact stops k more few)

theorem first_body_eq_none {s : Spot Char}
    (stops : ∀ k ≤ (s.ahead.takeWhile pySpace).length, Stops (s.ahead.drop k)) :
    first body s = none := by
  rw [body]
  apply first_seq_eq_none
  intro u member
  rw [runs_star_one] at member
  obtain ⟨k, few, rfl⟩ := List.mem_map.mp member
  rw [List.mem_reverse, List.mem_range] at few
  apply first_group_sentence_eq_none
  rw [Spot.skip_ahead]
  exact stops k (Nat.le_of_lt_succ few)

theorem first_body_at_dot {s : Spot Char} {cs : List Char} (ahead : s.ahead = '.' :: cs) :
    first body s = none := by
  apply first_body_eq_none
  intro k few
  rw [ahead] at few ⊢
  rw [Nat.le_zero.mp few]
  rfl

theorem first_body {s : Spot Char} {w : List Char} {c : Char} {cs : List Char}
    (ahead : s.ahead = w ++ c :: cs) (spaces : ∀ x ∈ w, pySpace x = true)
    (start : pySpace c = false) (here : inline c = true) :
    ReadsFrom s (c :: cs) := by
  have count : (s.ahead.takeWhile pySpace).length = w.length := by
    have starts : (c :: cs).head?.any pySpace = false := start
    rw [ahead, takeWhile_spaces spaces starts]
  apply first_body_of_last (Nat.le_of_eq count.symm)
  · intro k more few
    omega
  · rw [ahead, List.drop_left]
  · exact here

theorem stops_newlines {n k : Nat} (cs : List Char) (few : k ≤ n) :
    Stops ((List.replicate n '\n' ++ '.' :: cs).drop k) := by
  rw [List.drop_append_of_le_length (by rwa [List.length_replicate]), List.drop_replicate]
  cases n - k with
  | zero => rfl
  | succ m => rfl

theorem first_body_dot {s : Spot Char} {w : List Char} {x : Char} {n : Nat} {cs : List Char}
    (ahead : s.ahead = w ++ x :: (List.replicate n '\n' ++ '.' :: cs))
    (spaces : ∀ y ∈ w, pySpace y = true) (space : pySpace x = true) (here : inline x = true) :
    ReadsFrom s (x :: (List.replicate n '\n' ++ '.' :: cs)) := by
  have count : (s.ahead.takeWhile pySpace).length = w.length + (n + 1) := by
    have blanks : ∀ y ∈ w ++ x :: List.replicate n '\n', pySpace y = true := by
      rw [List.forall_mem_append, List.forall_mem_cons]
      refine ⟨spaces, space, fun y member => ?_⟩
      rw [List.eq_of_mem_replicate member]
      decide
    have starts : ('.' :: cs).head?.any pySpace = false := rfl
    have all := takeWhile_spaces blanks starts
    rw [List.append_assoc, List.cons_append, ← ahead, List.length_append, List.length_cons,
      List.length_replicate] at all
    exact all
  apply first_body_of_last (n := w.length) (by omega)
  · intro k more few
    obtain ⟨m, rfl⟩ := Nat.exists_eq_add_of_lt more
    rw [ahead, Nat.add_assoc, List.drop_length_add_append, List.drop_succ_cons]
    exact stops_newlines cs (by omega)
  · rw [ahead, List.drop_left]
  · exact here

end Sentence

end DreamStudio.Boundaries
