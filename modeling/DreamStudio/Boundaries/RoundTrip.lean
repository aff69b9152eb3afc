import DreamStudio.Boundaries.Clause
import Mathlib.Data.List.DropRight
import Mathlib.Data.List.TakeWhile

namespace DreamStudio.Boundaries

open Library WorkOrders Hooks.Native Regex

section Parts

theorem pyStrip_spaces {w : List Char} (spaces : ∀ x ∈ w, pySpace x = true) (cs : List Char) :
    pyStrip (String.ofList (w ++ cs)) = pyStrip (String.ofList cs) := by
  rw [pyStrip, pyStrip, String.toList_ofList, String.toList_ofList,
    List.dropWhile_append_of_pos spaces]

theorem length_pyStrip_le (s : String) : (pyStrip s).toList.length ≤ s.toList.length := by
  rw [pyStrip, String.toList_ofList, List.length_reverse]
  apply (List.length_dropWhile_le _ _).trans
  rw [List.length_reverse]
  exact List.length_dropWhile_le _ _

theorem stripPart_spaces {w : List Char} (spaces : ∀ x ∈ w, pySpace x = true) (cs : List Char) :
    stripPart (String.ofList (w ++ cs)) = stripPart (String.ofList cs) := by
  rw [stripPart, stripPart, pyStrip_spaces spaces]

theorem length_stripPart_le (s : String) : (stripPart s).toList.length ≤ s.toList.length := by
  rw [stripPart]
  apply (length_pyStrip_le _).trans
  rw [String.toList_ofList, List.length_reverse]
  apply (List.length_dropWhile_le _ _).trans
  rw [List.length_reverse]
  exact length_pyStrip_le s

theorem partsOf_single {cs : List Char} (whole : ',' ∉ cs) :
    partsOf cs = [stripPart (String.ofList cs)] := by
  have single : cs.splitOnP (· = ',') = [cs] := List.splitOnP_eq_singleton fun c member => by
    apply decide_eq_false
    rintro rfl
    exact whole member
  rw [partsOf, splitCommas, String.toList_ofList, single]
  rfl

theorem partsOf_cons {cs : List Char} (whole : ',' ∉ cs) (ds : List Char) :
    partsOf (cs ++ ',' :: ds) = stripPart (String.ofList cs) :: partsOf ds := by
  have split : (cs ++ ',' :: ds).splitOnP (· = ',') = cs :: ds.splitOnP (· = ',') :=
    List.splitOnP_append_cons_of_forall_mem (fun c member => by
      apply decide_eq_false
      rintro rfl
      exact whole member) ',' (by decide) ds
  rw [partsOf, splitCommas, String.toList_ofList, split, partsOf, splitCommas, String.toList_ofList]
  rfl

theorem partsOf_space {x : Char} (space : pySpace x = true) (cs : List Char) :
    partsOf (x :: cs) = partsOf cs := by
  have other : decide (x = ',') = false := by
    apply decide_eq_false
    rintro rfl
    cases space
  have strips (d : List Char) : stripPart (String.ofList (x :: d)) = stripPart (String.ofList d) :=
    stripPart_spaces (w := [x]) (List.forall_mem_singleton.mpr space) d
  rw [partsOf, splitCommas, String.toList_ofList, List.splitOnP_cons_eq_if_modifyHead, other,
    if_neg Bool.false_ne_true, partsOf, splitCommas, String.toList_ofList]
  cases split : cs.splitOnP (· = ',') with
  | nil => exact absurd split (List.splitOnP_ne_nil _ _)
  | cons d ds => exact congrArg (· :: _) (strips d)

end Parts

section Entries

/-- Every dot is followed by a lowercase letter. -/
def Continues (cs : List Char) : Prop :=
  ∀ as bs, cs = as ++ '.' :: bs → bs.head?.any lowercase = true

theorem Continues.tail {c : Char} {cs : List Char} (continues : Continues (c :: cs)) :
    Continues cs :=
  fun as bs split => continues (c :: as) bs (congrArg (c :: ·) split)

theorem Continues.cons {c : Char} {cs : List Char} (dot : c = '.' → cs.head?.any lowercase = true)
    (continues : Continues cs) : Continues (c :: cs) := by
  intro as bs split
  cases as with
  | nil =>
    obtain ⟨same, rest⟩ := List.cons.inj split
    exact rest ▸ dot same
  | cons a as => exact continues as bs (List.cons.inj split).2

theorem clause_append {cs : List Char} (continues : Continues cs) (line : '\n' ∉ cs)
    (ds : List Char) :
    clause (cs ++ ds) = cs ++ clause ds := by
  induction cs with
  | nil => rfl
  | cons c cs ih =>
    have rest := ih continues.tail fun member => line (List.mem_cons_of_mem _ member)
    by_cases dot : c = '.'
    · subst dot
      have goes := continues [] cs rfl
      have goes' : (cs ++ ds).head?.any lowercase = true := by
        cases cs with
        | nil => cases goes
        | cons c cs => exact goes
      rw [List.cons_append, clause_dot_of_lowercase goes', rest]
      rfl
    · have here := inline_of_ne dot fun same => line (same ▸ List.mem_cons_self)
      rw [List.cons_append, clause_cons_of_inline here, rest]
      rfl

theorem clause_append_of_not_continues {cs : List Char} (cut : ¬Continues cs)
    (line : '\n' ∉ cs) {x : Char} (ends : lowercase x = false) (ds : List Char) :
    ∃ p q, cs = p ++ q ∧ q ≠ [] ∧ clause (cs ++ x :: ds) = p := by
  induction cs with
  | nil => exact absurd (fun as bs split => by cases as <;> cases split) cut
  | cons c cs ih =>
    by_cases stop : c = '.' ∧ cs.head?.any lowercase = false
    · obtain ⟨rfl, stop⟩ := stop
      refine ⟨[], _, rfl, List.cons_ne_nil _ _, ?_⟩
      apply clause_dot_of_stop
      cases cs with
      | nil => exact ends
      | cons c cs => exact stop
    · have dot : c = '.' → cs.head?.any lowercase = true := fun same =>
        (Bool.eq_false_or_eq_true _).resolve_right fun none => stop ⟨same, none⟩
      have cut' : ¬Continues cs := fun continues => cut (continues.cons dot)
      obtain ⟨p, q, split, more, here⟩ := ih cut' fun member => line (List.mem_cons_of_mem _ member)
      refine ⟨c :: p, q, congrArg (c :: ·) split, more, ?_⟩
      by_cases same : c = '.'
      · subst same
        have goes : (cs ++ x :: ds).head?.any lowercase = true := by
          cases cs with
          | nil => cases dot rfl
          | cons c cs => exact dot rfl
        rw [List.cons_append, clause_dot_of_lowercase goes, here]
      · have here' := inline_of_ne same fun newline => line (newline ▸ List.mem_cons_self)
        rw [List.cons_append, clause_cons_of_inline here', here]

end Entries

section Joined

structure Entry (e : String) : Prop where
  path : isBoundaryPath e = true
  whole : ',' ∉ e.toList
  line : '\n' ∉ e.toList
  stripped : pyStrip e = e

theorem ne_nil_of_path {e : String} (path : isBoundaryPath e = true) : e.toList ≠ [] := by
  intro empty
  rw [String.toList_eq_nil_iff.mp empty] at path
  cases path

theorem Entry.stripPart_eq {e : String} (entry : Entry e) (continues : Continues e.toList) :
    stripPart e = e := by
  have kept : (e.toList.reverse.dropWhile (· = '.')).reverse = e.toList := by
    apply List.rdropWhile_eq_self_iff.mpr
    intro some dot
    have split := List.dropLast_append_getLast some
    rw [of_decide_eq_true dot] at split
    cases continues _ [] split.symm
  rw [stripPart, entry.stripped, kept, String.ofList_toList, entry.stripped]

def joined : List String → List Char
  | [] => ['.']
  | [e] => e.toList ++ ['.']
  | e :: f :: es => e.toList ++ ',' :: ' ' :: joined (f :: es)

theorem joined_eq (es : List String) : (", ".intercalate es ++ ".").toList = joined es := by
  rw [String.toList_append, String.toList_intercalate]
  induction es with
  | nil => rfl
  | cons e es ih =>
    cases es with
    | nil => simp [joined]
    | cons f es =>
      rw [joined, ← ih, List.map_cons, List.map_cons, List.intercalate_cons_cons, List.append_assoc,
        List.append_assoc]
      rfl

def kept (clause : List Char) : List String := (partsOf clause).filter isBoundaryPath

theorem kept_cut {e : String} (entry : Entry e) {p q : List Char} (split : e.toList = p ++ q)
    (more : q ≠ []) :
    (kept p).length ≤ 1 ∧ e ∉ kept p := by
  have whole : ',' ∉ p := fun member => entry.whole (split ▸ List.mem_append_left _ member)
  rw [kept, partsOf_single whole]
  refine ⟨List.length_filter_le _ _, fun member => ?_⟩
  have same := List.mem_singleton.mp (List.mem_filter.mp member).1
  have short := length_stripPart_le (String.ofList p)
  rw [← same, String.toList_ofList, split, List.length_append] at short
  have long := List.length_pos_of_ne_nil more
  omega

theorem kept_joined_iff {es : List String} (some : es ≠ []) (entries : ∀ e ∈ es, Entry e) :
    kept (clause (joined es)) = es ↔ ∀ e ∈ es, Continues e.toList := by
  induction es with
  | nil => exact absurd rfl some
  | cons e es ih =>
    obtain ⟨entry, others⟩ := List.forall_mem_cons.mp entries
    cases es with
    | nil =>
      rw [List.forall_mem_singleton, joined]
      constructor
      · intro same
        by_contra cut
        obtain ⟨p, q, split, more, here⟩ :=
          clause_append_of_not_continues cut entry.line (x := '.') (by decide) []
        rw [here] at same
        exact (kept_cut entry split more).2 (same ▸ List.mem_singleton_self e)
      · intro continues
        have ends : clause ['.'] = [] := clause_dot_of_stop rfl
        rw [clause_append continues entry.line, ends, List.append_nil, kept,
          partsOf_single entry.whole,
          String.ofList_toList, entry.stripPart_eq continues, List.filter_cons_of_pos entry.path,
            List.filter_nil]
    | cons f es =>
      rw [List.forall_mem_cons, ← ih (List.cons_ne_nil _ _) others, joined]
      by_cases continues : Continues e.toList
      · have comma : clause (',' :: ' ' :: joined (f :: es)) =
            ',' :: ' ' :: clause (joined (f :: es)) := by
          rw [clause_cons_of_inline (by decide), clause_cons_of_inline (by decide)]
        rw [clause_append continues entry.line, comma, kept, partsOf_cons entry.whole,
          partsOf_space (by decide),
          String.ofList_toList, entry.stripPart_eq continues, List.filter_cons_of_pos entry.path]
        exact ⟨fun same => ⟨continues, (List.cons.inj same).2⟩,
          fun same => congrArg (e :: ·) same.2⟩
      · constructor
        · intro same
          obtain ⟨p, q, split, more, here⟩ :=
            clause_append_of_not_continues continues entry.line (x := ',') (by decide)
            (' ' :: joined (f :: es))
          rw [here] at same
          have short := (kept_cut entry split more).1
          rw [same, List.length_cons, List.length_cons] at short
          omega
        · exact fun both => absurd both.1 continues

end Joined

section Search

theorem contains_iff (s part : String) : contains s part = true ↔ part.toList <:+: s.toList := by
  rw [contains, List.any_eq_true, List.infix_iff_prefix_suffix]
  simp only [List.mem_tails, List.isPrefixOf_iff_prefix, and_comm]

theorem prefix_of_not_mem {m xs ys : List Char} {a : Char} (other : a ∉ m)
    (pre : m <+: xs ++ a :: ys) : m <+: xs := by
  have split : xs ++ a :: ys = xs ++ [a] ++ ys := by rw [List.append_assoc]; rfl
  rcases List.prefix_or_prefix_of_prefix pre
    (split.symm ▸ List.prefix_append (xs ++ [a]) ys) with short | long
  · rcases List.prefix_concat_iff.mp short with whole | short
    · exact absurd (whole ▸ List.mem_append_right _ (List.mem_singleton_self a)) other
    · exact short
  · exact absurd (long.subset (List.mem_append_right _ (List.mem_singleton_self a))) other

theorem first_clausePattern {s : Spot Char} {rest : List Char}
    (ahead : s.ahead = boundaryMarker.toList ++ rest) :
    first clausePattern s = first body (s.skip boundaryMarker.toList.length) := by
  have here : boundaryMarker.toList.isPrefixOf s.ahead = true :=
    List.isPrefixOf_iff_prefix.mpr (ahead ▸ List.prefix_append _ _)
  rw [clausePattern, first_seq, runs_literal, if_pos here, List.findSome?_singleton]

theorem first_clausePattern_eq_none {s : Spot Char} (away : ¬boundaryMarker.toList <+: s.ahead) :
    first clausePattern s = none := by
  rw [clausePattern, first_seq, runs_literal,
    if_neg fun here => away (List.isPrefixOf_iff_prefix.mp here)]
  rfl

theorem clauseOf_append {description : String} {pre rest cs : List Char}
    (text : description.toList = pre ++ (boundaryMarker.toList ++ rest))
    (new : ∀ us v vs, pre = us ++ v :: vs → ¬boundaryMarker.toList <+: v :: vs ++
      (boundaryMarker.toList ++ rest))
    (found : ∀ s : Spot Char, s.ahead = rest → ReadsFrom s cs) :
    clauseOf description = some (clause cs) := by
  obtain ⟨last, passed⟩ := search_append (r := clausePattern) none fun us v vs split last =>
    first_clausePattern_eq_none (s := ⟨last, v :: vs ++ (boundaryMarker.toList ++ rest), []⟩)
      (new us v vs split)
  have here := first_clausePattern (s := ⟨last, boundaryMarker.toList ++ rest, []⟩) rfl
  obtain ⟨t, ends, group, -⟩ :=
    found (Spot.skip boundaryMarker.toList.length ⟨last, boundaryMarker.toList ++ rest, []⟩) (by
      rw [Spot.skip_ahead]
      exact List.drop_left)
  rw [clauseOf, text, passed, search_of_first (here.trans ends), Option.bind_some, group]

theorem clauseOf_eq_none {description : String}
    (unclaimed : contains description boundaryMarker = false) :
    clauseOf description = none := by
  have away : ∀ us cs, description.toList = us ++ cs → ¬boundaryMarker.toList <+: cs := by
    intro us cs split here
    obtain ⟨rest, whole⟩ := here
    have inside : boundaryMarker.toList <:+: description.toList :=
      ⟨us, rest, by rw [split, ← whole, List.append_assoc]⟩
    rw [← contains_iff, unclaimed] at inside
    cases inside
  obtain ⟨last, passed⟩ : ∃ last, search clausePattern none (description.toList ++ []) =
      search clausePattern last [] :=
    search_append none fun us v vs split last =>
    first_clausePattern_eq_none (s := ⟨last, v :: vs ++ [], []⟩) (by
      rw [List.append_nil]
      exact away us (v :: vs) split)
  rw [clauseOf, ← List.append_nil description.toList, passed, search,
    first_clausePattern_eq_none (away description.toList [] (List.append_nil _).symm)]
  rfl

end Search

section RoundTrip

variable {description : String} {entries : List String}

theorem names_eq (paths : ∀ e ∈ entries, isBoundaryPath e = true)
    (stripped : ∀ e ∈ entries, pyStrip e = e) :
    (ModuleBoundary.parts entries).names.filter isBoundaryPath = entries := by
  have same : (ModuleBoundary.parts entries).names = entries := by
    rw [ModuleBoundary.names]
    exact (List.map_congr_left stripped).trans (List.map_id _)
  rw [same]
  exact List.filter_eq_self.mpr paths

/-- What stands before the clause. -/
def before (description : String) : List Char :=
  if pyRstrip description = "" then [] else (pyRstrip description).toList ++ ['\n', '\n']

theorem compose_eq (unclaimed : contains description boundaryMarker = false)
    (nonempty : entries ≠ []) (paths : ∀ e ∈ entries, isBoundaryPath e = true)
    (stripped : ∀ e ∈ entries, pyStrip e = e) :
    (composeModuleBoundary description (some (.parts entries))).toList =
      before description ++ (boundaryMarker.toList ++ ' ' :: joined entries) := by
  have given : (ModuleBoundary.parts entries).given = true := by
    rw [ModuleBoundary.given]
    cases entries with
    | nil => exact absurd rfl nonempty
    | cons e es => rfl
  have clause : ("Module boundary: " ++ ", ".intercalate entries ++ ".").toList =
      boundaryMarker.toList ++ ' ' :: joined entries := by
    have marked : "Module boundary: ".toList = boundaryMarker.toList ++ [' '] := by
      rw [String.toList_ofList, boundaryMarker, String.toList_ofList]
      rfl
    rw [String.append_assoc, String.toList_append, joined_eq, marked, List.append_assoc]
    rfl
  simp only [composeModuleBoundary, names_eq paths stripped, given, unclaimed, nonempty]
  rw [if_neg (by decide), before]
  split
  · exact clause
  · rw [String.toList_append, clause, String.toList_append]
    rfl

theorem before_unclaimed (unclaimed : contains description boundaryMarker = false)
    (rest : List Char) (us : List Char) (v : Char) (vs : List Char)
    (split : before description = us ++ v :: vs) :
    ¬boundaryMarker.toList <+: v :: vs ++ rest := by
  intro here
  rw [before] at split
  split at split
  · cases us <;> cases split
  · rcases List.append_eq_append_iff.mp split with ⟨t, -, ends⟩ | ⟨t, body, inside⟩
    · have newline : v = '\n' := by
        cases t with
        | nil => exact (List.cons.inj ends).1.symm
        | cons a t =>
          cases t with
          | nil => exact (List.cons.inj (List.cons.inj ends).2).1.symm
          | cons b t => cases t <;> cases ends
      obtain ⟨tail, same⟩ := here
      rw [newline] at same
      cases same
    · rw [inside, List.append_assoc] at here
      obtain ⟨tail, same⟩ := prefix_of_not_mem (by decide) here
      have sub : (pyRstrip description).toList <+: description.toList := by
        rw [pyRstrip, String.toList_ofList]
        exact List.rdropWhile_prefix _ _
      have marked : boundaryMarker.toList <:+: description.toList :=
        List.IsInfix.trans ⟨us, tail, by rw [body, ← same, List.append_assoc]⟩ sub.isInfix
      rw [← contains_iff, unclaimed] at marked
      cases marked

theorem inline_of_start {c : Char} (start : pySpace c = false) (dot : c ≠ '.') :
    inline c = true := by
  apply inline_of_ne dot
  rintro rfl
  cases start

theorem start_of_stripped {e : String} (stripped : pyStrip e = e) {c : Char} {cs : List Char}
    (text : e.toList = c :: cs) :
    pySpace c = false := by
  by_contra space
  have size : (pyStrip e).toList.length ≤ cs.length := by
    rw [pyStrip, text, List.dropWhile_cons_of_pos (by simpa using space), String.toList_ofList,
      List.length_reverse]
    apply (List.length_dropWhile_le _ _).trans
    rw [List.length_reverse]
    exact List.length_dropWhile_le _ _
  rw [stripped, text, List.length_cons] at size
  omega

theorem joined_cons (e : String) (es : List String) :
    ∃ rest, joined (e :: es) = e.toList ++ rest := by
  cases es with
  | nil => exact ⟨_, rfl⟩
  | cons f es => exact ⟨_, rfl⟩

theorem boundaryGlobs_compose (unclaimed : contains description boundaryMarker = false)
    (nonempty : entries ≠ []) (paths : ∀ e ∈ entries, isBoundaryPath e = true)
    (stripped : ∀ e ∈ entries, pyStrip e = e) :
    boundaryGlobs (composeModuleBoundary description (some (.parts entries))) =
      kept (clause (joined entries)) := by
  have text := compose_eq unclaimed nonempty paths stripped
  have new := before_unclaimed unclaimed (boundaryMarker.toList ++ ' ' :: joined entries)
  cases entries with
  | nil => exact absurd rfl nonempty
  | cons e es =>
    obtain ⟨rest, first⟩ := joined_cons e es
    cases chars : e.toList with
    | nil => exact absurd chars (ne_nil_of_path (paths e List.mem_cons_self))
    | cons c cs =>
      rw [chars, List.cons_append] at first
      rw [boundaryGlobs, kept]
      by_cases dot : c = '.'
      · have found := clauseOf_append text new fun s ahead =>
          first_body_dot (w := []) (n := 0) (ahead.trans (by rw [first, dot]; rfl))
            (List.forall_mem_nil _) rfl rfl
        rw [found, clause_cons_of_inline (by decide), ← dot, ← first]
        exact congrArg (List.filter isBoundaryPath) (partsOf_space rfl _)
      · have start := start_of_stripped (stripped e List.mem_cons_self) chars
        have here := inline_of_start start dot
        have found := clauseOf_append text new fun s ahead =>
          first_body (w := [' ']) (ahead.trans (by rw [first]; rfl))
            (List.forall_mem_singleton.mpr rfl)
            start here
        rw [found, ← first]
        rfl

/-- A list of entries comes back as it was given exactly where no dot of an entry is followed by
anything but a lowercase letter. -/
theorem boundaryGlobs_compose_iff (description : String) (entries : List String)
    (unclaimed : contains description boundaryMarker = false)
    (paths : ∀ e ∈ entries, isBoundaryPath e = true) (whole : ∀ e ∈ entries, ',' ∉ e.toList)
    (line : ∀ e ∈ entries, '\n' ∉ e.toList) (stripped : ∀ e ∈ entries, pyStrip e = e) :
    boundaryGlobs (composeModuleBoundary description (some (.parts entries))) = entries ↔
      ∀ e ∈ entries, Continues e.toList := by
  cases entries with
  | nil =>
    have same : composeModuleBoundary description (some (.parts [])) = description := rfl
    rw [same, boundaryGlobs, clauseOf_eq_none unclaimed]
    exact ⟨fun _ => List.forall_mem_nil _, fun _ => rfl⟩
  | cons e es =>
    have fits : ∀ f ∈ e :: es, Entry f := fun f member =>
      ⟨paths f member, whole f member, line f member, stripped f member⟩
    rw [boundaryGlobs_compose unclaimed (List.cons_ne_nil _ _) paths stripped]
    exact kept_joined_iff (List.cons_ne_nil _ _) fits

theorem boundaryGlobs_compose_core :
    boundaryGlobs (composeModuleBoundary "Parsers."
      (some (.parts ["core/a.py", ".github", "docs"]))) =
        ["core/a.py", ".github", "docs"] ↔
      ∀ e ∈ ["core/a.py", ".github", "docs"], Continues e.toList :=
  boundaryGlobs_compose_iff _ _ (by decide +kernel) (by decide +kernel) (by decide +kernel)
    (by decide +kernel)
    (by decide +kernel)

/-- A version number ends the clause, and what stands behind it is lost. -/
theorem version_cut : ¬∀ (description : String) (entries : List String),
    contains description boundaryMarker = false → (∀ e ∈ entries, isBoundaryPath e = true) →
    (∀ e ∈ entries, ',' ∉ e.toList) → (∀ e ∈ entries, '\n' ∉ e.toList) →
      (∀ e ∈ entries, pyStrip e = e) →
      boundaryGlobs (composeModuleBoundary description (some (.parts entries))) = entries := by
  intro all
  have same := all "" ["docs/v1.2/notes.md", "core"] (by decide +kernel) (by decide +kernel)
    (by decide +kernel)
    (by decide +kernel) (by decide +kernel)
  revert same
  decide +kernel

end RoundTrip

end DreamStudio.Boundaries
