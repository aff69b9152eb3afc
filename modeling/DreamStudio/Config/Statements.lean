import DreamStudio.Config.Migrations
import DreamStudio.Library.Segments

namespace DreamStudio.Config

open Library

section Bare

def semicolon (c : Char) : Bool := c = ';'

/-- `s.strip().rstrip(";").strip()`. -/
def bare (cs : List Char) : List Char := trimmed ((trimmed cs).rdropWhile semicolon)

theorem toList_bare (s : String) :
    (pyStrip (stripSemicolons (pyStrip s))).toList = bare s.toList := by
  rw [toList_pyStrip, stripSemicolons, String.toList_ofList, toList_pyStrip]
  rfl

theorem length_bare_of_ended (xs : List Char) {blank : List Char}
    (spaces : ∀ c ∈ blank, pySpace c = true) :
    (bare (xs ++ ';' :: blank)).length ≤ (xs.dropWhile pySpace).length := by
  have ended : trimmed (xs ++ ';' :: blank) = xs.dropWhile pySpace ++ [';'] := by
    rw [trimmed_append_cons rfl, List.rdropWhile_eq_nil_iff.mpr spaces]
  rw [bare, ended, List.rdropWhile_concat_pos _ _ _ rfl]
  exact (length_trimmed_le _).trans (length_rdropWhile_le _)

theorem length_lt_bare (xs blank : List Char) {more : List Char}
    (text : ∃ c ∈ more, pySpace c = false) :
    (xs.dropWhile pySpace).length < (bare (xs ++ ';' :: (blank ++ '\n' :: more))).length := by
  obtain ⟨c, member, stays⟩ := text
  obtain ⟨before, after, rfl⟩ := List.append_of_mem member
  have inner : trimmed (xs ++ ';' :: (blank ++ '\n' :: (before ++ c :: after))) =
      (xs.dropWhile pySpace ++ ';' :: blank) ++
        '\n' :: (before ++ c :: after.rdropWhile pySpace) := by
    rw [trimmed_append_cons rfl, ← List.cons_append, ← List.append_assoc,
      rdropWhile_append_cons stays]
    simp
  rw [bare, inner, rdropWhile_append_cons rfl, List.append_assoc, List.cons_append,
    trimmed_append_cons rfl,
    List.dropWhile_idempotent, List.length_append, List.length_cons]
  omega

theorem mem_bare {c : Char} {cs : List Char} (member : c ∈ cs) (stays : pySpace c = false)
    (other : c ≠ ';') :
    c ∈ bare cs := by
  apply mem_trimmed _ stays
  obtain ⟨before, after, split⟩ := List.append_of_mem (mem_trimmed member stays)
  have kept : semicolon c = false := decide_eq_false other
  rw [split, rdropWhile_append_cons kept]
  exact List.mem_append_right _ List.mem_cons_self

end Bare

section Lines

/-- A line that is neither blank nor a comment. -/
def written (line : String) : Bool := !(pyStrip line = "" || startsWith (pyStrip line) "--")

/-- A line that a statement may end at. -/
def stops (line : String) : Bool := endsWith (pyStrip line) ";"

/-- A line with the word `BEGIN`. -/
def opens (u : Letters) (line : String) : Bool := u.hasWord "BEGIN" (u.capitals (pyStrip line))

/-- A line that ends with `END`, before its semicolon. -/
def closes (u : Letters) (line : String) : Bool :=
  stops line && endsWith (pyStrip (stripSemicolons (u.capitals (pyStrip line)))) "END"

theorem stops_eq (line : String) : stops line = endsWith (pyStrip line) ";" := rfl

variable (u : Letters)

theorem opens_eq (line : String) :
    opens u line = u.hasWord "BEGIN" (u.capitals (pyStrip line)) := rfl

theorem closes_eq (line : String) :
    closes u line = (stops line &&
      endsWith (pyStrip (stripSemicolons (u.capitals (pyStrip line)))) "END") := rfl

theorem opens_ascii (v : Letters) {line : String} (ascii : Ascii line) :
    opens u line = opens v line := by
  have stripped := ascii.pyStrip
  rw [opens, opens, u.capitals_ascii stripped, v.capitals_ascii stripped]
  exact u.hasWord_ascii v _ (Letters.ascii_pyUpper stripped)

theorem closes_ascii (v : Letters) {line : String} (ascii : Ascii line) :
    closes u line = closes v line := by
  have stripped := ascii.pyStrip
  rw [closes, closes, u.capitals_ascii stripped, v.capitals_ascii stripped]

attribute [irreducible] stops opens closes

def sqlBlocks : Blocks String where
  opens := opens u
  closes := closes u
  stops := stops
  stops_of_closes x closed := by
    rw [closes_eq, Bool.and_eq_true] at closed
    exact closed.1

/-- `"\n".join(lines).strip().rstrip(";").strip()`. -/
def statementText (lines : List String) : String :=
  pyStrip (stripSemicolons (pyStrip ("\n".intercalate lines)))

def Inked (line : String) : Prop := ∃ c ∈ line.toList, pySpace c = false

def Begins (line : String) : Prop := ∃ c ∈ line.toList, pySpace c = false ∧ c ≠ ';'

theorem inked_of_written {line : String} (kept : written line = true) : Inked line := by
  by_contra blank
  have all : ∀ c ∈ line.toList, pySpace c = true := by
    intro c member
    by_contra ink
    exact blank ⟨c, member, Bool.eq_false_iff.mpr ink⟩
  have none : pyStrip line = "" := by
    rw [← String.toList_eq_nil_iff, toList_pyStrip, trimmed, List.dropWhile_eq_nil_iff.mpr all,
      List.rdropWhile_nil]
  rw [written, none] at kept
  cases kept

theorem exists_semicolon {line : String} (stop : stops line = true) :
    ∃ before blank, line.toList = before ++ ';' :: blank ∧ ∀ c ∈ blank, pySpace c = true := by
  rw [stops_eq, endsWith, List.isSuffixOf_iff_suffix, toList_pyStrip] at stop
  obtain ⟨before, ended⟩ := stop
  have text := List.takeWhile_append_dropWhile (p := pySpace) (l := line.toList)
  rw [← @List.rdropWhile_append_rtakeWhile _ pySpace (line.toList.dropWhile pySpace)] at text
  change _ ++ (trimmed line.toList ++ _) = _ at text
  refine ⟨line.toList.takeWhile pySpace ++ before,
    (line.toList.dropWhile pySpace).rtakeWhile pySpace, ?_, ?_⟩
  · rw [← ended] at text
    apply text.symm.trans
    simp
  · intro c taken
    exact List.mem_rtakeWhile_imp taken

theorem toList_lines_append {xs ys : List String} (some_ : xs ≠ []) (more : ys ≠ []) :
    ("\n".intercalate (xs ++ ys)).toList =
      ("\n".intercalate xs).toList ++ '\n' :: ("\n".intercalate ys).toList := by
  rw [String.intercalate_append_of_ne_nil some_ more, String.toList_append, String.toList_append,
    List.append_assoc]
  rfl

theorem closeStatement_cases (lines : List String) :
    closeStatement lines = if statementText lines = "" then [] else [statementText lines] := by
  rw [closeStatement, statementText]

theorem toList_statementText (lines : List String) :
    (statementText lines).toList = bare ("\n".intercalate lines).toList := by
  rw [statementText, toList_bare]

attribute [irreducible] statementText

theorem statementText_ne {xs : List String} {x : String} {ys : List String}
    (inked : ∀ y ∈ ys, Inked y) (stop : stops x = true) (more : ys ≠ []) :
    statementText (xs ++ x :: ys) ≠ statementText (xs ++ [x]) := by
  obtain ⟨before, blank, split, spaces⟩ := exists_semicolon stop
  obtain ⟨front, ended⟩ : ∃ front, ("\n".intercalate (xs ++ [x])).toList = front ++
      ';' :: blank := by
    cases xs with
    | nil => exact ⟨before, split⟩
    | cons y xs =>
      rw [toList_lines_append (List.cons_ne_nil _ _) (List.cons_ne_nil _ _),
        String.intercalate_singleton, split,
        ← List.cons_append, ← List.append_assoc]
      exact ⟨_, rfl⟩
  have text : ∃ c ∈ ("\n".intercalate ys).toList, pySpace c = false := by
    cases ys with
    | nil => exact absurd rfl more
    | cons y ys =>
      obtain ⟨c, member, stays⟩ := inked y List.mem_cons_self
      refine ⟨c, ?_, stays⟩
      cases ys with
      | nil => rwa [String.intercalate_singleton]
      | cons z ys =>
        rw [String.intercalate_cons_cons, String.toList_append, String.toList_append,
          List.append_assoc]
        exact List.mem_append_left _ member
  have short := length_bare_of_ended front spaces
  have long := length_lt_bare front blank text
  intro same
  have sizes := congrArg (fun s => s.toList.length) same
  rw [toList_statementText, toList_statementText, List.append_cons xs x ys,
    toList_lines_append (by simp) more, ended, List.append_assoc, List.cons_append] at sizes
  omega

theorem closeStatement_eq {x : String} {xs : List String} (begins : Begins x) :
    closeStatement (x :: xs) = [statementText (x :: xs)] := by
  obtain ⟨c, member, stays, other⟩ := begins
  have inside : c ∈ ("\n".intercalate (x :: xs)).toList := by
    cases xs with
    | nil => rwa [String.intercalate_singleton]
    | cons y ys =>
      rw [String.intercalate_cons_cons, String.toList_append, String.toList_append,
        List.append_assoc]
      exact List.mem_append_left _ member
  have left := mem_bare inside stays other
  rw [← toList_statementText] at left
  rw [closeStatement_cases, if_neg]
  intro none
  rw [none] at left
  cases left

/-- What `split_statements` appends for a segment. -/
theorem sql_reads : (sqlBlocks u).Reads Inked Begins closeStatement statementText where
  gives _ _ := closeStatement_eq
  differs _ _ _ := statementText_ne

end Lines

section Splitting

variable (u : Letters)

theorem splitLine_unwritten {line : String} (dropped : written line = false) (s : SplitState) :
    splitLine u s line = s := by
  rw [written, Bool.not_eq_false', Bool.or_eq_true, decide_eq_true_iff] at dropped
  exact if_pos dropped

theorem splitLine_written {line : String} (kept : written line = true) (s : SplitState) :
    splitLine u s line =
      if (sqlBlocks u).cuts s.depth line then
        ⟨s.statements ++ closeStatement (s.current ++ [line]), [], 0⟩
      else ⟨s.statements, s.current ++ [line], (sqlBlocks u).after s.depth line⟩ := by
  have unblank : ¬(pyStrip line = "" ∨ startsWith (pyStrip line) "--" = true) := by
    rw [written, Bool.not_eq_true', Bool.or_eq_false_iff, decide_eq_false_iff_not] at kept
    exact not_or.mpr ⟨kept.1, Bool.eq_false_iff.mp kept.2⟩
  have cut : (sqlBlocks u).cuts s.depth line =
      (stops line && decide (s.depth + (opens u line).toNat - (closes u line).toNat = 0)) := rfl
  have depth : (sqlBlocks u).after s.depth line =
      s.depth + (opens u line).toNat - (closes u line).toNat := rfl
  rw [splitLine, if_neg unblank, cut, depth, closes_eq, stops_eq, opens_eq]
  dsimp only
  generalize endsWith (pyStrip line) ";" = stop
  generalize u.hasWord "BEGIN" (u.capitals (pyStrip line)) = word
  cases stop with
  | false => cases word <;> simp
  | true =>
    generalize endsWith (pyStrip (stripSemicolons (u.capitals (pyStrip line)))) "END" = ended
    cases ended with
    | false => cases word <;> simp
    | true =>
      cases word with
      | true => simp
      | false =>
        cases s.depth with
        | zero => simp
        | succ depth => simp

def prepend (current : List String) : List (List String) → List (List String)
  | [] => [current]
  | s :: rest => (current ++ s) :: rest

theorem closeStatement_nil : closeStatement [] = [] := by
  rw [closeStatement_cases, if_pos]
  rw [← String.toList_eq_nil_iff, toList_statementText]
  rfl

theorem foldl_splitLine (lines : List String) (s : SplitState) :
    (lines.foldl (splitLine u) s).statements ++
        closeStatement (lines.foldl (splitLine u) s).current =
      s.statements ++
        (prepend s.current ((sqlBlocks u).segments s.depth (lines.filter written))).flatMap
          closeStatement := by
  induction lines generalizing s with
  | nil => rw [List.foldl_nil, List.filter_nil, Blocks.segments, prepend, List.flatMap_singleton]
  | cons line lines ih =>
    rw [List.foldl_cons, ih]
    cases kept : written line with
    | false => rw [splitLine_unwritten u kept, List.filter_cons_of_neg (by simp [kept])]
    | true =>
      rw [splitLine_written u kept, List.filter_cons_of_pos kept, Blocks.segments]
      cases (sqlBlocks u).cuts s.depth line with
      | true =>
        rw [if_pos rfl, if_pos rfl, prepend, List.flatMap_cons, List.append_assoc]
        cases (sqlBlocks u).segments 0 (lines.filter written) with
        | nil => rw [prepend, List.flatMap_singleton, List.flatMap_nil, closeStatement_nil]
        | cons t rest => rfl
      | false =>
        rw [if_neg Bool.false_ne_true, if_neg Bool.false_ne_true]
        cases (sqlBlocks u).segments ((sqlBlocks u).after s.depth line) (lines.filter written) with
        | nil => rfl
        | cons t rest => rw [prepend, prepend, List.append_assoc, List.singleton_append]

theorem splitStatements_eq (sqlText : String) :
    splitStatements u sqlText =
      ((sqlBlocks u).segments 0 ((splitLines sqlText).filter written)).flatMap closeStatement := by
  have run := foldl_splitLine u (splitLines sqlText) {}
  rw [splitStatements, run, List.nil_append]
  cases (sqlBlocks u).segments 0 ((splitLines sqlText).filter written) with
  | nil => rw [prepend, List.flatMap_singleton, List.flatMap_nil, closeStatement_nil]
  | cons t rest => rfl

end Splitting

section Scripts

/-- A statement on lines of its own, blank and comment lines among them: it begins with something,
and ends with a semicolon at the end of its last line. -/
structure Statement where
  lines : List String
  whole : ∀ line ∈ lines, ∀ c ∈ line.toList, lineBreak c = false
  begins : ∃ first rest, lines.filter written = first :: rest ∧ Begins first
  ends : ∃ front last, lines.filter written = front ++ [last] ∧ stops last = true

namespace Statement

/-- The lines that are neither blank nor comments. -/
def kept (s : Statement) : List String := s.lines.filter written

/-- The statement without its semicolon. -/
def text (s : Statement) : String := statementText s.kept

/-- Where a line before the last one ends with a semicolon, more lines have had `BEGIN` than
`END;`. -/
def Held (u : Letters) (s : Statement) : Prop :=
  ∀ before line after, s.kept.dropLast = before ++ line :: after → stops line = true →
    (before ++ [line]).countP (closes u) < (before ++ [line]).countP (opens u)

/-- As many lines have `END;` as have `BEGIN`. -/
def Settled (u : Letters) (s : Statement) : Prop :=
  s.kept.countP (opens u) ≤ s.kept.countP (closes u)

end Statement

def script (statements : List Statement) : String :=
  String.ofList ((statements.flatMap (·.lines)).flatMap fun line => line.toList ++ ['\n'])

theorem splitLines_lines {lines : List String}
    (whole : ∀ line ∈ lines, ∀ c ∈ line.toList, lineBreak c = false) :
    splitLines (String.ofList (lines.flatMap fun line => line.toList ++ ['\n'])) =
      lines ++ [""] := by
  rw [splitLines, String.toList_ofList]
  induction lines with
  | nil => rfl
  | cons line lines ih =>
    obtain ⟨here, rest⟩ := List.forall_mem_cons.mp whole
    rw [List.flatMap_cons, List.append_assoc, List.singleton_append,
      List.splitOnP_append_cons_of_forall_mem here '\n' rfl, List.map_cons, ih rest,
        String.ofList_toList]
    rfl

theorem kept_script (statements : List Statement) :
    (splitLines (script statements)).filter written = (statements.map Statement.kept).flatten := by
  have whole : ∀ line ∈ statements.flatMap (·.lines), ∀ c ∈ line.toList, lineBreak c = false := by
    intro line member
    obtain ⟨s, -, held⟩ := List.mem_flatMap.mp member
    exact s.whole line held
  have blank : written "" = false := by decide +kernel
  rw [script, splitLines_lines whole, List.filter_append, List.filter_cons_of_neg (by simp [blank]),
    List.filter_nil,
    List.append_nil, List.filter_flatMap]
  rfl

theorem Statement.sound (u : Letters) (s : Statement) :
    (sqlBlocks u).Statement Inked Begins s.kept where
  good _ member := inked_of_written (List.mem_filter.mp member).2
  begins := s.begins
  ends := s.ends

/-- `split_statements` gives the statements back exactly where no statement is cut inside of a block
and none but the last one leaves a block open. -/
theorem splitStatements_script_iff (u : Letters) (statements : List Statement) :
    splitStatements u (script statements) = statements.map Statement.text ↔
      (∀ s ∈ statements, s.Held u) ∧ ∀ s ∈ statements.dropLast, s.Settled u := by
  have sound : ∀ s ∈ statements.map Statement.kept, (sqlBlocks u).Statement Inked Begins s := by
    intro lines member
    obtain ⟨s, -, rfl⟩ := List.mem_map.mp member
    exact s.sound u
  have given := Blocks.flatMap_segments_eq_iff (sql_reads u) sound
  rw [List.map_map, List.forall_mem_map, ← List.map_dropLast, List.forall_mem_map] at given
  rw [splitStatements_eq, kept_script]
  apply given.trans
  apply and_congr _ Iff.rfl
  apply forall₂_congr
  intro s _
  rw [Blocks.Inside]
  simp only [Nat.zero_add]
  rfl

/-- Head lines, a line `BEGIN`, the body, and a line `END;`. -/
structure Statement.Trigger (s : Statement) (head body : List String) : Prop where
  kept : s.kept = head ++ "BEGIN" :: (body ++ ["END;"])
  unended : ∀ line ∈ head, stops line = false

def caseHead : List String := ["CREATE TRIGGER t DELETE ON a"]

def caseBody : List String := ["SELECT CASE x WHEN 1 THEN 2 END;"]

theorem case_kept : (caseHead ++ "BEGIN" :: (caseBody ++ ["END;"])).filter written =
    caseHead ++ "BEGIN" :: (caseBody ++ ["END;"]) := by decide +kernel

/-- A trigger with a line that ends with the `END` of a `CASE`. -/
def caseTrigger : Statement where
  lines := caseHead ++ "BEGIN" :: (caseBody ++ ["END;"])
  whole := free_of_all (by decide +kernel)
  begins := ⟨_, _, case_kept, 'C', by decide +kernel⟩
  ends := ⟨caseHead ++ "BEGIN" :: caseBody, "END;", case_kept, by decide +kernel⟩

theorem case_ascii : ∀ line ∈ caseHead ++ ["BEGIN"] ++ caseBody, Ascii line := by decide +kernel

/-- The line that ends with the `END` of a `CASE` is taken for the end of the trigger, whatever
`str` knows of other characters. -/
theorem case_cuts_trigger : ¬∃ u : Letters, ∀ statements : List Statement,
    (∀ s ∈ statements, ∃ head body, s.Trigger head body) →
      splitStatements u (script statements) = statements.map Statement.text := by
  rintro ⟨u, recovers⟩
  have trigger : caseTrigger.Trigger caseHead caseBody := ⟨case_kept, by decide +kernel⟩
  have given := recovers [caseTrigger] (List.forall_mem_singleton.mpr ⟨_, _, trigger⟩)
  have lines : ([caseTrigger].map Statement.kept).flatten = (caseHead ++ "BEGIN" :: caseBody) ++
      ["END;"] := case_kept
  have sound : (sqlBlocks u).Statement Inked Begins
      ((caseHead ++ "BEGIN" :: caseBody) ++ ["END;"]) := case_kept ▸ caseTrigger.sound u
  have broken : ¬(sqlBlocks u).Unbroken 0 (caseHead ++ "BEGIN" :: caseBody) := by
    intro unbroken
    have stop : stops "SELECT CASE x WHEN 1 THEN 2 END;" = true := by decide +kernel
    have short := Blocks.unbroken_iff_inside.mp unbroken (caseHead ++ ["BEGIN"]) _ [] rfl stop
    have opened : (caseHead ++ ["BEGIN"] ++ caseBody).countP (opens u) =
        (caseHead ++ ["BEGIN"] ++ caseBody).countP (opens .plain) :=
      List.countP_congr fun line member => by rw [opens_ascii u .plain (case_ascii line member)]
    have closed : (caseHead ++ ["BEGIN"] ++ caseBody).countP (closes u) =
        (caseHead ++ ["BEGIN"] ++ caseBody).countP (closes .plain) :=
      List.countP_congr fun line member => by rw [closes_ascii u .plain (case_ascii line member)]
    change (caseHead ++ ["BEGIN"] ++ caseBody).countP (closes u) <
      0 + (caseHead ++ ["BEGIN"] ++ caseBody).countP (opens u) at short
    rw [opened, closed] at short
    exact absurd short (by decide +kernel)
  rw [splitStatements_eq, kept_script, lines] at given
  exact Blocks.early_ne (sql_reads u) sound broken [] [] given

end Scripts

end DreamStudio.Config
