import DreamStudio.Boundaries.RoundTrip

namespace DreamStudio.Boundaries

open Library WorkOrders Hooks Hooks.Native Regex

section Keyword

/-- What stands behind the first keyword. -/
def afterMarker (description : String) : Option (List Char) :=
  (splitMarker description.toList).map (·.2)

theorem splitMarker_eq_none {cs : List Char} (none : splitMarker cs = none) :
    ¬boundaryMarker.toList <:+: cs := by
  induction cs with
  | nil => exact fun inside => by cases List.infix_nil.mp inside
  | cons c cs ih =>
    rw [splitMarker] at none
    split at none
    · cases none
    · rename_i away
      intro inside
      rcases List.infix_cons_iff.mp inside with here | later
      · exact away (List.isPrefixOf_iff_prefix.mpr here)
      · exact ih (Option.map_eq_none_iff.mp none) later

theorem splitMarker_eq_some {cs before after : List Char}
    (found : splitMarker cs = some (before, after)) :
    cs = before ++ (boundaryMarker.toList ++ after) ∧ ∀ us v vs, before = us ++ v :: vs →
      ¬boundaryMarker.toList <+: v :: vs ++ (boundaryMarker.toList ++ after) := by
  induction cs generalizing before with
  | nil => cases found
  | cons c cs ih =>
    rw [splitMarker] at found
    split at found
    · rename_i here
      obtain ⟨rfl, rfl⟩ := Prod.mk.inj (Option.some.inj found)
      obtain ⟨rest, whole⟩ := List.isPrefixOf_iff_prefix.mp here
      refine ⟨?_, fun us v vs split => by cases us <;> cases split⟩
      rw [← whole, ← String.length_toList, List.drop_left]
      rfl
    · rename_i away
      obtain ⟨⟨before', after'⟩, found', same⟩ := Option.map_eq_some_iff.mp found
      obtain ⟨rfl, rfl⟩ := Prod.mk.inj same
      obtain ⟨whole, new⟩ := ih found'
      refine ⟨congrArg (c :: ·) whole, fun us v vs split => ?_⟩
      cases us with
      | nil =>
        obtain ⟨rfl, rfl⟩ := List.cons.inj split
        rw [List.cons_append, ← whole]
        exact fun here => away (List.isPrefixOf_iff_prefix.mpr here)
      | cons u us => exact new us v vs (List.cons.inj split).2

end Keyword

section Placed

/-- The text behind the keyword is blank, or starts on the keyword's line and not with a dot right
there; or it starts further down and names no path, or with a dot that ends it and there is no other
keyword. -/
inductive Placed : List Char → Prop
  | blank {after : List Char} (spaces : ∀ x ∈ after, pySpace x = true) : Placed after
  | line {w : List Char} {c : Char} {cs : List Char} (spaces : ∀ x ∈ w, pySpace x = true ∧ x ≠ '\n')
      (start : pySpace c = false) (dot : c = '.' → w ≠ []) : Placed (w ++ c :: cs)
  | below {w : List Char} {c : Char} {cs : List Char} (spaces : ∀ x ∈ w, pySpace x = true)
    (newline : '\n' ∈ w) (start : pySpace c = false) (dot : c ≠ '.')
    (prose : ∀ e ∈ partsOf (clause (c :: cs)), isBoundaryPath e = false) :
      Placed (w ++ c :: cs)
  | stop {cs : List Char} (ends : cs.head?.any lowercase = false)
    (last : ¬boundaryMarker.toList <:+: cs) : Placed ('.' :: cs)

theorem inline_of_space {x : Char} (space : pySpace x = true) (line : x ≠ '\n') :
    inline x = true := by
  have dot : x ≠ '.' := by
    rintro rfl
    cases space
  exact inline_of_ne dot line

theorem clause_spaces {w : List Char} (spaces : ∀ x ∈ w, pySpace x = true ∧ x ≠ '\n')
    (cs : List Char) :
    clause (w ++ cs) = w ++ clause cs := by
  induction w with
  | nil => rfl
  | cons x w ih =>
    obtain ⟨space, others⟩ := List.forall_mem_cons.mp spaces
    rw [List.cons_append, clause_cons_of_inline (inline_of_space space.1 space.2), ih others]
    rfl

theorem partsOf_spaces {w : List Char} (spaces : ∀ x ∈ w, pySpace x = true) (cs : List Char) :
    partsOf (w ++ cs) = partsOf cs := by
  induction w with
  | nil => rfl
  | cons x w ih =>
    obtain ⟨space, others⟩ := List.forall_mem_cons.mp spaces
    rw [List.cons_append, partsOf_space space, ih others]

theorem partsOf_blank {cs : List Char} (spaces : ∀ x ∈ cs, pySpace x = true) :
    partsOf cs = [""] := by
  rw [← List.append_nil cs, partsOf_spaces spaces]
  rfl

theorem first_body_blank {s t : Spot Char} (spaces : ∀ x ∈ s.ahead, pySpace x = true)
    (found : first body s = some t) :
    ∃ clause, t.groups.lookup 1 = some clause ∧ ∀ x ∈ clause, pySpace x = true := by
  rw [body, first_seq, runs_star_one] at found
  obtain ⟨u, member, here⟩ := List.exists_of_findSome?_eq_some found
  obtain ⟨n, -, rfl⟩ := List.mem_map.mp member
  have ahead := s.skip_ahead n
  generalize text : (s.skip n).ahead = cs at ahead
  have sub : ∀ x ∈ cs, pySpace x = true :=
    fun x inside => spaces x (List.mem_of_mem_drop (ahead ▸ inside))
  cases cs with
  | nil =>
    rw [first_group_sentence_eq_none (by rw [text]; rfl)] at here
    cases here
  | cons c cs =>
    cases goes : inline c with
    | false =>
      rw [first_group_sentence_eq_none
        (by rw [text, Stops, List.head?_cons, Option.all_some, goes]; rfl)] at here
      cases here
    | true =>
      obtain ⟨t', ends, group, -⟩ := first_group_sentence text goes
      rw [ends] at here
      obtain rfl := Option.some.inj here
      exact ⟨_, group, fun x inside => sub x ((clause_begins _).subset inside)⟩

theorem search_eq_none {cs : List Char} (none : ¬boundaryMarker.toList <:+: cs)
    (last : Option Char) :
    search clausePattern last cs = Option.none := by
  have away : ∀ us ds, cs = us ++ ds → ¬boundaryMarker.toList <+: ds := fun us ds split here =>
    none (split ▸ here.isInfix.trans (List.suffix_append us ds).isInfix)
  obtain ⟨last', passed⟩ : ∃ last', search clausePattern last (cs ++ []) =
      search clausePattern last' [] :=
    search_append last fun us v vs split last =>
    first_clausePattern_eq_none (s := ⟨last, v :: vs ++ [], []⟩) (by
      rw [List.append_nil]
      exact away us (v :: vs) split)
  rw [← List.append_nil cs, passed, search,
    first_clausePattern_eq_none (away cs [] (List.append_nil cs).symm)]

theorem search_keyword (last : Option Char) (after : List Char) :
    search clausePattern last (boundaryMarker.toList ++ after) =
      (first clausePattern ⟨last, boundaryMarker.toList ++ after, []⟩).or
        (search clausePattern (some 'M') (boundaryMarker.toList.tail ++ after)) := rfl

theorem infix_tail {after : List Char} (none : ¬boundaryMarker.toList <:+: after) :
    ¬boundaryMarker.toList <:+: boundaryMarker.toList.tail ++ after := by
  rintro ⟨us, vs, split⟩
  rw [List.append_assoc] at split
  rcases List.append_eq_append_iff.mp split with ⟨t, keyword, inside⟩ | ⟨t, -, later⟩
  · cases t with
    | nil => exact none ⟨[], vs, inside⟩
    | cons a t =>
      have first : 'M' = a := (List.cons.inj inside).1
      have again : 'M' ∈ boundaryMarker.toList.tail := by
        rw [keyword, first]
        exact List.mem_append_right _ List.mem_cons_self
      exact absurd again (by decide)
  · exact none ⟨t, vs, by rw [later, List.append_assoc]⟩

theorem globs_of_blank {before after : List Char} {description : String}
    (text : description.toList = before ++ (boundaryMarker.toList ++ after))
    (new : ∀ us v vs, before = us ++ v :: vs → ¬boundaryMarker.toList <+: v :: vs ++
      (boundaryMarker.toList ++ after)) (spaces : ∀ x ∈ after, pySpace x = true) :
      boundaryGlobs description = [] := by
  obtain ⟨last, passed⟩ := search_append (r := clausePattern) none fun us v vs split last =>
    first_clausePattern_eq_none (s := ⟨last, v :: vs ++ (boundaryMarker.toList ++ after), []⟩)
      (new us v vs split)
  have here (last : Option Char) :=
    first_clausePattern (s := ⟨last, boundaryMarker.toList ++ after, []⟩) rfl
  have ahead (last : Option Char) :
      (Spot.skip boundaryMarker.toList.length ⟨last, boundaryMarker.toList ++ after, []⟩).ahead =
        after := by
    rw [Spot.skip_ahead]
    exact List.drop_left
  rw [boundaryGlobs, clauseOf, text, passed]
  cases found : first body (Spot.skip boundaryMarker.toList.length
    ⟨last, boundaryMarker.toList ++ after, []⟩) with
  | some t =>
    obtain ⟨clause, group, blank⟩ := first_body_blank (by rw [ahead]; exact spaces) found
    rw [search_of_first ((here last).trans found), Option.bind_some, group, Option.elim_some,
      partsOf_blank blank]
    rfl
  | none =>
    have rest : ¬boundaryMarker.toList <:+: after := fun inside =>
      absurd (spaces 'M' (inside.subset List.mem_cons_self)) (by decide)
    rw [search_keyword, here, found, search_eq_none (infix_tail rest)]
    rfl

theorem globs_of_stop {before cs : List Char} {description : String}
    (text : description.toList = before ++ (boundaryMarker.toList ++ '.' :: cs))
    (new : ∀ us v vs, before = us ++ v :: vs → ¬boundaryMarker.toList <+: v :: vs ++
      (boundaryMarker.toList ++ '.' :: cs)) (final : ¬boundaryMarker.toList <:+: cs) :
      boundaryGlobs description = [] := by
  obtain ⟨last, passed⟩ := search_append (r := clausePattern) none fun us v vs split last =>
    first_clausePattern_eq_none (s := ⟨last, v :: vs ++ (boundaryMarker.toList ++ '.' :: cs), []⟩)
      (new us v vs split)
  have here := first_clausePattern (s := ⟨last, boundaryMarker.toList ++ '.' :: cs, []⟩) rfl
  have ahead :
      (Spot.skip boundaryMarker.toList.length
        ⟨last, boundaryMarker.toList ++ '.' :: cs, []⟩).ahead = '.' :: cs := by
    rw [Spot.skip_ahead]
    exact List.drop_left
  have fails := first_body_at_dot ahead
  have rest : ¬boundaryMarker.toList <:+: '.' :: cs := by
    rw [List.infix_cons_iff]
    rintro (⟨t, same⟩ | later)
    · cases same
    · exact final later
  rw [boundaryGlobs, clauseOf, text, passed, search_keyword, here, fails,
    search_eq_none (infix_tail rest)]
  rfl

theorem clause_below {w : List Char} (spaces : ∀ x ∈ w, pySpace x = true) (newline : '\n' ∈ w)
    (cs : List Char) :
    ∀ x ∈ clause (w ++ cs), pySpace x = true := by
  induction w with
  | nil => cases newline
  | cons x w ih =>
    obtain ⟨space, others⟩ := List.forall_mem_cons.mp spaces
    by_cases here : x = '\n'
    · rw [here, List.cons_append, clause_newline]
      exact List.forall_mem_nil _
    · rw [List.cons_append, clause_cons_of_inline (inline_of_space space here)]
      exact List.forall_mem_cons.mpr
        ⟨space, ih others ((List.mem_cons.mp newline).resolve_left (Ne.symm here))⟩

theorem globs_of_placed {description : String} {after : List Char}
    (found : afterMarker description = some after) (placed : Placed after) :
    boundaryGlobs description = kept (clause after) := by
  obtain ⟨⟨before, after'⟩, split, rfl⟩ := Option.map_eq_some_iff.mp found
  obtain ⟨text, new⟩ := splitMarker_eq_some split
  change Placed after' at placed
  change _ = kept (clause after')
  cases placed with
  | blank spaces =>
    rw [globs_of_blank text new spaces, kept,
      partsOf_blank fun x inside => spaces x ((clause_begins _).subset inside)]
    rfl
  | @line w c cs spaces start dot =>
    have blanks : ∀ x ∈ w, pySpace x = true := fun x member => (spaces x member).1
    rw [clause_spaces spaces, kept, partsOf_spaces blanks, boundaryGlobs]
    by_cases same : c = '.'
    · subst same
      obtain ⟨v, x, rfl⟩ := (List.eq_nil_or_concat' w).resolve_left (dot rfl)
      obtain ⟨space, line⟩ := spaces x (List.mem_append_right _ (List.mem_singleton_self x))
      have found := clauseOf_append text new fun s ahead =>
        first_body_dot (w := v) (n := 0) (by rw [ahead, List.append_assoc]; rfl)
        (fun y member => blanks y (List.mem_append_left _ member)) space
          (inline_of_space space line)
      rw [found, clause_cons_of_inline (inline_of_space space line), Option.elim_some,
        partsOf_space space]
      rfl
    · have goes := inline_of_start start same
      rw [clauseOf_append text new fun s ahead => first_body ahead blanks start goes,
        Option.elim_some]
  | @below w c cs spaces newline start dot prose =>
    have goes := inline_of_start start dot
    rw [boundaryGlobs, clauseOf_append text new fun s ahead => first_body ahead spaces start goes,
      Option.elim_some, kept,
      partsOf_blank (clause_below spaces newline _)]
    apply List.filter_eq_nil_iff.mpr
    intro e member path
    rw [prose e member] at path
    cases path
  | @stop cs ends final =>
    rw [globs_of_stop text new final, clause_dot_of_stop ends]
    rfl

end Placed

section Paths

/-- `rel_lower == g_norm or rel_lower.startswith(g_norm.rstrip("/") + "/")`. -/
def within (rel g : String) : Bool :=
  rel = g || startsWith rel
    (String.ofList ((g.toList.reverse.dropWhile (· = '/')).reverse ++ ['/']))

/-- `path_in_boundary` of `enforcement.py`, on a path that is relative. -/
def pathInBoundary (lower : String → String) (rel : String) (globs : List String) : Bool :=
  if globs = [] then true
  else globs.any fun g => within (lower rel) (lower (String.ofList (Enforcement.normalizeGlob g)))

theorem pathInBoundary_of_relativeTo {env : HookEnv} {file root rel : ResolvedPath}
    (relative : relativeTo env.py.lower file root = some rel) (globs : List String) :
    Enforcement.pathInBoundary env file root globs =
      pathInBoundary env.py.lower (Enforcement.asPosix rel) globs := by
  rw [Enforcement.pathInBoundary, relative]
  rfl

/-- `to_ascii_lowercase`. -/
def asciiLower (s : String) : String := String.ofList (asciiLowercase s.toList)

def covers (rel e : String) : Bool :=
  within (asciiLower rel) (asciiLower (String.ofList (Enforcement.normalizeGlob e)))

theorem slashed_eq_self {cs : List Char} (forward : '\\' ∉ cs) : slashed cs = cs := by
  rw [slashed]
  apply (List.map_congr_left fun c member => ?_).trans (List.map_id _)
  exact if_neg fun back : c = '\\' => forward (back ▸ member)

theorem native_covers (rel : List Char) (g : List Char) :
    (asciiLowercase rel = asciiLowercase g ||
      (trimEndMatches '/' (asciiLowercase g) ++ ['/']).isPrefixOf (asciiLowercase rel)) =
      within (String.ofList (asciiLowercase rel)) (String.ofList (asciiLowercase g)) := by
  rw [within, startsWith, String.toList_ofList, String.toList_ofList, String.toList_ofList]
  congr 1
  exact decide_eq_decide.mpr String.ofList_inj.symm

theorem native_pathInBoundary {rel : String} (forward : '\\' ∉ rel.toList) (globs : List String) :
    Native.pathInBoundary rel globs = pathInBoundary asciiLower rel globs := by
  by_cases none : globs = []
  · rw [Native.pathInBoundary, pathInBoundary, if_pos none, if_pos none]
  · rw [Native.pathInBoundary, pathInBoundary, if_neg none, if_neg none, slashed_eq_self forward]
    apply congrArg (globs.any ·)
    funext g
    apply (native_covers rel.toList _).trans
    rw [asciiLower, asciiLower, String.toList_ofList]
    rfl

end Paths

section Alike

/-- The two readers answer alike whether a boundary is declared and whether it has the path. -/
structure Alike (lower : String → String) (description rel : String) : Prop where
  declared : boundaryGlobs description = [] ↔ Native.boundaryGlobs description = []
  contained : pathInBoundary lower rel (boundaryGlobs description) =
    Native.pathInBoundary rel (Native.boundaryGlobs description)

/-- `p.trim().trim_end_matches('.').trim()`. -/
def trimPart (p : String) : String := String.ofList (trim (trimEndMatches '.' (trim p.toList)))

/-- `lower` changes ASCII letters only. -/
def Lowers (lower : String → String) (s : String) : Prop := lower s = asciiLower s

/-- `str.lower` and `to_ascii_lowercase` part ways on no comparison of the path with the entry. -/
def Folds (lower : String → String) (rel e : String) : Prop :=
  within (lower rel) (lower (String.ofList (Enforcement.normalizeGlob e))) = covers rel e

/-- The clause behind a keyword is one that both readers split and compare alike. -/
structure Reads (lower : String → String) (rel : String) (after : List Char) : Prop where
  placed : Placed after
  trims : ∀ p ∈ splitCommas (String.ofList (clause after)), trimPart p = stripPart p
  folds : ∀ e ∈ partsOf (clause after), isBoundaryPath e = true → Folds lower rel e

/-- An entry that is no path does not decide: there is a path besides, and it has what the entry
has. -/
structure Supported (rel : String) (entries : List String) : Prop where
  declared : ∀ e ∈ entries, e ≠ "" → ∃ g ∈ entries, isBoundaryPath g = true
  contained : ∀ e ∈ entries, e ≠ "" → covers rel e = true → ∃ g ∈ entries, isBoundaryPath g = true ∧
    covers rel g = true

instance (lower : String → String) (rel e : String) : Decidable (Folds lower rel e) :=
  inferInstanceAs (Decidable (_ = _))

variable {lower : String → String} {description rel : String} {after : List Char}

theorem native_globs (found : afterMarker description = some after)
    (reads : Reads lower rel after) :
    Native.boundaryGlobs description = (partsOf (clause after)).filter (· ≠ "") := by
  obtain ⟨⟨before, after'⟩, split, rfl⟩ := Option.map_eq_some_iff.mp found
  rw [Native.boundaryGlobs, split]
  exact congrArg (List.filter (· ≠ "")) (List.map_congr_left reads.trims)

theorem ne_empty_of_path {e : String} (path : isBoundaryPath e = true) : e ≠ "" := by
  rintro rfl
  cases path

theorem pathInBoundary_lower {globs : List String} (folds : ∀ e ∈ globs, Folds lower rel e) :
    pathInBoundary lower rel globs = pathInBoundary asciiLower rel globs := by
  by_cases none : globs = []
  · rw [pathInBoundary, pathInBoundary, if_pos none, if_pos none]
  · rw [pathInBoundary, pathInBoundary, if_neg none, if_neg none]
    rw [Bool.eq_iff_iff, List.any_eq_true, List.any_eq_true]
    apply exists_congr
    intro e
    apply and_congr_right
    intro member
    rw [folds e member, covers]

theorem pathInBoundary_iff {globs : List String} (declared : globs ≠ []) :
    pathInBoundary asciiLower rel globs = true ↔ ∃ e ∈ globs, covers rel e = true := by
  rw [pathInBoundary, if_neg declared, List.any_eq_true]
  rfl

theorem alike_of_unclaimed (none : afterMarker description = none) :
    Alike lower description rel := by
  have away := splitMarker_eq_none (Option.map_eq_none_iff.mp none)
  have unclaimed : contains description boundaryMarker = false :=
    Bool.eq_false_iff.mpr fun claimed => away ((contains_iff _ _).mp claimed)
  have python : boundaryGlobs description = [] := by
    rw [boundaryGlobs, clauseOf_eq_none unclaimed]
    rfl
  have native : Native.boundaryGlobs description = [] := by
    rw [Native.boundaryGlobs, Option.map_eq_none_iff.mp none]
  exact ⟨by rw [python, native], by rw [python, native]; rfl⟩

theorem alike_iff_supported (forward : '\\' ∉ rel.toList)
    (found : afterMarker description = some after) (reads : Reads lower rel after) :
    Alike lower description rel ↔ Supported rel (partsOf (clause after)) := by
  have python := globs_of_placed found reads.placed
  have native := native_globs found reads
  have paths {g : String} : g ∈ kept (clause after) ↔
      g ∈ partsOf (clause after) ∧ isBoundaryPath g = true :=
    List.mem_filter
  have named {e : String} : e ∈ (partsOf (clause after)).filter (· ≠ "") ↔
      e ∈ partsOf (clause after) ∧ e ≠ "" := by
    rw [List.mem_filter, decide_eq_true_eq]
  have lowered : pathInBoundary lower rel (kept (clause after)) =
      pathInBoundary asciiLower rel (kept (clause after)) :=
    pathInBoundary_lower fun e member => reads.folds e (paths.mp member).1 (paths.mp member).2
  constructor
  · intro alike
    have declared := alike.declared
    have contained := alike.contained
    rw [python, native] at declared contained
    rw [lowered, native_pathInBoundary forward] at contained
    have exists_path : ∀ e ∈ partsOf (clause after), e ≠ "" → kept (clause after) ≠ [] :=
      fun e member some none =>
      List.ne_nil_of_mem (named.mpr ⟨member, some⟩) (declared.mp none)
    refine ⟨fun e member some => ?_, fun e member some has => ?_⟩
    · obtain ⟨g, here⟩ := List.exists_mem_of_ne_nil _ (exists_path e member some)
      exact ⟨g, paths.mp here⟩
    · have inside := (pathInBoundary_iff (List.ne_nil_of_mem (named.mpr ⟨member, some⟩))).mpr
        ⟨e, named.mpr ⟨member, some⟩, has⟩
      rw [← contained] at inside
      obtain ⟨g, here, has'⟩ := (pathInBoundary_iff (exists_path e member some)).mp inside
      exact ⟨g, (paths.mp here).1, (paths.mp here).2, has'⟩
  · intro supported
    have sub : ∀ g ∈ kept (clause after), g ∈ (partsOf (clause after)).filter (· ≠ "") :=
      fun g here =>
      named.mpr ⟨(paths.mp here).1, ne_empty_of_path (paths.mp here).2⟩
    have declared : kept (clause after) = [] ↔ (partsOf (clause after)).filter (· ≠ "") = [] := by
      constructor
      · intro none
        apply List.eq_nil_iff_forall_not_mem.mpr
        intro e member
        obtain ⟨g, here, path⟩ := supported.declared e (named.mp member).1 (named.mp member).2
        exact List.ne_nil_of_mem (paths.mpr ⟨here, path⟩) none
      · intro none
        apply List.eq_nil_iff_forall_not_mem.mpr
        exact fun g here => List.ne_nil_of_mem (sub g here) none
    refine ⟨by rw [python, native]; exact declared, ?_⟩
    rw [python, native, lowered, native_pathInBoundary forward]
    by_cases none : kept (clause after) = []
    · rw [none, declared.mp none]
    · rw [Bool.eq_iff_iff, pathInBoundary_iff none,
        pathInBoundary_iff fun empty => none (declared.mpr empty)]
      constructor
      · rintro ⟨g, here, has⟩
        exact ⟨g, sub g here, has⟩
      · rintro ⟨e, member, has⟩
        obtain ⟨g, here, path, has'⟩ :=
          supported.contained e (named.mp member).1 (named.mp member).2 has
        exact ⟨g, paths.mpr ⟨here, path⟩, has'⟩

/-- Where the text behind the keyword is one that both readers split and compare alike, they answer
alike exactly where no entry that is no path decides. -/
theorem boundary_alike_iff (lower : String → String) (description rel : String)
    (forward : '\\' ∉ rel.toList)
    (reads : ∀ after, afterMarker description = some after → Reads lower rel after) :
    Alike lower description rel ↔
      ∀ after, afterMarker description = some after → Supported rel (partsOf (clause after)) := by
  cases found : afterMarker description with
  | none => exact ⟨fun _ => nofun, fun _ => alike_of_unclaimed found⟩
  | some after =>
    rw [alike_iff_supported forward found (reads after found)]
    exact ⟨fun supported _ same => Option.some.inj same ▸ supported, fun all => all after rfl⟩

theorem boundary_alike_iff_docs :
    Alike pyLower "Parsers.\n\nModule boundary: Core/a.py, docs." "docs/x.md" ↔
      ∀ after, afterMarker "Parsers.\n\nModule boundary: Core/a.py, docs." = some after →
        Supported "docs/x.md" (partsOf (clause after)) := by
  apply boundary_alike_iff pyLower _ _ (by decide +kernel)
  have found : afterMarker "Parsers.\n\nModule boundary: Core/a.py, docs." =
      some " Core/a.py, docs.".toList := by
    decide +kernel
  intro after same
  obtain rfl := Option.some.inj (found.symm.trans same)
  refine ⟨?_, by decide +kernel, by decide +kernel⟩
  exact @Placed.line [' '] 'C' "ore/a.py, docs.".toList (by simp [pySpace]) (by decide) nofun

/-- Prose is a boundary to one reader only. -/
theorem prose_unlike : ¬∀ (lower : String → String) (description rel : String), '\\' ∉ rel.toList →
    Alike lower description rel := by
  intro all
  have declared :=
    (all pyLower "Module boundary: the whole repository" "core/a.py" (by decide +kernel)).declared
  revert declared
  decide +kernel

end Alike

end DreamStudio.Boundaries
