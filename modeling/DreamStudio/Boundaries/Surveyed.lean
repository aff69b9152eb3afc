import DreamStudio.Boundaries.Contained
import DreamStudio.Library.Strip
import DreamStudio.WorkOrders.Admission

namespace DreamStudio.Boundaries

open Library WorkOrders Hooks

/-- `p.replace("\\", "/")`. -/
def slashes (p : String) : String :=
  String.ofList (p.toList.map fun c => if c = '\\' then '/' else c)

def surveyorReport (reason : String) : SeatReport where
  seat := "Merge-order steward"
  lane := "a-finding-filed-on-the-wrong-work-order"
  reason := reason

/-- `", ".join(xs[:3])`. -/
def firstThree (xs : List String) : String := ", ".intercalate (xs.take 3)

/-- `_surveyor`: a refusal, or what it cannot judge. -/
def surveyor (targetPaths : List String) (workOrderDescription : String) :
    Option SeatReport × Option SeatReport :=
  let paths := targetPaths.filter (pyStrip · ≠ "")
  if paths = [] then (none, none)
  else
    let globs := boundaryGlobs workOrderDescription
    if globs = [] then
      (none,
        some (surveyorReport
          ("this work order declares no `Module boundary:` clause, so whether" ++
            " " ++ firstThree paths ++ " belongs to it cannot be judged. Attribution is" ++
            " UNKNOWN, not confirmed -- declare a boundary with" ++
            " `ds work-order create --module-boundary` to have it checked")))
    else if paths.any fun p => globs.any (startsWith (slashes p) ·) then (none, none)
    else
      (some
        (surveyorReport ("none of " ++ firstThree paths ++
          " falls inside this work order's boundary" ++
          " (" ++ firstThree globs ++ "). A finding about another module's code filed here" ++
          " makes this work order un-closable for work it never owned -- register it" ++
          " against the work order whose boundary contains the file")), none)

section Survey

variable (lower : String → String) (description : String)

def Begun (rel : ResolvedPath) : Prop :=
  pyStrip (Enforcement.asPosix rel) ≠ "" ∧
    ∃ g ∈ boundaryGlobs description, startsWith (slashes (Enforcement.asPosix rel)) g = true

def Inside (rel : ResolvedPath) : Prop :=
  ∃ g ∈ boundaryGlobs description,
    within (lower (Enforcement.asPosix rel)) (lower (String.ofList (Enforcement.normalizeGlob g))) =
      true

/-- There is an entry, and a path that is not blank. -/
def Judged (paths : List ResolvedPath) : Prop :=
  boundaryGlobs description ≠ [] ∧ ∃ rel ∈ paths, pyStrip (Enforcement.asPosix rel) ≠ ""

instance : DecidablePred (Judged description) := fun _ => inferInstanceAs (Decidable (_ ∧ _))

variable {lower description} {paths : List ResolvedPath}

theorem surveyor_refuses : (surveyor (paths.map Enforcement.asPosix) description).1 ≠ none ↔
    Judged description paths ∧ ∀ rel ∈ paths, ¬Begun description rel := by
  have blank : (paths.map Enforcement.asPosix).filter (pyStrip · ≠ "") = [] ↔
      ¬∃ rel ∈ paths, pyStrip (Enforcement.asPosix rel) ≠ "" := by
    simp [List.filter_eq_nil_iff]
  rw [surveyor]
  split
  next none => exact iff_of_false (fun refused => refused rfl) fun both => blank.mp none both.1.2
  next some_ =>
    have stated := not_not.mp (mt blank.mpr some_)
    dsimp only
    split
    next undeclared =>
      exact iff_of_false (fun refused => refused rfl) fun both => both.1.1 undeclared
    next declared =>
      have begun : (((paths.map Enforcement.asPosix).filter (pyStrip · ≠ "")).any fun p =>
          (boundaryGlobs description).any (startsWith (slashes p) ·)) = true ↔
            ∃ rel ∈ paths, Begun description rel := by
        simp [Begun]
      rw [and_iff_right (show Judged description paths from ⟨declared, stated⟩)]
      split
      next found =>
        obtain ⟨rel, member, here⟩ := begun.mp found
        exact iff_of_false (fun refused => refused rfl) fun none => none rel member here
      next lost =>
        refine iff_of_true (Option.some_ne_none _) fun rel member here =>
          lost (begun.mpr ⟨rel, member, here⟩)

theorem relativeTo_append (root rel : ResolvedPath) :
    relativeTo lower (root ++ rel) root = some rel := by
  rw [relativeTo, if_pos (List.isPrefixOf_iff_prefix.mpr (List.prefix_append root rel)),
    List.drop_left]

/-- `path_in_boundary` on a path of the project. -/
theorem pathInBoundary_inside (env : HookEnv) (root rel : ResolvedPath) :
    Enforcement.pathInBoundary env (root ++ rel) root (boundaryGlobs description) = true ↔
      boundaryGlobs description = [] ∨ Inside env.py.lower description rel := by
  rw [pathInBoundary_of_relativeTo (relativeTo_append root rel), pathInBoundary]
  split
  next undeclared => exact iff_of_true rfl (Or.inl undeclared)
  next declared => rw [List.any_eq_true, or_iff_right declared, Inside]

end Survey

section Spelling

/-- `p` ends where `g` does, or has a border there. -/
def borders (g p : String) : Bool :=
  g.toList.getLast? = some '/' || (p.toList.drop g.toList.length).head?.all (· = '/')

/-- As it is written, the entry is the path or a directory of it. -/
def Written (g p : String) : Prop := startsWith p g = true ∧ borders g p = true

/-- The entry ends inside of a name of the path. -/
def Splits (g p : String) : Prop := startsWith p g = true ∧ borders g p = false

/-- The entry has the path in other letters or with other slashes alone. -/
def Respelled (lower : String → String) (g p : String) : Prop :=
  within (lower p) (lower (String.ofList (Enforcement.normalizeGlob g))) = true ∧ ¬Written g p

/-- `str.lower` goes name by name. -/
def Namewise (lower : String → String) : Prop :=
  ∀ a b, lower (a ++ "/" ++ b) = lower a ++ "/" ++ lower b

/-- A path in the project, with slashes between its names. -/
structure Relative (p : String) : Prop where
  within : p.toList.head? ≠ some '/'
  forward : '\\' ∉ p.toList

variable {lower : String → String} {g p : String}

theorem exists_behind (relative : Relative p) (written : Written g p) :
    ∃ behind, p.toList = Enforcement.normalizeGlob g ++ behind ∧ behind.head?.all (· = '/') =
      true := by
  obtain ⟨starts, borders⟩ := written
  obtain ⟨rest, text⟩ := List.isPrefixOf_iff_prefix.mp starts
  have slashed : g.toList.map (fun c => if c = '\\' then '/' else c) = g.toList :=
    slashed_eq_self fun back => relative.forward (text ▸ List.mem_append_left rest back)
  have unled : g.toList.dropWhile (· = '/') = g.toList := by
    cases letters : g.toList with
    | nil => rfl
    | cons c cs =>
      apply List.dropWhile_cons_of_neg
      have outer := relative.within
      rw [← text, letters] at outer
      exact fun slash => outer (congrArg some (of_decide_eq_true slash))
  have normal : Enforcement.normalizeGlob g = g.toList.rdropWhile (· = '/') := by
    rw [Enforcement.normalizeGlob, slashed, unled]
    rfl
  have ends := List.rdropWhile_append_rtakeWhile (p := fun c => decide (c = '/')) (l := g.toList)
  refine ⟨g.toList.rtakeWhile (· = '/') ++ rest, ?_, ?_⟩
  · rw [normal, ← List.append_assoc, ends, text]
  · cases tail : g.toList.rtakeWhile (· = '/') with
    | cons c cs =>
      have slash := List.mem_rtakeWhile_imp (tail ▸ List.mem_cons_self : c ∈ _)
      exact slash
    | nil =>
      rw [Boundaries.borders, ← text, List.drop_left, Bool.or_eq_true,
        decide_eq_true_iff] at borders
      apply borders.resolve_left
      intro last
      obtain ⟨front, whole⟩ := List.getLast?_eq_some_iff.mp last
      rw [whole, List.rtakeWhile_concat_pos (fun c => decide (c = '/')) front '/' rfl] at tail
      exact List.append_ne_nil_of_right_ne_nil _ (List.cons_ne_nil _ _) tail

theorem separated_of_rstrip (x y : List Char) :
    (x.reverse.dropWhile (· = '/')).reverse ++ ['/'] <+: x ++ '/' :: y := by
  have ends := List.rdropWhile_append_rtakeWhile (p := fun c => decide (c = '/')) (l := x)
  have slashes : ∀ c ∈ x.rtakeWhile (· = '/'), c = '/' := fun c member =>
    of_decide_eq_true (List.mem_rtakeWhile_imp (p := fun c => decide (c = '/')) member)
  have text : x ++ '/' :: y = x.rdropWhile (· = '/') ++ (x.rtakeWhile (· = '/') ++ '/' :: y) := by
    rw [← List.append_assoc, ends]
  rw [text]
  apply (List.prefix_append_right_inj _).mpr
  cases tail : x.rtakeWhile (· = '/') with
  | nil => exact ⟨y, rfl⟩
  | cons c cs =>
    rw [tail] at slashes
    rw [slashes c List.mem_cons_self]
    exact ⟨_, rfl⟩

/-- What an entry has as it is written, `path_in_boundary` finds in it. -/
theorem within_of_written (namewise : Namewise lower) (relative : Relative p)
    (written : Written g p) :
    within (lower p) (lower (String.ofList (Enforcement.normalizeGlob g))) = true := by
  obtain ⟨behind, text, border⟩ := exists_behind relative written
  rw [within, Bool.or_eq_true, decide_eq_true_iff]
  cases behind with
  | nil =>
    rw [List.append_nil] at text
    rw [← text, String.ofList_toList]
    exact Or.inl rfl
  | cons c rest =>
    have slash : c = '/' := of_decide_eq_true border
    have parts : p = String.ofList (Enforcement.normalizeGlob g) ++ "/" ++ String.ofList rest := by
      apply String.toList_injective
      rw [text, slash, String.toList_append, String.toList_append, String.toList_ofList,
        String.toList_ofList, String.toList_ofList, List.append_assoc]
      rfl
    rw [parts, namewise, startsWith, List.isPrefixOf_iff_prefix, String.toList_ofList,
      String.toList_append, String.toList_append, List.append_assoc]
    exact Or.inr (separated_of_rstrip _ _)

theorem startsWith_iff : startsWith p g = true ↔ Written g p ∨ Splits g p := by
  rw [Written, Splits, ← and_or_left]
  exact (and_iff_left (Bool.dichotomy _).symm).symm

theorem stated_of_entry {description : String} (entry : g ∈ boundaryGlobs description)
    (starts : startsWith p g = true) : pyStrip p ≠ "" := by
  rw [boundaryGlobs, List.mem_filter] at entry
  obtain ⟨listed, path⟩ := entry
  obtain ⟨clause, part, -, rfl⟩ : ∃ clause, ∃ part ∈ splitCommas (String.ofList clause),
      stripPart part = g := by
    cases found : clauseOf description with
    | none =>
      rw [found] at listed
      cases listed
    | some clause =>
      rw [found] at listed
      exact ⟨clause, List.mem_map.mp listed⟩
  obtain ⟨c, member, inked⟩ : ∃ c ∈ (stripPart part).toList, pySpace c = false := by
    by_contra blank
    have spaces : ∀ c ∈ (stripPart part).toList, pySpace c = true := fun c member =>
      Bool.not_eq_false _ |>.mp fun inked => blank ⟨c, member, inked⟩
    have none : pyStrip (stripPart part) = "" := by
      rw [← String.toList_eq_nil_iff, toList_pyStrip, trimmed, List.dropWhile_eq_nil_iff.mpr spaces,
        List.rdropWhile_nil]
    rw [stripPart, pyStrip_pyStrip] at none
    exact ne_empty_of_path path none
  obtain ⟨rest, text⟩ := List.isPrefixOf_iff_prefix.mp starts
  have kept : c ∈ (pyStrip p).toList := by
    rw [toList_pyStrip, ← text]
    exact mem_trimmed (List.mem_append_left rest member) inked
  intro none
  rw [none] at kept
  cases kept

end Spelling

section Agreement

variable {lower : String → String} {description : String} {paths : List ResolvedPath}

/-- Some path stands so to some entry. -/
def Finds (R : String → String → Prop) (description : String) (paths : List ResolvedPath) : Prop :=
  ∃ rel ∈ paths, ∃ g ∈ boundaryGlobs description, R g (Enforcement.asPosix rel)

theorem finds_or {R S : String → String → Prop} :
    Finds (fun g p => R g p ∨ S g p) description paths ↔
      Finds R description paths ∨ Finds S description paths := by
  simp only [Finds, and_or_left, exists_or]

theorem begun_iff (relative : ∀ rel ∈ paths, Relative (Enforcement.asPosix rel)) :
    (∃ rel ∈ paths, Begun description rel) ↔
      Finds Written description paths ∨ Finds Splits description paths := by
  rw [← finds_or, Finds]
  apply exists_congr
  intro rel
  apply and_congr_right
  intro member
  have forward : slashes (Enforcement.asPosix rel) = Enforcement.asPosix rel :=
    (congrArg String.ofList (slashed_eq_self (relative rel member).forward)).trans
      (String.ofList_toList)
  rw [Begun, forward]
  simp only [← startsWith_iff]
  exact and_iff_right_of_imp fun ⟨g, entry, starts⟩ => stated_of_entry entry starts

theorem inside_iff (namewise : Namewise lower)
    (relative : ∀ rel ∈ paths, Relative (Enforcement.asPosix rel)) :
    (∃ rel ∈ paths, Inside lower description rel) ↔
      Finds Written description paths ∨ Finds (Respelled lower) description paths := by
  rw [← finds_or, Finds]
  apply exists_congr
  intro rel
  apply and_congr_right
  intro member
  apply exists_congr
  intro g
  apply and_congr_right
  intro entry
  rw [Respelled]
  constructor
  · intro has
    exact (Classical.em _).imp_right (⟨has, ·⟩)
  · rintro (written | respelled)
    · exact within_of_written namewise (relative rel member) written
    · exact respelled.1

/-- The surveyor refuses exactly what `path_in_boundary` finds all outside where it judges and a
path stands under an entry as it is written, or entries that end inside of a name and entries that only
fit respelled are both there or both not, or where it does not judge and a path fits respelled or
nothing is declared. -/
theorem surveyor_agrees_iff (env : HookEnv) (namewise : Namewise env.py.lower)
    (root : ResolvedPath) (description : String)
    (relative : ∀ rel ∈ paths, Relative (Enforcement.asPosix rel)) :
    ((surveyor (paths.map Enforcement.asPosix) description).1 ≠ none ↔
      ∀ rel ∈ paths, Enforcement.pathInBoundary env (root ++ rel) root (boundaryGlobs description) =
        false) ↔
      if Judged description paths then
        Finds Written description paths ∨
          (Finds Splits description paths ↔ Finds (Respelled env.py.lower) description paths)
      else paths ≠ [] ∧ boundaryGlobs description = [] ∨
        Finds (Respelled env.py.lower) description paths := by
  have outside :
      (∀ rel ∈ paths, Enforcement.pathInBoundary env (root ++ rel) root
        (boundaryGlobs description) = false) ↔
      ¬∃ rel ∈ paths, boundaryGlobs description = [] ∨ Inside env.py.lower description rel := by
    simp only [← pathInBoundary_inside env root, Bool.not_eq_true, not_exists, not_and]
  have begun := @begun_iff description paths relative
  have inside := @inside_iff env.py.lower description paths namewise relative
  rw [surveyor_refuses, outside]
  split
  next judged =>
    simp only [or_iff_right judged.1]
    rw [and_iff_right judged, inside]
    have unbegun : (∀ rel ∈ paths, ¬Begun description rel) ↔
        ¬∃ rel ∈ paths, Begun description rel := by
      simp only [not_exists, not_and]
    rw [unbegun, begun, not_iff_not]
    by_cases written : Finds Written description paths
    · simp [written]
    · simp [written]
  next unjudged =>
    have refuses : ¬(Judged description paths ∧ ∀ rel ∈ paths, ¬Begun description rel) :=
      fun both => unjudged both.1
    have unwritten : ¬Finds Written description paths := by
      rintro ⟨rel, member, g, entry, written⟩
      exact unjudged ⟨List.ne_nil_of_mem entry, rel, member, stated_of_entry entry written.1⟩
    rw [iff_false_left refuses, not_not]
    simp only [and_or_left, exists_or, inside, or_iff_right unwritten]
    apply or_congr_left
    constructor
    · rintro ⟨rel, member, undeclared⟩
      exact ⟨List.ne_nil_of_mem member, undeclared⟩
    · rintro ⟨some_, undeclared⟩
      obtain ⟨rel, member⟩ := List.exists_mem_of_ne_nil _ some_
      exact ⟨rel, member, undeclared⟩

/-- Under an entry as it is written they agree. -/
theorem surveyor_agrees_docs :
    (surveyor (([["docs", "x.md"]] : List ResolvedPath).map Enforcement.asPosix)
        "Module boundary: docs.").1 ≠ none ↔
      ∀ rel ∈ ([["docs", "x.md"]] : List ResolvedPath),
        Enforcement.pathInBoundary ⟨bareStdlib, fun _ => none, [], []⟩ (["repo"] ++ rel) ["repo"]
          (boundaryGlobs "Module boundary: docs.") = false := by
  have relative : ∀ rel ∈ ([["docs", "x.md"]] : List ResolvedPath),
      Relative (Enforcement.asPosix rel) := by
    rw [List.forall_mem_singleton]
    exact ⟨by decide +kernel, by decide +kernel⟩
  apply (surveyor_agrees_iff ⟨bareStdlib, fun _ => none, [], []⟩ (fun _ _ => rfl) ["repo"]
    "Module boundary: docs." relative).mpr
  rw [if_pos (by decide +kernel)]
  exact Or.inl ⟨_, List.mem_cons_self, "docs", by decide +kernel, by decide +kernel,
    by decide +kernel⟩

/-- A name that an entry begins is not in its directory. -/
theorem neighbour_admitted : ¬∀ (env : HookEnv) (root : ResolvedPath) (description : String)
    (paths : List ResolvedPath),
    boundaryGlobs description ≠ [] →
      ((surveyor (paths.map Enforcement.asPosix) description).1 ≠ none ↔
        ∀ rel ∈ paths, Enforcement.pathInBoundary env (root ++ rel) root
          (boundaryGlobs description) = false) := by
  intro agrees
  have same := agrees ⟨bareStdlib, fun _ => none, [], []⟩ ["repo"] "Module boundary: docs."
    [["docs2", "x.md"]]
    (by decide +kernel)
  revert same
  decide +kernel

end Agreement

end DreamStudio.Boundaries
