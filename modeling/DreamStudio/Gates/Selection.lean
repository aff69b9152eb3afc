import DreamStudio.Gates.BlastRadius
import Mathlib.Algebra.GroupWithZero.Nat

namespace DreamStudio.Gates

open Library

variable {packages : Packages} {t : Checkout} {maxDepth : Option Nat}

section Closures

def brings (t : Checkout) (rel : String) : Finset String :=
  if isTestFile rel then {rel} else if isConftestFile rel then t.conftestScopeTests rel else ∅

def weight (t : Checkout) (rel : String) : Nat :=
  if isTestFile rel then 1
  else if isConftestFile rel then max 1 (t.conftestScopeTests rel).card else 0

def ancestorFiles (t : Checkout) (hops : Dict String Nat) : List (String × Nat) :=
  hops.filterMap fun (ancestor, hops) => (t.moduleIndex.get ancestor).map (·, hops)

theorem closure_eq_foldl (hops : Dict String Nat) :
    closure t maxDepth hops =
      (ancestorFiles t hops).foldl (fun c (rel, hops) => c.add t maxDepth rel hops) {} := by
  rw [ancestorFiles, List.foldl_filterMap, closure]
  congr 1
  funext c item
  obtain ⟨ancestor, distance⟩ := item
  simp only
  cases t.moduleIndex.get ancestor <;> rfl

theorem foldl_add (files : List (String × Nat)) (c : Closure) :
    files.foldl (fun c (rel, hops) => c.add t maxDepth rel hops) c =
      { tests := c.tests ∪
          ((files.filter fun f => isTestFile f.1 && withinDepth maxDepth f.2).map (·.1)).toFinset
        conftests := c.conftests ∪
          ((files.filter fun f => !isTestFile f.1 && isConftestFile f.1 &&
            withinDepth maxDepth f.2).map
            (·.1)).toFinset
        truncated := c.truncated +
          ((files.filter fun f => !withinDepth maxDepth f.2).map fun f => weight t f.1).sum } := by
  induction files generalizing c with
  | nil => simp
  | cons f files ih =>
    obtain ⟨rel, hops⟩ := f
    rw [List.foldl_cons, ih]
    cases test : isTestFile rel <;> cases near : withinDepth maxDepth hops <;>
      cases conftest : isConftestFile rel <;>
      simp [Closure.add, weight, test, near, conftest, Nat.add_assoc, Finset.insert_union]

end Closures

section Selections

variable (packages t) (changed : Finset String)

def tokensOf : Finset String := changed.biUnion fileTokens

def packsOf : Finset String := changed.biUnion packTokens

def ancestorsOf : List (String × Nat) :=
  ancestorFiles t (ancestorHops packages (knownChanged t (tokensOf changed)) t.importGraph)

/-- The call does not return: a test file that it reads, or a module of the graph, makes it
raise. -/
def Raises : Prop :=
  ((tokensOf changed ≠ ∅ ∨ packsOf changed ≠ ∅) ∧
      ∃ f ∈ t.testFiles, ¬(f.path ∈ changed ∧ isTestFile f.path = true) ∧ f.text = .undecodable) ∨
    (tokensOf changed ≠ ∅ ∧ t.graphRaises = true)

def Hit (maxDepth : Option Nat) (rel : String) : Prop :=
  isConftestFile rel = true ∧
    (rel ∈ changed ∨
      isTestFile rel = false ∧ ∃ hops, (rel, hops) ∈ ancestorsOf packages t changed ∧
        withinDepth maxDepth hops = true)

inductive Selected (maxDepth : Option Nat) : String → Prop
  | changed {rel : String} (member : rel ∈ changed) (test : isTestFile rel = true) :
    Selected maxDepth rel
  | named {f : RepoFile} (member : f ∈ t.testFiles)
      (named : names packages (tokensOf changed) (packsOf changed) f = true) :
      Selected maxDepth f.path
  | imports {rel : String} {hops : Nat} (reached : (rel, hops) ∈ ancestorsOf packages t changed)
      (near : withinDepth maxDepth hops = true) (test : isTestFile rel = true) :
      Selected maxDepth rel
  | fixture {rel test : String} (hit : Hit packages t changed maxDepth rel)
      (member : test ∈ t.conftestScopeTests rel) : Selected maxDepth test

end Selections

section Results

variable {changedFiles : List String}

theorem ancestorsOf_of_empty {changed : Finset String} (nothing : tokensOf changed = ∅) :
    ancestorsOf packages t changed = [] := by
  have known : knownChanged t (tokensOf changed) = [] := by simp [knownChanged, nothing]
  rw [ancestorsOf, known]
  rfl

def foundOf (packages : Packages) (t : Checkout) (changed : Finset String) (maxDepth : Option Nat) :
    Closure :=
  if tokensOf changed = ∅ then {}
  else closure t maxDepth (ancestorHops packages (knownChanged t (tokensOf changed)) t.importGraph)

theorem foundOf_eq (changed : Finset String) :
    foundOf packages t changed maxDepth =
      (ancestorsOf packages t changed).foldl (fun c (rel, hops) => c.add t maxDepth rel hops)
      {} := by
  unfold foundOf
  split
  next nothing =>
    rw [ancestorsOf_of_empty nothing]
    rfl
  · exact closure_eq_foldl _

def readOf (t : Checkout) (changed : Finset String) : List RepoFile :=
  t.testFiles.filter (·.path ∉ changed.filter (isTestFile ·))

def dependentOf (packages : Packages) (t : Checkout) (changed : Finset String)
    (maxDepth : Option Nat) :
    Finset String :=
  let named := (readOf t changed).filter (names packages (tokensOf changed) (packsOf changed))
  let found := foundOf packages t changed maxDepth
  changed.filter (isTestFile ·) ∪ (named.map (·.path)).toFinset ∪ found.tests ∪
    (changed.filter (isConftestFile ·) ∪ found.conftests).biUnion t.conftestScopeTests

theorem raises_iff {changed : Finset String} :
    Raises t changed ↔
      ((tokensOf changed ≠ ∅ ∨ packsOf changed ≠ ∅) ∧
          (readOf t changed).any (·.text = .undecodable) = true) ∨
        (tokensOf changed ≠ ∅ ∧ t.graphRaises = true) := by
  simp [Raises, readOf, imp_iff_not_or]

instance (changed : Finset String) : Decidable (Raises t changed) :=
  decidable_of_iff _ raises_iff.symm

theorem mem_found_tests {changed : Finset String} {rel : String} :
    rel ∈ (foundOf packages t changed maxDepth).tests ↔
      isTestFile rel = true ∧
        ∃ hops, (rel, hops) ∈ ancestorsOf packages t changed ∧
          withinDepth maxDepth hops = true := by
  rw [foundOf_eq, foldl_add]
  simp only [Finset.empty_union, List.mem_toFinset, List.mem_map, List.mem_filter, Bool.and_eq_true]
  constructor
  · rintro ⟨⟨_, hops⟩, ⟨member, test, near⟩, rfl⟩
    exact ⟨test, hops, member, near⟩
  · rintro ⟨test, hops, member, near⟩
    exact ⟨(rel, hops), ⟨member, test, near⟩, rfl⟩

theorem mem_conftests {changed : Finset String} {rel : String} :
    rel ∈ changed.filter (isConftestFile ·) ∪ (foundOf packages t changed maxDepth).conftests ↔
      Hit packages t changed maxDepth rel := by
  rw [foundOf_eq, foldl_add, Hit]
  simp only [Finset.empty_union, Finset.mem_union, Finset.mem_filter,
    List.mem_toFinset, List.mem_map,
    List.mem_filter, Bool.and_eq_true, Bool.not_eq_true']
  constructor
  · rintro (⟨member, conftest⟩ | ⟨⟨_, hops⟩, ⟨member, ⟨other, conftest⟩, near⟩, rfl⟩)
    · exact ⟨conftest, .inl member⟩
    · exact ⟨conftest, .inr ⟨other, hops, member, near⟩⟩
  · rintro ⟨conftest, member | ⟨other, hops, member, near⟩⟩
    · exact .inl ⟨member, conftest⟩
    · exact .inr ⟨(rel, hops), ⟨member, ⟨other, conftest⟩, near⟩, rfl⟩

theorem mem_dependentOf {changed : Finset String} {test : String} :
    test ∈ dependentOf packages t changed maxDepth ↔ Selected packages t changed maxDepth test := by
  simp only [dependentOf, Finset.mem_union (t := Finset.biUnion _ _), Finset.mem_biUnion,
    mem_conftests]
  rw [Finset.mem_union, mem_found_tests, Finset.mem_union]
  simp only [Finset.mem_filter, List.mem_toFinset, List.mem_map, readOf, List.mem_filter,
    decide_eq_true_eq]
  constructor
  · rintro (((⟨member, own⟩ | ⟨f, ⟨⟨member, -⟩, named⟩, rfl⟩) | ⟨own, hops, member, near⟩) |
      ⟨rel, hit, member⟩)
    · exact .changed member own
    · exact .named member named
    · exact .imports member near own
    · exact .fixture hit member
  · rintro (⟨member, own⟩ | ⟨member, named⟩ | ⟨member, near, own⟩ | ⟨hit, member⟩)
    · exact .inl (.inl (.inl ⟨member, own⟩))
    next f =>
      by_cases there : f.path ∈ changed ∧ isTestFile f.path = true
      · exact .inl (.inl (.inl there))
      · exact .inl (.inl (.inr ⟨f, ⟨⟨member, there⟩, named⟩, rfl⟩))
    · exact .inl (.inr ⟨own, _, member, near⟩)
    · exact .inr ⟨_, hit, member⟩

theorem computeImpactSet_eq_ok {r : ImpactSet} :
    computeImpactSet packages t maxDepth changedFiles = .ok r ↔
      ¬Raises t (changedSet changedFiles) ∧
        r = {
          changedFiles := (changedSet changedFiles).sort (· ≤ ·)
          dependentTests := (dependentOf packages t (changedSet changedFiles) maxDepth).sort (· ≤ ·)
          moduleTokens := (tokensOf (changedSet changedFiles)).sort (· ≤ ·)
          importGraphTruncatedTestCount :=
            (((ancestorsOf packages t (changedSet changedFiles)).filter
              fun f => !withinDepth maxDepth f.2).map fun f => weight t f.1).sum } := by
  have count : (foundOf packages t (changedSet changedFiles) maxDepth).truncated =
      (((ancestorsOf packages t (changedSet changedFiles)).filter
        fun f => !withinDepth maxDepth f.2).map fun f => weight t f.1).sum := by
    rw [foundOf_eq, foldl_add]
    exact Nat.zero_add _
  rw [raises_iff, ← count]
  unfold computeImpactSet
  simp only
  split
  next first => exact iff_of_false nofun fun ⟨fine, _⟩ => fine (.inl first)
  next first =>
    split
    next second => exact iff_of_false nofun fun ⟨fine, _⟩ => fine (.inr second)
    next second =>
      constructor
      · rintro ⟨⟩
        exact ⟨fun raised => raised.elim first second, rfl⟩
      · rintro ⟨-, rfl⟩
        rfl

end Results

section Example

def levels (g : ImportGraph) : Nat → List String → List String → Nat → Dict String Nat
  | 0, _, _, _ => []
  | fuel + 1, seen, level, distance =>
    let next := ((g.edges.filter fun e => e.1 ∈ level ∧ e.2 ∉ seen).map (·.2)).dedup
    level.map (·, distance) ++ levels g fuel (seen ++ next) next (distance + 1)

def asciiPackages : Packages where
  word c := c.isAlphanum || c = '_'
  shortestPathLength g source := levels g g.nodes.length [source] [source] 0

end Example

end DreamStudio.Gates
