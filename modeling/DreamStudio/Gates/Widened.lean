import DreamStudio.Gates.Selection

namespace DreamStudio.Gates

open Library

section Hops

variable {changed : List String} {hops : Dict String Nat} {n : String} {d : Nat}

theorem mem_foldl_nearer {items : List (String × Nat)}
    (member : (n, d) ∈ items.foldl (nearer changed) hops) :
    (n, d) ∈ hops ∨ ((n, d) ∈ items ∧ n ∉ changed) := by
  induction items generalizing hops with
  | nil => exact .inl member
  | cons item items ih =>
    rcases ih member with member | ⟨there, other⟩
    · have here : (n, d) ∈ hops ∨ (item.1 ∉ changed ∧ (n, d) = item) := by
        unfold nearer at member
        split at member
        · exact .inl member
        next other =>
          split at member
          · exact (Dict.mem_set member).imp id fun same => ⟨other, same⟩
          · split at member
            · exact (Dict.mem_set member).imp id fun same => ⟨other, same⟩
            · exact .inl member
      rcases here with before | ⟨other, rfl⟩
      · exact .inl before
      · exact .inr ⟨List.mem_cons_self, other⟩
    · exact .inr ⟨List.mem_cons_of_mem item there, other⟩

theorem nearer_le {item : String × Nat} (held : ∃ h ≤ d, hops.get n = some h) :
    ∃ h ≤ d, (nearer changed hops item).get n = some h := by
  obtain ⟨h, le, found⟩ := held
  unfold nearer
  split
  · exact ⟨h, le, found⟩
  · by_cases same : n = item.1
    · subst same
      rw [found]
      simp only
      split
      next less => exact ⟨item.2, less.le.trans le, Dict.get_set_self _ _ _⟩
      · exact ⟨h, le, found⟩
    · split
      · exact ⟨h, le, (Dict.get_set_of_ne _ _ same).trans found⟩
      · split
        · exact ⟨h, le, (Dict.get_set_of_ne _ _ same).trans found⟩
        · exact ⟨h, le, found⟩

theorem nearer_self (other : n ∉ changed) :
    ∃ h ≤ d, (nearer changed hops (n, d)).get n = some h := by
  unfold nearer
  rw [if_neg other]
  cases found : hops.get n with
  | none => exact ⟨d, le_rfl, Dict.get_set_self _ _ _⟩
  | some known =>
    simp only
    split
    · exact ⟨d, le_rfl, Dict.get_set_self _ _ _⟩
    next more => exact ⟨known, not_lt.mp more, found⟩

theorem foldl_nearer_le {items : List (String × Nat)} (held : ∃ h ≤ d, hops.get n = some h) :
    ∃ h ≤ d, (items.foldl (nearer changed) hops).get n = some h := by
  induction items generalizing hops with
  | nil => exact held
  | cons item items ih => exact ih (nearer_le held)

theorem foldl_nearer_mem {items : List (String × Nat)} (member : (n, d) ∈ items)
    (other : n ∉ changed) :
    ∃ h ≤ d, (items.foldl (nearer changed) hops).get n = some h := by
  induction items generalizing hops with
  | nil => cases member
  | cons item items ih =>
    rcases List.mem_cons.mp member with rfl | member
    · rw [List.foldl_cons]
      exact foldl_nearer_le (nearer_self other)
    · exact ih member

variable {packages : Packages} {graph : ImportGraph}

theorem ancestorHops_eq :
    ancestorHops packages changed graph =
      ((changed.filter (· ∈ graph.nodes)).flatMap (packages.shortestPathLength graph.reverse)).foldl
        (nearer changed) [] := by
  rw [ancestorHops, List.foldl_flatMap]

theorem ancestorHops_le {more : List String} (sub : changed ⊆ more)
    (reached : (n, d) ∈ ancestorHops packages changed graph) (other : n ∉ more) :
    ∃ h ≤ d, (n, h) ∈ ancestorHops packages more graph := by
  rw [ancestorHops_eq] at reached
  rcases mem_foldl_nearer reached with none_ | ⟨member, -⟩
  · cases none_
  · obtain ⟨source, there, at_⟩ := List.mem_flatMap.mp member
    obtain ⟨inside, node⟩ := List.mem_filter.mp there
    have again : (n, d) ∈ (more.filter (· ∈ graph.nodes)).flatMap
        (packages.shortestPathLength graph.reverse) :=
      List.mem_flatMap.mpr ⟨source, List.mem_filter.mpr ⟨sub inside, node⟩, at_⟩
    have found : ∃ h ≤ d, (ancestorHops packages more graph).get n = some h := by
      rw [ancestorHops_eq]
      exact foldl_nearer_mem again other
    obtain ⟨h, le, found⟩ := found
    exact ⟨h, le, Dict.mem_of_get found⟩

end Hops

variable (packages : Packages) (t : Checkout) (maxDepth : Option Nat)

/-- What the change to `A` selects, the change to `A` and `B` selects too. -/
def Monotone (A B : List String) : Prop :=
  ∀ a, computeImpactSet packages t maxDepth A = .ok a →
    ∃ b, computeImpactSet packages t maxDepth (A ++ B) = .ok b ∧ a.dependentTests ⊆ b.dependentTests

/-- An ancestor within the bound that has the name of a token of the wider change brings no test
that the wider change does not select by another rule. -/
def Unmasked (changed more : Finset String) : Prop :=
  ∀ module hops rel,
    (module, hops) ∈ ancestorHops packages (knownChanged t (tokensOf changed)) t.importGraph →
    withinDepth maxDepth hops = true → t.moduleIndex.get module = some rel →
      module ∈ tokensOf more →
    ∀ test ∈ brings t rel, Selected packages t more maxDepth test

section Widening

variable {packages t maxDepth} {changed more : Finset String}

theorem mem_ancestorsOf {rel : String} {hops : Nat} :
    (rel, hops) ∈ ancestorsOf packages t changed ↔
      ∃ module,
        (module, hops) ∈ ancestorHops packages (knownChanged t (tokensOf changed)) t.importGraph ∧
        t.moduleIndex.get module = some rel := by
  simp only [ancestorsOf, ancestorFiles, List.mem_filterMap, Option.map_eq_some_iff]
  constructor
  · rintro ⟨⟨module, distance⟩, member, found, index, same⟩
    cases same
    exact ⟨module, member, index⟩
  · rintro ⟨module, member, index⟩
    exact ⟨(module, hops), member, rel, index, rfl⟩

theorem tokensOf_mono (sub : changed ⊆ more) : tokensOf changed ⊆ tokensOf more :=
  Finset.biUnion_subset_biUnion_of_subset_left _ sub

theorem names_mono (sub : changed ⊆ more) {f : RepoFile}
    (named : names packages (tokensOf changed) (packsOf changed) f = true) :
    names packages (tokensOf more) (packsOf more) f = true := by
  have packs : packsOf changed ⊆ packsOf more := Finset.biUnion_subset_biUnion_of_subset_left _ sub
  unfold names at named ⊢
  split
  next s text =>
    simp only [text, Bool.or_eq_true, decide_eq_true_eq] at named ⊢
    refine named.imp ?_ ?_
    · exact fun ⟨token, member, found⟩ => ⟨token, tokensOf_mono sub member, found⟩
    · exact fun ⟨token, member, found⟩ => ⟨token, packs member, found⟩
  · simp only at named
    cases named

theorem ancestor_stays (sub : changed ⊆ more) {module rel : String} {hops : Nat}
    (reached : (module, hops) ∈ ancestorHops packages (knownChanged t (tokensOf changed))
      t.importGraph)
    (near : withinDepth maxDepth hops = true) (index : t.moduleIndex.get module = some rel)
    (other : module ∉ tokensOf more) :
    ∃ h, (rel, h) ∈ ancestorsOf packages t more ∧ withinDepth maxDepth h = true := by
  have known : knownChanged t (tokensOf changed) ⊆ knownChanged t (tokensOf more) := by
    intro m member
    obtain ⟨there, token⟩ := List.mem_filter.mp member
    exact List.mem_filter.mpr ⟨there, decide_eq_true (tokensOf_mono sub (of_decide_eq_true token))⟩
  have outside : module ∉ knownChanged t (tokensOf more) := fun member =>
    other (of_decide_eq_true (List.mem_filter.mp member).2)
  obtain ⟨h, le, again⟩ := ancestorHops_le known reached outside
  refine ⟨h, mem_ancestorsOf.mpr ⟨module, again, index⟩, ?_⟩
  unfold withinDepth at near ⊢
  cases maxDepth with
  | none => rfl
  | some bound => exact decide_eq_true (le.trans (of_decide_eq_true near))

theorem Selected.widen (sub : changed ⊆ more) (unmasked : Unmasked packages t maxDepth changed more)
    {test : String} (selected : Selected packages t changed maxDepth test) :
    Selected packages t more maxDepth test := by
  cases selected with
  | changed member own => exact .changed (sub member) own
  | named member named => exact .named member (names_mono sub named)
  | imports reached near own =>
    obtain ⟨module, reached, index⟩ := mem_ancestorsOf.mp reached
    by_cases masked : module ∈ tokensOf more
    · apply unmasked module _ test reached near index masked
      rw [brings, if_pos own]
      exact Finset.mem_singleton_self test
    · obtain ⟨h, again, near⟩ := ancestor_stays sub reached near index masked
      exact .imports again near own
  | @fixture rel _ hit member =>
    obtain ⟨conftest, there | ⟨other, hops, reached, near⟩⟩ := hit
    · exact .fixture ⟨conftest, .inl (sub there)⟩ member
    · obtain ⟨module, reached, index⟩ := mem_ancestorsOf.mp reached
      by_cases masked : module ∈ tokensOf more
      · apply unmasked module hops rel reached near index masked
        rw [brings, if_neg (Bool.eq_false_iff.mp other), if_pos conftest]
        exact member
      · obtain ⟨h, again, near⟩ := ancestor_stays sub reached near index masked
        exact .fixture ⟨conftest, .inr ⟨other, h, again, near⟩⟩ member

theorem selected_of_brings {module rel test : String} {hops : Nat}
    (reached : (module, hops) ∈ ancestorHops packages (knownChanged t (tokensOf changed))
      t.importGraph)
    (near : withinDepth maxDepth hops = true) (index : t.moduleIndex.get module = some rel)
    (member : test ∈ brings t rel) : Selected packages t changed maxDepth test := by
  have there := mem_ancestorsOf.mpr ⟨module, reached, index⟩
  rw [brings] at member
  split at member
  next own =>
    rw [Finset.mem_singleton.mp member]
    exact .imports there near own
  next other =>
    split at member
    next conftest =>
      exact .fixture ⟨conftest, .inr ⟨Bool.eq_false_iff.mpr other, hops, there, near⟩⟩ member
    · exact absurd member (Finset.notMem_empty test)

end Widening

theorem changedSet_append (A B : List String) :
    changedSet (A ++ B) = changedSet A ∪ changedSet B := by
  simp [changedSet]

/-- A wider change selects no less exactly when it raises no error that the narrower one does not,
and masks no ancestor that brings a test it does not select otherwise. -/
theorem monotone_iff (A B : List String) :
    Monotone packages t maxDepth A B ↔
      Raises t (changedSet A) ∨
        ¬Raises t (changedSet (A ++ B)) ∧
          Unmasked packages t maxDepth (changedSet A) (changedSet (A ++ B)) := by
  have sub : changedSet A ⊆ changedSet (A ++ B) := by
    rw [changedSet_append]
    exact Finset.subset_union_left
  constructor
  · intro mono
    refine or_iff_not_imp_left.mpr fun fine => ?_
    obtain ⟨b, second, subset⟩ := mono _ (computeImpactSet_eq_ok.mpr ⟨fine, rfl⟩)
    obtain ⟨fine', rfl⟩ := computeImpactSet_eq_ok.mp second
    refine ⟨fine', fun module hops rel reached near index _ test member => ?_⟩
    have before := mem_dependentOf.mpr (selected_of_brings reached near index member)
    have after := subset ((Finset.mem_sort _).mpr before)
    exact mem_dependentOf.mp ((Finset.mem_sort _).mp after)
  · rintro (raises | ⟨fine, unmasked⟩) a first
    · exact absurd raises (computeImpactSet_eq_ok.mp first).1
    · obtain ⟨-, rfl⟩ := computeImpactSet_eq_ok.mp first
      refine ⟨_, computeImpactSet_eq_ok.mpr ⟨fine, rfl⟩, fun test member => ?_⟩
      have before := mem_dependentOf.mp ((Finset.mem_sort _).mp member)
      exact (Finset.mem_sort _).mpr (mem_dependentOf.mpr (before.widen sub unmasked))

section Example

def gated : Checkout where
  root := ["home"]
  files := [⟨"core/x.py", .text "", .nodes []⟩,
    ⟨"tests/test_gate.py", .text "from core import x", .nodes [.importsFrom (some "core") ["x"] 0]⟩]
  unique := by decide

/-- A package that was there under the name of the test hides it. -/
theorem gated_masked :
    ¬Monotone asciiPackages gated (some 3) ["core/x.py"] ["tests/test_gate/__init__.py"] := by
  intro mono
  have fine : ¬Raises gated (changedSet ["core/x.py"]) := by decide +kernel
  obtain ⟨b, second, subset⟩ := mono _ (computeImpactSet_eq_ok.mpr ⟨fine, rfl⟩)
  obtain ⟨-, rfl⟩ := computeImpactSet_eq_ok.mp second
  have before :
      "tests/test_gate.py" ∈ dependentOf asciiPackages gated (changedSet ["core/x.py"])
        (some 3) := by
    decide +kernel
  have after := (Finset.mem_sort _).mp (subset ((Finset.mem_sort _).mpr before))
  exact absurd after (by decide +kernel)

end Example

end DreamStudio.Gates
