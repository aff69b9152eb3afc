import DreamStudio.Gates.Selection
import DreamStudio.Library.Count

namespace DreamStudio.Gates

open Library

/-- The count is of the tests that the same call selects without the bound, and does not with it. -/
def CountsDropped (packages : Packages) (t : Checkout) (maxDepth : Option Nat)
    (changedFiles : List String) : Prop :=
  ∃ bounded unbounded, computeImpactSet packages t maxDepth changedFiles = .ok bounded ∧
    computeImpactSet packages t none changedFiles = .ok unbounded ∧
    bounded.importGraphTruncatedTestCount =
      (unbounded.dependentTests.filter (· ∉ bounded.dependentTests)).length

section Dropped

variable (packages : Packages) (t : Checkout) (changed : Finset String) (maxDepth : Option Nat)

def pastBound : List (String × Nat) :=
  (ancestorsOf packages t changed).filter fun f =>
    !withinDepth maxDepth f.2 && (isTestFile f.1 || isConftestFile f.1)

/-- Every file past the bound brings a test, none that another one brings, and none that the change
selects within the bound. -/
def Apart : Prop :=
  (∀ f ∈ pastBound packages t changed maxDepth,
    (brings t f.1).Nonempty ∧ ∀ test ∈ brings t f.1, ¬Selected packages t changed maxDepth test) ∧
    (pastBound packages t changed maxDepth).Pairwise fun f g => Disjoint (brings t f.1)
      (brings t g.1)

end Dropped

variable {packages : Packages} {t : Checkout} {changed : Finset String} {maxDepth : Option Nat}

section Weights

theorem card_brings_le (rel : String) : (brings t rel).card ≤ weight t rel := by
  unfold brings weight
  split
  · exact (Finset.card_singleton rel).le
  · split
    · exact le_max_right 1 _
    · exact Finset.card_empty.le

theorem weight_eq_card_iff {rel : String}
    (counted : (isTestFile rel || isConftestFile rel) = true) :
    weight t rel = (brings t rel).card ↔ (brings t rel).Nonempty := by
  unfold brings weight
  split
  · exact iff_of_true (Finset.card_singleton rel).symm (Finset.singleton_nonempty rel)
  next other =>
    have conftest : isConftestFile rel = true := by simpa [other] using counted
    rw [if_pos conftest, if_pos conftest, ← Finset.card_pos]
    omega

theorem sum_pastBound :
    (((ancestorsOf packages t changed).filter fun f => !withinDepth maxDepth f.2).map
      fun f => weight t f.1).sum =
      ((pastBound packages t changed maxDepth).map fun f => weight t f.1).sum := by
  unfold pastBound
  induction ancestorsOf packages t changed with
  | nil => rfl
  | cons f files ih =>
    cases near : withinDepth maxDepth f.2 <;> cases counted : isTestFile f.1 ||
      isConftestFile f.1 <;>
      simp_all [weight]

end Weights

theorem selected_none_iff {test : String} :
    Selected packages t changed none test ↔
      Selected packages t changed maxDepth test ∨
        ∃ f ∈ pastBound packages t changed maxDepth, test ∈ brings t f.1 := by
  have past {rel : String} {hops : Nat} (reached : (rel, hops) ∈ ancestorsOf packages t changed)
      (counted : (isTestFile rel || isConftestFile rel) = true)
      (far : ¬withinDepth maxDepth hops = true) : (rel, hops) ∈
        pastBound packages t changed maxDepth :=
    List.mem_filter.mpr ⟨reached, by simp [far, counted]⟩
  constructor
  · intro selected
    cases selected with
    | changed member own => exact .inl (.changed member own)
    | named member named => exact .inl (.named member named)
    | @imports _ hops reached _ own =>
      by_cases near : withinDepth maxDepth hops = true
      · exact .inl (.imports reached near own)
      · refine .inr ⟨(test, hops), past reached (by rw [own, Bool.true_or]) near, ?_⟩
        rw [brings, if_pos own]
        exact Finset.mem_singleton_self test
    | @fixture rel _ hit member =>
      obtain ⟨conftest, there | ⟨other, hops, reached, -⟩⟩ := hit
      · exact .inl (.fixture ⟨conftest, .inl there⟩ member)
      · by_cases near : withinDepth maxDepth hops = true
        · exact .inl (.fixture ⟨conftest, .inr ⟨other, hops, reached, near⟩⟩ member)
        · refine .inr ⟨(rel, hops), past reached (by rw [conftest, Bool.or_true]) near, ?_⟩
          rw [brings, if_neg (Bool.eq_false_iff.mp other), if_pos conftest]
          exact member
  · rintro (selected | ⟨⟨rel, hops⟩, there, member⟩)
    · cases selected with
      | changed member own => exact .changed member own
      | named member named => exact .named member named
      | imports reached _ own => exact .imports reached rfl own
      | fixture hit member =>
        refine .fixture ⟨hit.1, hit.2.imp id ?_⟩ member
        exact fun ⟨other, hops, reached, _⟩ => ⟨other, hops, reached, rfl⟩
    · have reached := (List.mem_filter.mp there).1
      rw [brings] at member
      split at member
      next own =>
        rw [Finset.mem_singleton.mp member]
        exact .imports reached rfl own
      next other =>
        split at member
        next conftest =>
          exact .fixture ⟨conftest, .inr ⟨Bool.eq_false_iff.mpr other, hops, reached, rfl⟩⟩ member
        · exact absurd member (Finset.notMem_empty test)

theorem length_filter_sort (all some_ : Finset String) :
    ((all.sort (· ≤ ·)).filter (· ∉ some_.sort (· ≤ ·))).length = (all \ some_).card := by
  rw [← List.toFinset_card_of_nodup ((Finset.sort_nodup all _).filter _)]
  congr 1
  ext test
  simp

theorem countsDropped_iff_card {changedFiles : List String} :
    CountsDropped packages t maxDepth changedFiles ↔
      ¬Raises t (changedSet changedFiles) ∧
        ((pastBound packages t (changedSet changedFiles) maxDepth).map fun f => weight t f.1).sum =
          (dependentOf packages t (changedSet changedFiles) none \
            dependentOf packages t (changedSet changedFiles) maxDepth).card := by
  constructor
  · rintro ⟨bounded, unbounded, first, second, count⟩
    obtain ⟨fine, rfl⟩ := computeImpactSet_eq_ok.mp first
    obtain ⟨-, rfl⟩ := computeImpactSet_eq_ok.mp second
    refine ⟨fine, ?_⟩
    simp only [length_filter_sort] at count
    rw [sum_pastBound] at count
    exact count
  · rintro ⟨fine, count⟩
    refine ⟨_, _, computeImpactSet_eq_ok.mpr ⟨fine, rfl⟩,
      computeImpactSet_eq_ok.mpr ⟨fine, rfl⟩, ?_⟩
    simp only [length_filter_sort]
    rw [sum_pastBound]
    exact count

/-- The count is right exactly when the call returns and the files past the bound are apart. -/
theorem countsDropped_iff (packages : Packages) (t : Checkout) (maxDepth : Option Nat)
    (changedFiles : List String) :
    CountsDropped packages t maxDepth changedFiles ↔
      ¬Raises t (changedSet changedFiles) ∧
        Apart packages t (changedSet changedFiles) maxDepth := by
  rw [countsDropped_iff_card]
  refine and_congr_right' ?_
  generalize changedSet changedFiles = changed
  have all : dependentOf packages t changed none \ dependentOf packages t changed maxDepth =
      together (fun f => brings t f.1) (pastBound packages t changed maxDepth) \
        dependentOf packages t changed maxDepth := by
    ext test
    rw [Finset.mem_sdiff, Finset.mem_sdiff, mem_dependentOf, mem_dependentOf, mem_together,
      @selected_none_iff _ _ _ maxDepth]
    tauto
  rw [all, sum_eq_card_together_iff fun f : String × Nat => card_brings_le f.1]
  refine and_congr_left' (forall₂_congr fun f member => and_congr ?_ ?_)
  · exact weight_eq_card_iff (Bool.and_eq_true_iff.mp (List.mem_filter.mp member).2).2
  · rw [Finset.disjoint_left]
    exact forall₂_congr fun test _ => not_congr mem_dependentOf

section Example

def importing (path module text : String) : RepoFile :=
  ⟨path, .text text, .nodes [.imports [module]]⟩

def chain : Checkout where
  root := ["home"]
  files := [⟨"core/a.py", .text "", .nodes []⟩, importing "core/b.py" "core.a" "",
    importing "core/c.py" "core.b" "", importing "core/d.py" "core.c" "",
    importing "tests/conftest.py" "core.d" "",
    ⟨"tests/test_a.py", .text "import core.a", .nodes [.imports ["core.a"]]⟩]
  unique := by decide

/-- The count takes in a test that is selected all the same. -/
theorem chain_counts_selected : ¬CountsDropped asciiPackages chain (some 3) ["core/a.py"] := by
  rw [countsDropped_iff_card]
  rintro ⟨-, count⟩
  exact absurd count (by decide +kernel)

end Example

end DreamStudio.Gates
