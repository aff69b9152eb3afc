import DreamStudio.Library.Json
import Mathlib.Data.List.DropRight

namespace DreamStudio.Library

section DropWhile

variable {α : Type*} {p q : α → Bool}

theorem mem_dropWhile {c : α} {s : List α} (member : c ∈ s) (stops : p c = false) :
    c ∈ s.dropWhile p := by
  rw [← List.takeWhile_append_dropWhile (p := p) (l := s), List.mem_append] at member
  apply member.resolve_left
  intro taken
  rw [List.mem_takeWhile_imp taken] at stops
  cases stops

theorem dropWhile_eq_of_takeWhile (weaker : ∀ c, p c = true → q c = true) (s : List α)
    (has : ∀ c ∈ s.takeWhile q, p c = true) : s.dropWhile p = s.dropWhile q := by
  induction s with
  | nil => rfl
  | cons c s ih =>
    cases hq : q c with
    | false =>
      have hp : p c = false := by
        apply Bool.eq_false_iff.mpr
        intro hp
        rw [weaker c hp] at hq
        cases hq
      rw [List.dropWhile_cons_of_neg (by simp [hp]), List.dropWhile_cons_of_neg (by simp [hq])]
    | true =>
      rw [List.takeWhile_cons_of_pos hq, List.forall_mem_cons] at has
      rw [List.dropWhile_cons_of_pos has.1, List.dropWhile_cons_of_pos hq]
      exact ih has.2

theorem mem_takeWhile_append {c : α} {s t : List α} (member : c ∈ s.takeWhile p) :
    c ∈ (s ++ t).takeWhile p := by
  induction s with
  | nil => cases member
  | cons d s ih =>
    cases hp : p d with
    | false => rw [List.takeWhile_cons_of_neg (by simp [hp])] at member; cases member
    | true =>
      rw [List.takeWhile_cons_of_pos hp] at member
      rw [List.cons_append, List.takeWhile_cons_of_pos hp]
      exact List.mem_cons.mpr ((List.mem_cons.mp member).imp_right ih)

theorem dropWhile_append_cons {c : α} (stays : p c = false) (xs ys : List α) :
    (xs ++ c :: ys).dropWhile p = xs.dropWhile p ++ c :: ys := by
  rw [List.dropWhile_append]
  split
  next none => rw [List.isEmpty_iff.mp none, List.dropWhile_cons_of_neg (by simp [stays])]; rfl
  next => rfl

theorem rdropWhile_append_cons {c : α} (stays : p c = false) (xs ys : List α) :
    (xs ++ c :: ys).rdropWhile p = xs ++ c :: ys.rdropWhile p := by
  rw [List.rdropWhile, List.reverse_append, List.reverse_cons, List.append_assoc,
    List.singleton_append,
    dropWhile_append_cons stays, List.reverse_append, List.reverse_cons, List.reverse_reverse,
      List.append_assoc]
  rfl

theorem length_rdropWhile_le (xs : List α) : (xs.rdropWhile p).length ≤ xs.length :=
  (List.rdropWhile_prefix p xs).length_le

theorem rdropWhile_append_of_forall {ys : List α} (all : ∀ c ∈ ys, p c = true) (xs : List α) :
    (xs ++ ys).rdropWhile p = xs.rdropWhile p := by
  rw [List.rdropWhile, List.reverse_append, List.dropWhile_append_of_pos]
  · rfl
  · exact fun c member => all c (List.mem_reverse.mp member)

theorem length_rdropWhile_append_le (xs ys zs : List α) :
    ((xs ++ zs).rdropWhile p).length ≤ ((xs ++ (ys ++ zs)).rdropWhile p).length := by
  by_cases blank : ∀ c ∈ zs, p c = true
  · rw [rdropWhile_append_of_forall blank, ← List.append_assoc, rdropWhile_append_of_forall blank,
      List.rdropWhile, List.rdropWhile, List.length_reverse, List.length_reverse,
      List.reverse_append, List.dropWhile_append]
    split
    · exact Nat.le_refl _
    · rw [List.length_append]
      exact (List.length_dropWhile_le _ _).trans (Nat.le_add_left _ _)
  · obtain ⟨c, member, stays⟩ : ∃ c ∈ zs, p c = false := by simpa using blank
    obtain ⟨us, vs, rfl⟩ := List.append_of_mem member
    rw [← List.append_assoc, ← List.append_assoc, ← List.append_assoc,
      rdropWhile_append_cons stays, rdropWhile_append_cons stays]
    simp only [List.length_append]
    omega

theorem rdropWhile_append_append (xs ys zs : List α) :
    (xs ++ (ys ++ zs)).rdropWhile p = (xs ++ zs).rdropWhile p ↔
      ys = [] ∨ ∀ c ∈ ys ++ zs, p c = true := by
  constructor
  · intro same
    by_cases blank : ∀ c ∈ zs, p c = true
    · right
      intro c member
      refine (List.mem_append.mp member).elim (fun inside => ?_) (blank c)
      by_contra stays
      obtain ⟨us, vs, rfl⟩ := List.append_of_mem inside
      have sizes := congrArg List.length same
      rw [rdropWhile_append_of_forall blank, List.append_assoc, List.cons_append, ← List.append_assoc,
        rdropWhile_append_cons (Bool.eq_false_iff.mpr stays), List.length_append,
        List.length_append, List.length_cons] at sizes
      have short := length_rdropWhile_le (p := p) xs
      omega
    · left
      obtain ⟨c, member, stays⟩ : ∃ c ∈ zs, p c = false := by simpa using blank
      obtain ⟨us, vs, rfl⟩ := List.append_of_mem member
      rw [← List.append_assoc, ← List.append_assoc, ← List.append_assoc,
        rdropWhile_append_cons stays, rdropWhile_append_cons stays, List.append_left_inj] at same
      have sizes := congrArg List.length same
      simp only [List.length_append] at sizes
      exact List.eq_nil_of_length_eq_zero (by omega)
  · rintro (rfl | gone)
    · rfl
    · rw [rdropWhile_append_of_forall gone, rdropWhile_append_of_forall
        fun c member => gone c (List.mem_append_right _ member)]

end DropWhile

section Strip

/-- `s.strip()`. -/
def trimmed (cs : List Char) : List Char := (cs.dropWhile pySpace).rdropWhile pySpace

theorem toList_pyStrip (s : String) : (pyStrip s).toList = trimmed s.toList := by
  rw [pyStrip, String.toList_ofList]
  rfl

theorem trimmed_append_cons {c : Char} (stays : pySpace c = false) (xs ys : List Char) :
    trimmed (xs ++ c :: ys) = xs.dropWhile pySpace ++ c :: ys.rdropWhile pySpace := by
  rw [trimmed, dropWhile_append_cons stays, rdropWhile_append_cons stays]

theorem trimmed_between {c d : Char} (front : pySpace c = false) (back : pySpace d = false)
    (cs : List Char) :
    trimmed (c :: (cs ++ [d])) = c :: (cs ++ [d]) := by
  have whole := trimmed_append_cons front [] (cs ++ [d])
  rw [rdropWhile_append_cons back] at whole
  exact whole

theorem length_trimmed_le (cs : List Char) : (trimmed cs).length ≤ cs.length :=
  (length_rdropWhile_le _).trans (cs.dropWhile_sublist _).length_le

theorem mem_trimmed {c : Char} {cs : List Char} (member : c ∈ cs) (stays : pySpace c = false) :
    c ∈ trimmed cs := by
  obtain ⟨before, after, rfl⟩ := List.append_of_mem member
  rw [trimmed_append_cons stays]
  exact List.mem_append_right _ List.mem_cons_self

theorem exists_trimmed (cs : List Char) : ∃ front back, cs = front ++ (trimmed cs ++ back) ∧
    (∀ c ∈ front, pySpace c = true) ∧ ∀ c ∈ back, pySpace c = true := by
  refine ⟨cs.takeWhile pySpace, (cs.dropWhile pySpace).rtakeWhile pySpace, ?_,
    fun c member => List.mem_takeWhile_imp member,
    fun c member => List.mem_rtakeWhile_imp member⟩
  rw [trimmed, List.rdropWhile_append_rtakeWhile, List.takeWhile_append_dropWhile]

theorem trimmed_append_blank {back : List Char} (blank : ∀ c ∈ back, pySpace c = true)
    (xs : List Char) :
    trimmed (xs ++ back) = trimmed xs := by
  have none (ys : List Char) : (ys ++ back).rdropWhile pySpace = ys.rdropWhile pySpace := by
    rw [List.rdropWhile, List.reverse_append,
      List.dropWhile_append_of_pos fun c member => blank c (List.mem_reverse.mp member)]
    rfl
  rw [trimmed, trimmed, List.dropWhile_append]
  split
  next empty =>
    rw [List.isEmpty_iff.mp empty, List.dropWhile_eq_nil_iff.mpr blank]
  next => exact none _

theorem trimmed_trimmed (cs : List Char) : trimmed (trimmed cs) = trimmed cs := by
  have front : (trimmed cs).dropWhile pySpace = trimmed cs := by
    rw [trimmed]
    cases left : cs.dropWhile pySpace with
    | nil => rfl
    | cons c rest =>
      have stays : pySpace c = false := by
        have here := List.head?_dropWhile_not pySpace cs
        rw [left] at here
        exact here
      have whole := rdropWhile_append_cons stays [] rest
      rw [List.nil_append, List.nil_append] at whole
      rw [whole, List.dropWhile_cons_of_neg (by simp [stays])]
  rw [trimmed, front, trimmed, List.rdropWhile_idempotent]

theorem pyStrip_pyStrip (s : String) : pyStrip (pyStrip s) = pyStrip s := by
  rw [← String.toList_inj, toList_pyStrip, toList_pyStrip, trimmed_trimmed]

end Strip

theorem free_of_all {lines : List String} {p : Char → Bool}
    (free : (lines.all fun line => !line.toList.any p) = true) :
    ∀ line ∈ lines, ∀ c ∈ line.toList, p c = false := by
  intro line member c inside
  have clear := List.all_eq_true.mp free line member
  rw [Bool.not_eq_true', List.any_eq_false] at clear
  exact Bool.eq_false_iff.mpr (clear c inside)

section Suffix

/-- `s.endswith(suffix)`. -/
def endsWith (s suffix : String) : Bool := suffix.toList.isSuffixOf s.toList

/-- `s.removesuffix(suffix)`. -/
def removeSuffix (s suffix : String) : String :=
  if endsWith s suffix then String.ofList
    (s.toList.take (s.toList.length - suffix.toList.length)) else s

/-- `s.rstrip(chars)`. -/
def rstrip (s chars : String) : String :=
  String.ofList (s.toList.reverse.dropWhile (· ∈ chars.toList)).reverse

def beforePart (part : List Char) : List Char → List Char
  | [] => []
  | c :: cs => if part.isPrefixOf (c :: cs) then [] else c :: beforePart part cs

end Suffix

section Letters

theorem splitOnP_congr {α : Type*} {p q : α → Bool} {xs : List α} (same : ∀ x ∈ xs, p x = q x) :
    xs.splitOnP p = xs.splitOnP q := by
  induction xs with
  | nil => rfl
  | cons x xs ih =>
    rw [List.forall_mem_cons] at same
    rw [List.splitOnP_cons_eq_if_modifyHead, List.splitOnP_cons_eq_if_modifyHead, same.1,
      ih same.2]

def Ascii (s : String) : Prop := ∀ c ∈ s.toList, c.val < 0x80

instance (s : String) : Decidable (Ascii s) :=
  decidable_of_iff ((s.toList.all fun c => c.val < 0x80) = true) (by
    rw [List.all_eq_true, Ascii]
    simp only [decide_eq_true_eq])

theorem Ascii.pyStrip {s : String} (ascii : Ascii s) : Ascii (pyStrip s) := by
  intro c member
  apply ascii
  rw [Library.pyStrip, String.toList_ofList, List.mem_reverse] at member
  exact (List.dropWhile_sublist _).mem (List.mem_reverse.mp ((List.dropWhile_sublist _).mem member))

/-- What `str` knows of the characters: which are of a word, and their cases. Nothing is said of
those beyond ASCII. -/
structure Letters where
  word : Char → Bool
  upper : Char → List Char
  lower : String → String
  word_ascii : ∀ c, c.val < 0x80 → word c = (c.isAlphanum || c = '_')
  upper_ascii : ∀ c, c.val < 0x80 → upper c = [c.toUpper]
  lower_ascii : ∀ s, Ascii s → lower s = pyLower s

namespace Letters

/-- `s.upper()`. -/
def capitals (u : Letters) (s : String) : String := String.ofList (s.toList.flatMap u.upper)

/-- `re.search(rf"\b{word}\b", s)`, for a word of word characters. -/
def hasWord (u : Letters) (word s : String) : Bool :=
  word.toList ∈ s.toList.splitOnP fun c => !u.word c

/-- Nothing beyond ASCII is of a word or has two cases. -/
def plain : Letters where
  word c := c.isAlphanum || c = '_'
  upper c := [c.toUpper]
  lower := pyLower
  word_ascii _ _ := rfl
  upper_ascii _ _ := rfl
  lower_ascii _ _ := rfl

theorem toUpper_lt {c : Char} (ascii : c.val < 0x80) : c.toUpper.val < 0x80 := by
  delta Char.toUpper
  split
  next lower =>
    have least : 97 ≤ c.val.toNat := lower.1
    have most : c.val.toNat ≤ 122 := lower.2
    rw [UInt32.lt_iff_toNat_lt, UInt32.toNat_add]
    change (c.val.toNat + 4294967264) % 4294967296 < 128
    omega
  next => exact ascii

theorem capitals_ascii (u : Letters) {s : String} (ascii : Ascii s) :
    u.capitals s = pyUpper s := by
  have same : ∀ c ∈ s.toList, u.upper c = [c.toUpper] := fun c member =>
    u.upper_ascii c (ascii c member)
  rw [capitals, pyUpper, List.flatMap_congr same, ← List.map_eq_flatMap]

theorem ascii_pyUpper {s : String} (ascii : Ascii s) : Ascii (pyUpper s) := by
  intro c member
  rw [pyUpper, String.toList_ofList, List.mem_map] at member
  obtain ⟨d, listed, rfl⟩ := member
  exact toUpper_lt (ascii d listed)

theorem hasWord_ascii (u v : Letters) (word : String) {s : String} (ascii : Ascii s) :
    u.hasWord word s = v.hasWord word s := by
  have same : ∀ c ∈ s.toList, (!u.word c) = !v.word c := by
    intro c member
    rw [u.word_ascii c (ascii c member), v.word_ascii c (ascii c member)]
  rw [hasWord, hasWord, splitOnP_congr same]

end Letters

end Letters

end DreamStudio.Library
