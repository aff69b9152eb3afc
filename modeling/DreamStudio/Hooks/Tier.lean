import DreamStudio.Boundaries.Contained
import DreamStudio.Library.Strip

namespace DreamStudio.Hooks

open Library Boundaries

/-- The enforcement ladder, least to most intrusive. -/
inductive Tier
  | off
  | observe
  | warn
  | enforce
  deriving DecidableEq

def Tier.name : Tier → String
  | .off => "off"
  | .observe => "observe"
  | .warn => "warn"
  | .enforce => "enforce"

namespace Native

/-- What `named` matches on. -/
@[irreducible] def rung (w : String) : Option Tier :=
  if w = "0" ∨ w = "off" then some .off
  else if w = "observe" then some .observe
  else if w = "warn" then some .warn
  else if w = "enforce" then some .enforce
  else none

/-- The closure of `resolve_tier`. -/
def named (v : String) : Option Tier := rung (String.ofList (asciiLowercase (trim v.toList)))

/-- `decision::resolve_tier`. -/
def resolveTier (dsEnforce legacyTier : Option String) : Tier :=
  match dsEnforce.bind named with
  | some t => t
  | none => (legacyTier.bind named).getD .enforce

end Native

namespace Enforcement

def validTiers : List String := ["off", "observe", "warn", "enforce"]

/-- `enforcement.resolve_tier`. A variable that is absent reads as the empty text. -/
def resolveTier (lower : String → String) (env legacyTier : Option String) : String :=
  let value := lower (pyStrip (env.getD ""))
  if value = "0" ∨ value = "off" then "off"
  else if value ∈ validTiers then value
  else
    let legacy := lower (pyStrip (legacyTier.getD ""))
    if legacy ∈ validTiers then legacy else "enforce"

end Enforcement

/-- The characters U+001C to U+001F, which `str.strip` takes off and `trim` does not. -/
def separator (c : Char) : Bool := 0x1c ≤ c.val && c.val ≤ 0x1f

def separated (v : String) : Bool :=
  (v.toList.takeWhile pySpace).any separator || (v.toList.reverse.takeWhile pySpace).any separator

@[irreducible] def wordOf (v : Option String) : String := asciiLower (pyStrip (v.getD ""))

section Reading

theorem not_separator_of_whitespace {c : Char} (white : Native.whitespace c = true) :
    separator c = false := by
  rw [Native.whitespace, Bool.and_eq_true, Bool.not_eq_true'] at white
  exact white.2

theorem pySpace_of_whitespace (c : Char) (white : Native.whitespace c = true) : pySpace c = true :=
  ((Bool.and_eq_true _ _).mp white).1

theorem whitespace_of_pySpace {c : Char} (space : pySpace c = true) (plain : separator c = false) :
    Native.whitespace c = true := by
  rw [Native.whitespace, Bool.and_eq_true, Bool.not_eq_true']
  exact ⟨space, plain⟩

theorem trim_eq_of_not_separated {v : String} (plain : separated v = false) :
    String.ofList (Native.trim v.toList) = pyStrip v := by
  rw [separated, Bool.or_eq_false_iff, List.any_eq_false, List.any_eq_false] at plain
  have front : v.toList.dropWhile Native.whitespace = v.toList.dropWhile pySpace := by
    apply dropWhile_eq_of_takeWhile pySpace_of_whitespace
    intro c taken
    exact whitespace_of_pySpace (List.mem_takeWhile_imp taken)
      (Bool.eq_false_iff.mpr (plain.1 c taken))
  have back : (v.toList.dropWhile pySpace).reverse.dropWhile Native.whitespace =
      (v.toList.dropWhile pySpace).reverse.dropWhile pySpace := by
    apply dropWhile_eq_of_takeWhile pySpace_of_whitespace
    intro c taken
    apply whitespace_of_pySpace (List.mem_takeWhile_imp taken)
    apply Bool.eq_false_iff.mpr
    apply plain.2 c
    have whole := mem_takeWhile_append (t := (v.toList.takeWhile pySpace).reverse) taken
    rwa [← List.reverse_append, List.takeWhile_append_dropWhile] at whole
  rw [Native.trim, front, back]
  rfl

theorem mem_trim {c : Char} {s : List Char} (member : c ∈ s) (stops : Native.whitespace c = false) :
    c ∈ Native.trim s := by
  apply List.mem_reverse.mpr
  apply mem_dropWhile _ stops
  exact List.mem_reverse.mpr (mem_dropWhile member stops)

/-- What `trim` leaves of a value with a separator around it has the separator still. -/
theorem exists_mem_trim {v : String} (apart : separated v = true) :
    ∃ c ∈ Native.trim v.toList, separator c = true := by
  rw [separated, Bool.or_eq_true, List.any_eq_true, List.any_eq_true] at apart
  have found : ∃ c ∈ v.toList, separator c = true := by
    cases apart with
    | inl front => exact front.imp fun c h => h.imp_left (List.takeWhile_sublist _).mem
    | inr back =>
      apply back.imp
      intro c h
      exact h.imp_left fun taken => List.mem_reverse.mp ((List.takeWhile_sublist _).mem taken)
  apply found.imp
  intro c h
  apply And.intro (mem_trim h.1 _) h.2
  apply Bool.eq_false_iff.mpr
  intro white
  rw [not_separator_of_whitespace white] at h
  cases h.2

theorem toLower_separator {c : Char} (apart : separator c = true) : c.toLower = c := by
  rw [separator, Bool.and_eq_true, decide_eq_true_iff, decide_eq_true_iff] at apart
  apply dif_neg
  intro upper
  exact absurd (UInt32.le_trans upper.1 apart.2) (by decide)

/-- The words of the ladder, with the synonym of `off`. -/
def words : List String := "0" :: Enforcement.validTiers

theorem rung_eq_none_iff {w : String} : Native.rung w = none ↔ w ∉ words := by
  simp only [words, Enforcement.validTiers, List.mem_cons, List.not_mem_nil, or_false, not_or]
  apply Iff.intro
  · intro unread
    simpa [Native.rung, ite_eq_iff, and_assoc] using unread
  · intro unlisted
    simp [Native.rung, unlisted]

/-- The ladder of `resolve_tier` reads a word as `named` does. -/
theorem name_getD_rung (w : String) (rest : Tier) :
    (if w = "0" ∨ w = "off" then "off" else if w ∈ Enforcement.validTiers then w else rest.name) =
      ((Native.rung w).getD rest).name := by
  by_cases listed : w ∈ words
  · simp only [words, Enforcement.validTiers, List.mem_cons, List.not_mem_nil, or_false] at listed
    rcases listed with rfl | rfl | rfl | rfl | rfl <;>
      simp [Native.rung, Enforcement.validTiers, Tier.name]
  · have unnamed := not_or.mp (mt List.mem_cons.mpr listed)
    have other : ¬(w = "0" ∨ w = "off") :=
      fun h => h.elim unnamed.1 fun off => unnamed.2 (off ▸ List.mem_cons_self)
    rw [if_neg other, if_neg unnamed.2, rung_eq_none_iff.mpr listed]
    rfl

theorem not_separator_of_mem_words : ∀ w ∈ words, ∀ c ∈ w.toList, separator c = false :=
  free_of_all (by decide +kernel)

theorem rung_eq_none {w : String} (apart : ∃ c ∈ w.toList, separator c = true) :
    Native.rung w = none := by
  apply rung_eq_none_iff.mpr
  intro listed
  apply apart.elim
  intro c h
  rw [not_separator_of_mem_words w listed c h.1] at h
  cases h.2

theorem named_of_separated {v : String} (apart : separated v = true) : Native.named v = none := by
  apply rung_eq_none
  obtain ⟨c, member, sep⟩ := exists_mem_trim apart
  refine ⟨c, ?_, sep⟩
  rw [String.toList_ofList]
  exact List.mem_map.mpr ⟨c, member, toLower_separator sep⟩

theorem named_of_not_separated {v : String} (plain : separated v = false) :
    Native.named v = Native.rung (wordOf (some v)) := by
  have trimmed := congrArg asciiLower (trim_eq_of_not_separated plain)
  rw [asciiLower, String.toList_ofList] at trimmed
  rw [Native.named, trimmed, wordOf, Option.getD_some]

end Reading

section Agreement

/-- A variable whose value has a separator around it. -/
def Separated (v : Option String) : Prop := v.any separated = true

instance (v : Option String) : Decidable (Separated v) := inferInstanceAs (Decidable (_ = true))

def nativeRung (v : Option String) : Option Tier :=
  if Separated v then none else Native.rung (wordOf v)

theorem bind_named (v : Option String) : v.bind Native.named = nativeRung v := by
  cases v with
  | none => decide +kernel
  | some v =>
    cases apart : separated v with
    | true =>
      have held : Separated (some v) := apart
      rw [nativeRung, if_pos held, Option.bind_some]
      exact named_of_separated apart
    | false =>
      have free : ¬Separated (some v) := Bool.eq_false_iff.mp apart
      rw [nativeRung, if_neg free, Option.bind_some]
      exact named_of_not_separated apart

/-- The rung that the Python hook reads off `DS_ENFORCE_TIER`, which does not take `0`. -/
def legacyRung (v : Option String) : Option Tier :=
  if wordOf v = "0" then none else Native.rung (wordOf v)

theorem name_legacyRung (v : Option String) :
    (if wordOf v ∈ Enforcement.validTiers then wordOf v else "enforce") =
      ((legacyRung v).getD .enforce).name := by
  have ladder := name_getD_rung (wordOf v) .enforce
  by_cases zero : wordOf v = "0"
  · rw [legacyRung, if_pos zero, zero]
    decide +kernel
  · rw [legacyRung, if_neg zero, ← ladder]
    by_cases off : wordOf v = "off"
    · rw [if_pos (Or.inr off), off]
      decide +kernel
    · rw [if_neg (not_or.mpr ⟨zero, off⟩)]
      rfl

variable {lower : String → String} (env legacyTier : Option String)

theorem lower_getD {v : Option String} (lowers : ∀ s, Ascii s → Lowers lower s)
    (ascii : ∀ s ∈ v, Ascii s) :
    lower (pyStrip (v.getD "")) = wordOf v := by
  rw [wordOf]
  apply lowers
  apply Ascii.pyStrip
  cases v with
  | none => exact fun c member => by cases member
  | some s => exact ascii s rfl

theorem resolveTier_eq (lowers : ∀ s, Ascii s → Lowers lower s) (envAscii : ∀ s ∈ env, Ascii s)
    (legacyAscii : ∀ s ∈ legacyTier, Ascii s) :
    Enforcement.resolveTier lower env legacyTier =
      ((Native.rung (wordOf env)).getD ((legacyRung legacyTier).getD .enforce)).name := by
  rw [Enforcement.resolveTier, lower_getD lowers envAscii, lower_getD lowers legacyAscii]
  rw [name_legacyRung]
  exact name_getD_rung (wordOf env) _

theorem native_resolveTier_eq :
    Native.resolveTier env legacyTier =
      (nativeRung env).getD ((nativeRung legacyTier).getD .enforce) := by
  rw [Native.resolveTier, bind_named, bind_named]
  cases nativeRung env <;> rfl

theorem name_injective : Function.Injective Tier.name := by
  intro s t same
  cases s <;> cases t <;> first | rfl | simp [Tier.name] at same

/-- `DS_ENFORCE` names no rung, and `DS_ENFORCE_TIER` has the `0` that is a word of `DS_ENFORCE`
only. -/
structure Zeroed : Prop where
  unnamed : wordOf env ∉ words
  zero : wordOf legacyTier = "0"
  plain : ¬Separated legacyTier

/-- `DS_ENFORCE` names no rung, and `DS_ENFORCE_TIER` lowers the tier behind a separator. -/
structure Hidden : Prop where
  unnamed : wordOf env ∉ words
  lowered : wordOf legacyTier ∈ ["off", "observe", "warn"]
  apart : Separated legacyTier

/-- `DS_ENFORCE` names a rung behind a separator, and not the one that is left to
`DS_ENFORCE_TIER`. -/
structure Overlooked : Prop where
  apart : Separated env
  differs : Native.rung (wordOf env) ∉ [none, some ((nativeRung legacyTier).getD .enforce)]

theorem legacyRung_getD_iff (v : Option String) :
    (legacyRung v).getD .enforce = .enforce ↔ wordOf v ∉ ["off", "observe", "warn"] := by
  rw [legacyRung]
  generalize wordOf v = w
  by_cases zero : w = "0"
  · rw [if_pos zero, zero]
    decide +kernel
  · rw [if_neg zero]
    by_cases listed : w ∈ words
    · have valid := (List.mem_cons.mp listed).resolve_left zero
      simp only [Enforcement.validTiers, List.mem_cons, List.not_mem_nil, or_false] at valid
      rcases valid with rfl | rfl | rfl | rfl <;> decide +kernel
    · rw [rung_eq_none_iff.mpr listed]
      apply iff_of_true rfl
      intro lowered
      apply listed
      apply List.mem_cons_of_mem
      exact List.mem_append_left ["enforce"] lowered

/-- The two readings of `DS_ENFORCE_TIER` lead to one tier outside of the first two kinds. -/
theorem fallback_iff :
    (nativeRung legacyTier).getD .enforce = (legacyRung legacyTier).getD .enforce ↔
      ¬(wordOf legacyTier = "0" ∧ ¬Separated legacyTier) ∧
        ¬(wordOf legacyTier ∈ ["off", "observe", "warn"] ∧ Separated legacyTier) := by
  by_cases apart : Separated legacyTier
  · rw [nativeRung, if_pos apart, Option.getD_none, eq_comm, legacyRung_getD_iff]
    simp only [apart, not_true_eq_false, and_false, not_false_eq_true, true_and, and_true]
  · rw [nativeRung, if_neg apart, legacyRung]
    simp only [apart, not_false_eq_true, and_true, and_false]
    by_cases zero : wordOf legacyTier = "0"
    · rw [if_pos zero, zero]
      decide +kernel
    · rw [if_neg zero]
      exact iff_of_true rfl zero

/-- The native hook and the Python one resolve one tier exactly where `DS_ENFORCE_TIER` is not read
as `0` and no separator stands before or behind a word that decides. -/
theorem resolveTier_agree_iff (lowers : ∀ s, Ascii s → Lowers lower s)
    (envAscii : ∀ s ∈ env, Ascii s) (legacyAscii : ∀ s ∈ legacyTier, Ascii s) :
    (Native.resolveTier env legacyTier).name = Enforcement.resolveTier lower env legacyTier ↔
      ¬Zeroed env legacyTier ∧ ¬Hidden env legacyTier ∧ ¬Overlooked env legacyTier := by
  rw [resolveTier_eq env legacyTier lowers envAscii legacyAscii, native_resolveTier_eq,
    name_injective.eq_iff]
  cases named : Native.rung (wordOf env) with
  | none =>
    have unnamed := rung_eq_none_iff.mp named
    have unread : nativeRung env = none := by rw [nativeRung, named, ite_self]
    have seen : ¬Overlooked env legacyTier := fun h => h.differs (named ▸ List.mem_cons_self)
    rw [unread]
    apply (fallback_iff legacyTier).trans
    apply and_congr (not_congr ⟨fun h => ⟨unnamed, h.1, h.2⟩, fun h => ⟨h.zero, h.plain⟩⟩)
    rw [and_iff_left seen]
    exact not_congr ⟨fun h => ⟨unnamed, h.1, h.2⟩, fun h => ⟨h.lowered, h.apart⟩⟩
  | some t =>
    have listed : wordOf env ∈ words := by
      by_contra unlisted
      rw [rung_eq_none_iff.mpr unlisted] at named
      cases named
    have named_by : ¬Zeroed env legacyTier ∧ ¬Hidden env legacyTier :=
      ⟨fun h => h.unnamed listed, fun h => h.unnamed listed⟩
    rw [← and_assoc, and_iff_right named_by]
    by_cases apart : Separated env
    · rw [nativeRung, if_pos apart]
      apply Iff.intro
      · intro same overlooked
        have left : (nativeRung legacyTier).getD .enforce = t := same
        apply overlooked.differs
        rw [named, left]
        exact List.mem_cons_of_mem _ List.mem_cons_self
      · intro seen
        by_contra differs
        apply seen
        refine ⟨apart, ?_⟩
        rw [named, List.mem_cons, List.mem_singleton]
        rintro (none | same)
        · cases none
        · exact differs (Option.some.inj same).symm
    · rw [nativeRung, if_neg apart, named]
      exact iff_of_true rfl fun overlooked => apart overlooked.apart

/-- `DS_ENFORCE_TIER=0` switches the native hook off and leaves the Python one on. -/
theorem resolveTier_zero :
    ¬∀ env legacyTier : Option String, (∀ s ∈ env, Ascii s) → (∀ s ∈ legacyTier, Ascii s) →
      (Native.resolveTier env legacyTier).name =
        Enforcement.resolveTier asciiLower env legacyTier := by
  intro agree
  have differs : (Native.resolveTier none (some "0")).name ≠
      Enforcement.resolveTier asciiLower none (some "0") := by
    decide +kernel
  apply differs
  apply agree
  · intro s absent
    cases absent
  · intro s present
    exact Option.some.inj present ▸ by decide +kernel

/-- The case of letters and the newline around a value make no difference. -/
theorem resolveTier_warn :
    (Native.resolveTier (some "1") (some " WARN\n")).name =
      Enforcement.resolveTier asciiLower (some "1") (some " WARN\n") := by
  have lowered : wordOf (some " WARN\n") ≠ "0" := by decide +kernel
  have plain : ¬Separated (some " WARN\n") ∧ ¬Separated (some "1") := by decide +kernel
  have env : ∀ s ∈ some "1", Ascii s := fun s present => Option.some.inj present ▸ by decide +kernel
  have legacy : ∀ s ∈ some " WARN\n", Ascii s := fun s present => Option.some.inj present ▸ by
    decide +kernel
  apply (resolveTier_agree_iff _ _ (fun _ _ => rfl) env legacy).mpr
  exact ⟨fun h => lowered h.zero, fun h => plain.1 h.apart, fun h => plain.2 h.apart⟩

end Agreement

end DreamStudio.Hooks
