import DreamStudio.Library.Json
import DreamStudio.Library.JsonText
import DreamStudio.Library.Strip

namespace DreamStudio.Findings

open Library Library.JsonText

section Normalise

/-- `CONFIDENCE_VALUES`. -/
def confidenceValues : List String := ["high", "medium", "low", "unknown"]

/-- `COVERAGE_VALUES`. -/
def coverageValues : List String := ["complete", "partial", "unknown"]

def wordText : Option String → String
  | some raw => pyLower (pyStrip raw)
  | none => ""

def normalizeWord (values : List String) (raw : Option String) : String :=
  if wordText raw ∈ values then wordText raw else "unknown"

/-- `normalize_confidence`. -/
def normalizeConfidence (raw : Option String) : String := normalizeWord confidenceValues raw

/-- `normalize_coverage`. -/
def normalizeCoverage (raw : Option String) : String := normalizeWord coverageValues raw

/-- What a producer may say of its limitations: nothing, a bare string, or a list. -/
inductive Limitations
  | unsaid
  | text (item : String)
  | items (items : List String)

def keptItems (items : List String) : List String := (items.map pyStrip).filter (· ≠ "")

/-- `normalize_limitations`. -/
def normalizeLimitations : Limitations → Option (List String)
  | .unsaid => none
  | .text item => if keptItems [item] = [] then none else some (keptItems [item])
  | .items items =>
    if keptItems items = [] ∧ items ≠ [] then none else some (keptItems items)

end Normalise

section Store

/-- The columns `confidence`, `coverage` and `limitations`. -/
structure Honesty where
  confidence : Option String := none
  coverage : Option String := none
  limitations : Option String := none
  deriving DecidableEq

def known (word : String) : Option String := if word = "unknown" then none else some word

/-- `json.dumps(list(lims))`. -/
def dumpItems (items : List String) : String :=
  String.ofList (printArray escapeAscii (items.map String.toList))

/-- `encode_honesty`. -/
def encodeHonesty (confidence coverage : Option String) (limitations : Limitations) : Honesty where
  confidence := known (normalizeConfidence confidence)
  coverage := known (normalizeCoverage coverage)
  limitations := (normalizeLimitations limitations).map dumpItems

/-- `honesty_columns`: nothing is stored where migration 161 has not been applied. -/
def honestyColumns (migrated : Bool) (stored : Honesty) : Honesty := if migrated then stored else {}

/-- The CHECKs of migration 161. -/
def Honesty.admitted (h : Honesty) : Bool :=
  h.confidence.all (· ∈ confidenceValues) && h.coverage.all (· ∈ coverageValues) &&
    h.limitations.all fun text => match loads text.toList with
      | some (.arr _) => true
      | _ => false

end Store

section Read

-- How `str` spells an item that is no string.
variable (spell : Value → String)

def itemText : Value → String
  | .str codes => String.ofList (codes.map Char.ofNat)
  | v => spell v

/-- `decode_limitations`. -/
def decodeLimitations : Option String → Option (List String)
  | none => none
  | some stored =>
    match loads stored.toList with
    | some (.arr items) => normalizeLimitations (.items (items.map (itemText spell)))
    | _ => none

/-- What `Finding` makes of the columns. -/
structure Honesty.Read where
  confidence : String
  coverage : String
  limitations : Option (List String)

def limitationsOf : Option (List String) → Limitations
  | none => .unsaid
  | some items => .items items

/-- The three fields of a `Finding` that `from_security_events` builds, which `__post_init__`
normalises once more. -/
def Honesty.read (h : Honesty) : Honesty.Read where
  confidence := normalizeConfidence h.confidence
  coverage := normalizeCoverage h.coverage
  limitations := normalizeLimitations (limitationsOf (decodeLimitations spell h.limitations))

end Read

section Words

variable {values : List String}

theorem normalizeWord_cases (values : List String) (raw : Option String) :
    normalizeWord values raw = "unknown" ∨ normalizeWord values raw ∈ values := by
  rw [normalizeWord]
  split
  next member => exact Or.inr member
  next => exact Or.inl rfl

structure Vocabulary (values : List String) : Prop where
  unknown : "unknown" ∈ values
  blank : "" ∉ values
  plain : ∀ word ∈ values, pyLower (pyStrip word) = word

theorem confidence_vocabulary : Vocabulary confidenceValues := ⟨by decide, by decide, by decide⟩

theorem coverage_vocabulary : Vocabulary coverageValues := ⟨by decide, by decide, by decide⟩

namespace Vocabulary

theorem mem (v : Vocabulary values) (raw : Option String) : normalizeWord values raw ∈ values :=
  (normalizeWord_cases values raw).elim (fun unsaid => unsaid ▸ v.unknown) id

theorem normalize_word (v : Vocabulary values) {word : String} (member : word ∈ values) :
    normalizeWord values (some word) = word := by
  rw [normalizeWord, wordText, v.plain word member, if_pos member]

theorem normalize_known (v : Vocabulary values) {word : String} (member : word ∈ values) :
    normalizeWord values (known word) = word := by
  rw [known]
  split
  next unsaid =>
    rw [unsaid]
    exact if_neg v.blank
  next => exact v.normalize_word member

theorem known_all (v : Vocabulary values) (raw : Option String) :
    (known (normalizeWord values raw)).all (· ∈ values) = true := by
  rw [known]
  split
  next => rfl
  next => exact decide_eq_true (v.mem raw)

end Vocabulary

end Words

section Items

theorem keptItems_keptItems (items : List String) :
    keptItems (keptItems items) = keptItems items := by
  have stripped : ∀ item ∈ keptItems items, pyStrip item = item := by
    intro item member
    obtain ⟨raw, -, rfl⟩ := List.mem_map.mp (List.mem_of_mem_filter member)
    exact pyStrip_pyStrip raw
  rw [keptItems, List.map_congr_left stripped, List.map_id']
  exact List.filter_eq_self.mpr fun item member => (List.mem_filter.mp member).2

theorem keptItems_of_normalize {limitations : Limitations} {items : List String}
    (kept : normalizeLimitations limitations = some items) : ∃ raw, items = keptItems raw := by
  cases limitations with
  | unsaid => cases kept
  | text item =>
    rw [normalizeLimitations] at kept
    split at kept
    next => cases kept
    next =>
      cases kept
      exact ⟨[item], rfl⟩
  | items raw =>
    rw [normalizeLimitations] at kept
    split at kept
    next => cases kept
    next =>
      cases kept
      exact ⟨raw, rfl⟩

theorem normalize_kept {limitations : Limitations} {items : List String}
    (kept : normalizeLimitations limitations = some items) :
    normalizeLimitations (.items items) = some items := by
  obtain ⟨raw, rfl⟩ := keptItems_of_normalize kept
  rw [normalizeLimitations, keptItems_keptItems, if_neg fun both => both.2 both.1]

end Items

section RoundTrip

variable (spell : Value → String)

theorem itemText_codes (item : String) :
    itemText spell (.str (item.toList.map Char.toNat)) = item := by
  have back : ∀ c : Char, Char.ofNat c.toNat = c := Char.ofNat_toNat
  rw [itemText, List.map_map]
  simp [Function.comp_def, back]

theorem loads_dumpItems (items : List String) : loads (dumpItems items).toList =
    some (.arr (items.map fun item => .str (item.toList.map Char.toNat))) := by
  rw [dumpItems, String.toList_ofList, loads_printArray encodes_escapeAscii, List.map_map]
  rfl

theorem decode_dumpItems (items : List String) :
    decodeLimitations spell (some (dumpItems items)) = normalizeLimitations (.items items) := by
  rw [decodeLimitations, loads_dumpItems]
  simp only [List.map_map, Function.comp_def, itemText_codes, List.map_id']

theorem decode_encoded (limitations : Limitations) :
    decodeLimitations spell ((normalizeLimitations limitations).map dumpItems) =
      normalizeLimitations limitations := by
  cases kept : normalizeLimitations limitations with
  | none => rfl
  | some items =>
    rw [Option.map_some, decode_dumpItems]
    exact normalize_kept kept

theorem normalize_again (limitations : Limitations) :
    normalizeLimitations (limitationsOf (normalizeLimitations limitations)) =
      normalizeLimitations limitations := by
  cases kept : normalizeLimitations limitations with
  | none => rfl
  | some items => exact normalize_kept kept

theorem encodeHonesty_admitted (confidence coverage : Option String) (limitations : Limitations) :
    (encodeHonesty confidence coverage limitations).admitted = true := by
  have lists : ((normalizeLimitations limitations).map dumpItems).all (fun text =>
      match loads text.toList with
      | some (.arr _) => true
      | _ => false) = true := by
    cases normalizeLimitations limitations with
    | none => rfl
    | some items =>
      rw [Option.map_some, Option.all_some, loads_dumpItems]
  rw [Honesty.admitted, Bool.and_eq_true, Bool.and_eq_true]
  exact ⟨⟨confidence_vocabulary.known_all _, coverage_vocabulary.known_all _⟩, lists⟩

/-- The columns a finding is recorded with pass every CHECK, and a reader gets back from them what
the producer said in normal form: what is unknown stays unknown, and a list that is empty is told
apart from none. -/
theorem honesty_read_back (confidence coverage : Option String) (limitations : Limitations) :
    (encodeHonesty confidence coverage limitations).admitted = true ∧
      (encodeHonesty confidence coverage limitations).read spell =
        ⟨normalizeConfidence confidence, normalizeCoverage coverage,
          normalizeLimitations limitations⟩ := by
  constructor
  · exact encodeHonesty_admitted confidence coverage limitations
  · rw [Honesty.read, Honesty.Read.mk.injEq]
    refine ⟨?_, ?_, ?_⟩
    · exact confidence_vocabulary.normalize_known (confidence_vocabulary.mem confidence)
    · exact coverage_vocabulary.normalize_known (coverage_vocabulary.mem coverage)
    · rw [encodeHonesty, decode_encoded, normalize_again]

end RoundTrip

end DreamStudio.Findings
