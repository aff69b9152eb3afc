import DreamStudio.Correlation.Composer

namespace DreamStudio.Correlation

open Library Component

def Valid (repr : String → String) (id : Text) : Prop := validate repr id = (true, none)

/-- Segments with values, their types strictly in canonical order. -/
def Ascending (segments : List Text) : Prop :=
  ∃ labels : List (Component × Text), segments = labels.map (fun l => segment l.1 l.2) ∧
    (labels.Pairwise fun l m => l.1.index < m.1.index) ∧ ∀ l ∈ labels, l.2 ≠ []

/-- Only characters that values may have. -/
def Plain (s : Text) : Prop := ∀ c ∈ s, valueChar c = true

def Parts.Allowed (parts : Parts) : Prop :=
  ∀ k value, parts.get k = some (some value) → allowed value = true

variable {repr : String → String}

section Validate

/-- A segment that the loop goes past. -/
def Passes (last : Option Nat) (s : Text) (l : Component × Text) : Prop :=
  matchSegment s = some l ∧ allowed l.2 = true ∧ ∀ i ∈ last, i < l.1.index

theorem validateSegments_of_passes {last : Option Nat} {s : Text} {l : Component × Text}
    (rest : List Text) (passes : Passes last s l) :
    validateSegments repr last (s :: rest) = validateSegments repr (some l.1.index) rest := by
  obtain ⟨found, ok, deeper⟩ := passes
  have free : ¬(last.any (l.1.index ≤ ·) = true) := by
    cases last with
    | none => exact Bool.false_ne_true
    | some i => exact fun le => (deeper i rfl).not_ge (of_decide_eq_true le)
  rw [validateSegments, found]
  dsimp only
  rw [ok, Bool.not_true, if_neg Bool.false_ne_true, if_neg free]

theorem passes_of_fst {last : Option Nat} {s : Text} {rest : List Text}
    (accepts : (validateSegments repr last (s :: rest)).1 = true) : ∃ l, Passes last s l := by
  rw [validateSegments] at accepts
  cases found : matchSegment s with
  | none => rw [found] at accepts; cases accepts
  | some l =>
    rw [found] at accepts
    dsimp only at accepts
    split at accepts
    next => cases accepts
    next ok =>
      split at accepts
      next => cases accepts
      next deeper =>
        refine ⟨l, found, by simpa using ok, ?_⟩
        intro i here
        cases here
        exact Nat.lt_of_not_le fun le => deeper (decide_eq_true le)

theorem validateSegments_eq {last : Option Nat} {segments : List Text}
    (accepts : (validateSegments repr last segments).1 = true) :
    validateSegments repr last segments = (true, none) := by
  induction segments generalizing last with
  | nil => rfl
  | cons s rest ih =>
    obtain ⟨l, passes⟩ := passes_of_fst accepts
    rw [validateSegments_of_passes rest passes] at accepts ⊢
    exact ih accepts

theorem valid_iff_fst {id : Text} : (validate repr id).1 = true ↔ Valid repr id := by
  constructor
  · intro accepts
    rw [Valid]
    rw [validate] at accepts ⊢
    cases empty : id.isEmpty with
    | true => rw [empty] at accepts; cases accepts
    | false =>
      rw [empty] at accepts
      exact validateSegments_eq accepts
  · intro valid
    rw [valid]

theorem validateSegments_iff {last : Option Nat} {segments : List Text} :
    validateSegments repr last segments = (true, none) ↔
      ∃ labels : List (Component × Text), segments.map matchSegment = labels.map some ∧
        (∀ l ∈ labels, allowed l.2 = true) ∧
        (labels.Pairwise fun l m => l.1.index < m.1.index) ∧
        ∀ i ∈ last, ∀ l ∈ labels, i < l.1.index := by
  induction segments generalizing last with
  | nil => exact ⟨fun _ => ⟨[], rfl, by simp, List.Pairwise.nil, by simp⟩, fun _ => rfl⟩
  | cons s rest ih =>
    constructor
    · intro accepts
      obtain ⟨l, passes⟩ := passes_of_fst (congrArg Prod.fst accepts)
      rw [validateSegments_of_passes rest passes] at accepts
      obtain ⟨found, ok, deeper⟩ := passes
      obtain ⟨labels, read, values, ascending, above⟩ := ih.mp accepts
      refine ⟨l :: labels, by rw [List.map_cons, List.map_cons, found, read],
        List.forall_mem_cons.mpr ⟨ok, values⟩,
        List.pairwise_cons.mpr ⟨above l.1.index rfl, ascending⟩, ?_⟩
      intro i here m member
      rcases List.mem_cons.mp member with rfl | member
      · exact deeper i here
      · exact (deeper i here).trans (above l.1.index rfl m member)
    · rintro ⟨labels, read, values, ascending, above⟩
      cases labels with
      | nil => cases read
      | cons l labels =>
        rw [List.map_cons, List.map_cons, List.cons.injEq] at read
        rw [List.forall_mem_cons] at values
        rw [List.pairwise_cons] at ascending
        have passes : Passes last s l :=
          ⟨read.1, values.1, fun i here => above i here l List.mem_cons_self⟩
        rw [validateSegments_of_passes rest passes]
        refine ih.mpr ⟨labels, read.2, values.2, ascending.2, ?_⟩
        intro i here
        cases here
        exact ascending.1

theorem valid_iff_labels {id : Text} :
    Valid repr id ↔ ∃ labels : List (Component × Text),
      (splitSegments id).map matchSegment = labels.map some ∧
      (∀ l ∈ labels, allowed l.2 = true) ∧
      labels.Pairwise fun l m => l.1.index < m.1.index := by
  cases id with
  | nil =>
    constructor
    · intro valid
      cases valid
    · rintro ⟨labels, read, -⟩
      cases labels <;> cases read
  | cons c id =>
    have loop : Valid repr (c :: id) ↔
        validateSegments repr none (splitSegments (c :: id)) = (true, none) := Iff.rfl
    rw [loop, validateSegments_iff]
    constructor
    · rintro ⟨labels, read, values, ascending, -⟩
      exact ⟨labels, read, values, ascending⟩
    · rintro ⟨labels, read, values, ascending⟩
      refine ⟨labels, read, values, ascending, ?_⟩
      intro i here
      cases here

theorem plain_of_mem_split {id s : Text} (plain : Plain id) (member : s ∈ splitSegments id) :
    Plain s :=
  fun c here => plain c (mem_of_mem_cut member here)

theorem line_of_plain {s : Text} (plain : Plain s) : '\n' ∉ s :=
  fun member => absurd (plain _ member) (by decide)

theorem allowed_iff {value : Text} : allowed value = true ↔ value ≠ [] ∧ Plain value := by
  rw [allowed, Bool.and_eq_true, Bool.not_eq_true', List.isEmpty_eq_false_iff, List.all_eq_true]
  rfl

theorem plain_append {s t : Text} : Plain (s ++ t) ↔ Plain s ∧ Plain t :=
  List.forall_mem_append

theorem plain_marker (k : Component) : Plain k.marker := by
  have all : k.marker.all valueChar = true := by cases k <;> rfl
  exact List.all_eq_true.mp all

theorem plain_segment {k : Component} {value : Text} : Plain (segment k value) ↔ Plain value := by
  rw [segment, plain_append, and_iff_right (plain_marker k)]

theorem matchSegment_iff {s : Text} (plain : Plain s) {l : Component × Text} :
    matchSegment s = some l ↔ s = segment l.1 l.2 ∧ l.2 ≠ [] := by
  constructor
  · intro found
    obtain ⟨rest, rfl, grouped⟩ := of_matchSegment found
    obtain ⟨⟨value, -⟩, line | line⟩ := of_group grouped
    · exact ⟨congrArg _ line, value⟩
    · refine absurd ?_ (line_of_plain (plain_segment.mp plain))
      rw [line]
      exact List.mem_append_right _ List.mem_cons_self
  · rintro ⟨rfl, value⟩
    rw [matchSegment_segment, group_of_line value (line_of_plain (plain_segment.mp plain))]
    rfl

theorem read_iff {segments : List Text} (plain : ∀ s ∈ segments, Plain s)
    (labels : List (Component × Text)) :
    (segments.map matchSegment = labels.map some ∧ ∀ l ∈ labels, allowed l.2 = true) ↔
      segments = labels.map (fun l => segment l.1 l.2) ∧ ∀ l ∈ labels, l.2 ≠ [] := by
  induction segments generalizing labels with
  | nil => cases labels <;> simp
  | cons s rest ih =>
    cases labels with
    | nil => simp
    | cons l labels =>
      rw [List.forall_mem_cons] at plain
      have here := matchSegment_iff plain.1 (l := l)
      have later := ih plain.2 labels
      rw [List.map_cons, List.map_cons, List.map_cons, List.cons.injEq, List.cons.injEq,
        List.forall_mem_cons, List.forall_mem_cons]
      constructor
      · rintro ⟨⟨found, read⟩, -, values⟩
        obtain ⟨rfl, value⟩ := here.mp found
        obtain ⟨rfl, values⟩ := later.mp ⟨read, values⟩
        exact ⟨⟨rfl, rfl⟩, value, values⟩
      · rintro ⟨⟨rfl, rfl⟩, value, values⟩
        obtain ⟨read, values⟩ := later.mpr ⟨rfl, values⟩
        exact ⟨⟨here.mpr ⟨rfl, value⟩, read⟩,
          allowed_iff.mpr ⟨value, plain_segment.mp plain.1⟩, values⟩

theorem valid_iff_ascending {id : Text} (plain : Plain id) :
    Valid repr id ↔ Ascending (splitSegments id) := by
  rw [valid_iff_labels, Ascending]
  apply exists_congr
  intro labels
  have read := read_iff (fun s => plain_of_mem_split plain) labels
  constructor
  · rintro ⟨found, values, ascending⟩
    have segments := read.mp ⟨found, values⟩
    exact ⟨segments.1, ascending, segments.2⟩
  · rintro ⟨segments, ascending, values⟩
    have found := read.mpr ⟨segments, values⟩
    exact ⟨found.1, found.2, ascending⟩

end Validate

section Extend

theorem plain_intercalate {segments : List Text} (plain : ∀ s ∈ segments, Plain s) :
    Plain ([':'].intercalate segments) := by
  induction segments with
  | nil => intro c member; cases member
  | cons s rest ih =>
    rw [List.forall_mem_cons] at plain
    cases rest with
    | nil => rw [List.intercalate_singleton]; exact plain.1
    | cons t rest =>
      rw [List.intercalate_cons_cons, plain_append, plain_append]
      exact ⟨⟨plain.1, by intro c member; rw [List.mem_singleton.mp member]; rfl⟩, ih plain.2⟩

theorem plain_compose {parts : Parts} (values : parts.Allowed) {id : Text}
    (composed : compose parts = some id) : Plain id := by
  rw [compose] at composed
  split at composed
  next => cases composed
  next =>
    cases composed
    apply plain_intercalate
    rw [Parts.segments_eq]
    intro s member
    obtain ⟨l, here, rfl⟩ := List.mem_map.mp member
    exact plain_segment.mpr (allowed_iff.mp (values _ _ (Parts.mem_labels.mp here))).2

theorem name_injective {j k : Component} (same : j.name = k.name) : j = k := by
  cases j <;> cases k <;> first | rfl | exact absurd same (by decide)

/-- The type is there already, or the new segment, as it is read, goes deeper than what there is. -/
def Deeper (base : Option Text) (step : String × Text) : Prop :=
  ∀ k : Component, k.name = step.1 → (∃ b ∈ base, k ∈ (decompose b).keys) ∨
    Ascending (base.elim [] splitSegments ++ splitSegments (segment k step.2))

/-- The ids that a chain of calls hands out. -/
inductive Chain (repr : String → String) : Option Text → List (String × Text) → List Text → Prop
  | nil (base : Option Text) : Chain repr base [] []
  | cons {base : Option Text} {step : String × Text} {id : Text} {steps : List (String × Text)}
      {ids : List Text} (extended : extend repr base step.1 step.2 = .ok id)
      (later : Chain repr (some id) steps ids) : Chain repr base (step :: steps) (id :: ids)

/-- What a call of `extend` does. -/
theorem extend_cases {base : Option Text} {entityType : String} {entityId id : Text}
    (extended : extend repr base entityType entityId = .ok id) :
    ∃ k : Component, k.name = entityType ∧
      (base = some id ∧ k ∈ (decompose id).keys ∨
        (∀ b ∈ base, k ∉ (decompose b).keys) ∧
          id = base.elim [] (· ++ [':']) ++ segment k entityId) := by
  rw [extend] at extended
  cases known : order.find? fun k => k.name = entityType with
  | none => rw [known] at extended; cases extended
  | some k =>
    rw [known] at extended
    refine ⟨k, by simpa using List.find?_some known, ?_⟩
    cases base with
    | none =>
      cases extended
      exact Or.inr ⟨by simp, rfl⟩
    | some b =>
      dsimp only at extended
      split at extended
      next present =>
        cases extended
        exact Or.inl ⟨rfl, present⟩
      next absent =>
        cases extended
        refine Or.inr ⟨?_, by simp⟩
        intro c here
        cases here
        exact absent

theorem extend_step {base : Option Text} {step : String × Text} {id : Text}
    (plain : ∀ b ∈ base, Plain b) (value : allowed step.2 = true)
    (extended : extend repr base step.1 step.2 = .ok id) :
    Plain id ∧ ((∀ b ∈ base, Valid repr b) → (Valid repr id ↔ Deeper base step)) := by
  obtain ⟨k, named, ⟨rfl, present⟩ | ⟨absent, rfl⟩⟩ := extend_cases extended
  · refine ⟨plain id rfl, fun valid => iff_of_true (valid id rfl) ?_⟩
    intro j same
    cases name_injective (same.trans named.symm)
    exact Or.inl ⟨id, rfl, present⟩
  · have pieces : splitSegments (base.elim [] (· ++ [':']) ++ segment k step.2) =
        base.elim [] splitSegments ++ splitSegments (segment k step.2) := by
      cases base with
      | none => rfl
      | some b =>
        rw [Option.elim_some, List.append_assoc]
        exact cut_append settled_typed (typed_segment k step.2) b
    have clean : Plain (base.elim [] (· ++ [':']) ++ segment k step.2) := by
      rw [plain_append, plain_segment]
      refine ⟨?_, (allowed_iff.mp value).2⟩
      cases base with
      | none => intro c member; cases member
      | some b =>
        rw [Option.elim_some, plain_append]
        refine ⟨plain b rfl, ?_⟩
        intro c member
        rw [List.mem_singleton.mp member]
        rfl
    refine ⟨clean, fun _ => ?_⟩
    rw [valid_iff_ascending clean, pieces]
    constructor
    · intro ascending j same
      cases name_injective (same.trans named.symm)
      exact Or.inr ascending
    · intro deeper
      apply (deeper k named).resolve_left
      rintro ⟨b, here, present⟩
      exact absent b here present

theorem chain_iff {base : Option Text} {steps : List (String × Text)} {ids : List Text}
    (chain : Chain repr base steps ids) (plain : ∀ b ∈ base, Plain b)
    (values : ∀ step ∈ steps, allowed step.2 = true) (valid : ∀ b ∈ base, Valid repr b) :
    (∀ id ∈ ids, Valid repr id) ↔ ∀ m ∈ (base :: ids.map some).zip steps, Deeper m.1 m.2 := by
  induction chain with
  | nil base => simp
  | cons extended later ih =>
    rw [List.forall_mem_cons] at values
    obtain ⟨plain', step⟩ := extend_step plain values.1 extended
    have here := step valid
    have rest := fun valid' => ih (by simpa using plain') values.2 (by simpa using valid')
    rw [List.map_cons, List.zip_cons_cons, List.forall_mem_cons, List.forall_mem_cons]
    constructor
    · rintro ⟨valid', ids⟩
      exact ⟨here.mp valid', (rest valid').mp ids⟩
    · rintro ⟨deeper, steps⟩
      exact ⟨here.mpr deeper, (rest (here.mpr deeper)).mpr steps⟩

end Extend

section Legacy

def lastValue (s : Text) (k : Component) : Option Text :=
  Dict.get ((splitSegments s).filterMap matchSegment).reverse k

theorem of_lastValue {s value : Text} {k : Component} (found : lastValue s k = some value) :
    Whole ':' typed value ∧ value ≠ [] ∧ '\n' ∉ value := by
  have member := List.mem_reverse.mp (Dict.mem_of_get found)
  obtain ⟨piece, cut, matched⟩ := List.mem_filterMap.mp member
  obtain ⟨rest, -, grouped⟩ := of_matchSegment matched
  exact ⟨whole_of_mem_split cut matched, (of_group grouped).1⟩

theorem normalizeLegacy_of_valid {id : Text} (valid : Valid repr id) :
    normalizeLegacy repr (some id) = (some id, .kept) := by
  rw [normalizeLegacy, if_pos (valid_iff_fst.mpr valid)]

theorem valid_recomposed_iff {s id : Text}
    (composed : compose ((decompose s).map fun item => (item.1, some item.2)) = some id) :
    Valid repr id ↔ ∀ k value, lastValue s k = some value → allowed value = true := by
  set parts : Parts := (decompose s).map fun item => (item.1, some item.2) with made
  have last : ∀ l, l ∈ parts.labels ↔ lastValue s l.1 = some l.2 := by
    intro l
    have values := Dict.get_map_values (decompose s) some l.1
    rw [Parts.mem_labels, made, values, get_decompose, lastValue, Option.map_eq_some_iff]
    simp
  have pieces : splitSegments id = parts.segments :=
    split_compose_of_whole composed fun l member => (of_lastValue ((last l).mp member)).1
  have read : (splitSegments id).map matchSegment = parts.labels.map some := by
    rw [pieces]
    exact parts.map_segments fun l member => (of_lastValue ((last l).mp member)).2
  rw [valid_iff_labels, read]
  constructor
  · rintro ⟨labels, same, values, -⟩ k value found
    have here : labels = parts.labels :=
      (List.map_inj_right fun _ _ => Option.some.inj).mp same.symm
    exact values (k, value) (here ▸ (last (k, value)).mpr found)
  · intro values
    exact ⟨parts.labels, rfl, fun l member => values l.1 l.2 ((last l).mp member),
      parts.labels_ascending⟩

theorem valid_normalized_iff {legacy : Option Text} {id : Text} {action : Action}
    (out : normalizeLegacy repr legacy = (some id, action)) :
    Valid repr id ↔ ∀ s ∈ legacy, ∀ k value, lastValue s k = some value → allowed value = true := by
  cases legacy with
  | none => cases out
  | some s =>
    rw [normalizeLegacy] at out
    split at out
    next accepts =>
      cases out
      have valid := valid_iff_fst.mp accepts
      refine iff_of_true valid ?_
      intro t here k value found
      cases here
      obtain ⟨labels, read, values, -⟩ := valid_iff_labels.mp valid
      rw [lastValue, filterMap_of_map read] at found
      exact values _ (List.mem_reverse.mp (Dict.mem_of_get found))
    next =>
      dsimp only at out
      split at out
      next => cases out
      next =>
        split at out
        next => cases out
        next recomposed composed =>
          split at out
          next => cases out
          next =>
            cases out
            rw [valid_recomposed_iff composed]
            simp

end Legacy

/-- Which ids that are handed out are valid: the composed where the segments that its parts are
read as ascend, those of a chain where every call goes deeper, and the normalized where the last
segment of each type has only allowed characters. -/
theorem handed_out_valid_iff (repr : String → String) :
    (∀ (parts : Parts) (id : Text), parts.Allowed → compose parts = some id →
      (Valid repr id ↔ Ascending (parts.segments.flatMap splitSegments))) ∧
    (∀ (base : Option Text) (steps : List (String × Text)) (ids : List Text),
      (∀ b ∈ base, ∃ parts : Parts, parts.Allowed ∧ compose parts = some b ∧ Valid repr b) →
      (∀ step ∈ steps, allowed step.2 = true) → Chain repr base steps ids →
      ((∀ id ∈ ids, Valid repr id) ↔
        ∀ m ∈ (base :: ids.map some).zip steps, Deeper m.1 m.2)) ∧
    ∀ (legacy : Option Text) (id : Text) (action : Action),
      normalizeLegacy repr legacy = (some id, action) →
      (Valid repr id ∧ normalizeLegacy repr (some id) = (some id, .kept) ↔
        ∀ s ∈ legacy, ∀ k value, lastValue s k = some value → allowed value = true) := by
  refine ⟨?_, ?_, ?_⟩
  · intro parts id values composed
    rw [valid_iff_ascending (plain_compose values composed), split_compose composed]
  · intro base steps ids start values chain
    refine chain_iff chain ?_ values ?_
    · intro b here
      obtain ⟨parts, allowed, composed, -⟩ := start b here
      exact plain_compose allowed composed
    · intro b here
      obtain ⟨-, -, -, valid⟩ := start b here
      exact valid
  · intro legacy id action out
    rw [← valid_normalized_iff out]
    exact and_iff_left_of_imp normalizeLegacy_of_valid

theorem handed_out_valid_deeper :
    (∀ id ∈ [['s', 'e', 's', 's', '-', 'a'],
        ['s', 'e', 's', 's', '-', 'a', ':', 't', 'o', 'o', 'l', '-', 'x']],
      Valid (fun s => s) id) ∧
    Valid (fun s => s) ['w', 'f', '-', 'b', ':', 'c'] ∧
    Valid (fun s => s) ['s', 'e', 's', 's', '-', 'a', ':', 'w', 'f', '-', 'b'] := by
  obtain ⟨composed, chained, normalized⟩ := handed_out_valid_iff fun s => s
  refine ⟨?_, ?_, ?_⟩
  · apply (chained none [("session", ['a']), ("tool", ['x'])] _ (by simp) (by decide)
      (.cons rfl (.cons rfl (.nil _)))).mpr
    intro m member k named
    rcases List.mem_cons.mp member with rfl | member
    · cases name_injective (j := k) (k := session) named
      exact Or.inr ⟨[(session, ['a'])], rfl, by decide, by decide⟩
    · cases List.mem_singleton.mp member
      cases name_injective (j := k) (k := tool) named
      exact Or.inr ⟨[(session, ['a']), (tool, ['x'])], rfl, by decide, by decide⟩
  · apply (composed [(workflow, some ['b', ':', 'c'])] _ ?_ rfl).mpr
    · exact ⟨[(workflow, ['b', ':', 'c'])], rfl, by decide, by decide⟩
    · intro k value here
      cases k <;> cases here
      rfl
  · apply ((normalized (some ['w', 'f', '-', 'b', ':', 's', 'e', 's', 's', '-', 'a'])
      ['s', 'e', 's', 's', '-', 'a', ':', 'w', 'f', '-', 'b'] .normalized rfl).mpr ?_).1
    intro s here k value found
    cases here
    cases k <;> cases found <;> rfl

/-- A session added to a skill, a workflow in the value of a session beside the workflow, and a
legacy session with a blank in it. -/
theorem handed_out_invalid :
    (∃ id, extend (fun s => s) (some ['s', 'k', 'i', 'l', 'l', '-', 'x']) "session" ['a'] = .ok id ∧
      ¬Valid (fun s => s) id) ∧
    (∃ id, compose [(session, some ['a', ':', 'w', 'f', '-', 'b']), (workflow, some ['c'])] =
      some id ∧
      ¬Valid (fun s => s) id) ∧
    ∃ id, normalizeLegacy (fun s => s) (some ['s', 'e', 's', 's', '-', 'a', ' ', 'b']) =
      (some id, .normalized) ∧ ¬Valid (fun s => s) id := by
  refine ⟨⟨_, rfl, ?_⟩, ⟨_, rfl, ?_⟩, ⟨_, rfl, ?_⟩⟩
  all_goals
    rw [← valid_iff_fst]
    decide

end DreamStudio.Correlation
