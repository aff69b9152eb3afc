import DreamStudio.Library.Cut
import DreamStudio.Library.Dict
import Mathlib.Data.List.TakeWhile

namespace DreamStudio.Correlation

open Library

abbrev Text := List Char

inductive Component
  | session | workflow | skill | agent | hook | tool
  deriving DecidableEq

namespace Component

/-- `_COMPONENT_ORDER`. -/
def order : List Component := [session, workflow, skill, agent, hook, tool]

def name : Component → String
  | session => "session"
  | workflow => "workflow"
  | skill => "skill"
  | agent => "agent"
  | hook => "hook"
  | tool => "tool"

/-- `_PREFIX`. -/
def prefixOf : Component → Text
  | session => ['s', 'e', 's', 's']
  | workflow => ['w', 'f']
  | skill => ['s', 'k', 'i', 'l', 'l']
  | agent => ['a', 'g', 'e', 'n', 't']
  | hook => ['h', 'o', 'o', 'k']
  | tool => ['t', 'o', 'o', 'l']

/-- `_COMPONENT_ORDER.index`. -/
def index (k : Component) : Nat := order.idxOf k

def marker (k : Component) : Text := k.prefixOf ++ ['-']

end Component

open Component

/-- `[A-Za-z0-9\-._:]`. -/
def valueChar (c : Char) : Bool := c.isAlphanum || c = '-' || c = '.' || c = '_' || c = ':'

/-- `_VALUE_RE`, of a value without newlines. -/
def allowed (value : Text) : Bool := !value.isEmpty && value.all valueChar

/-- The lookahead of `_SEGMENT_SPLIT_RE`. -/
def typed (s : Text) : Bool := (order.map marker).any (·.isPrefixOf s)

/-- `_SEGMENT_SPLIT_RE.split`. -/
def splitSegments (id : Text) : List Text := cut ':' typed id

/-- `(.+)$`: a newline at the end is not in the group. -/
def group (rest : Text) : Option Text :=
  let line := rest.takeWhile (· ≠ '\n')
  if line ≠ [] ∧ (rest = line ∨ rest = line ++ ['\n']) then some line else none

/-- `_SEGMENT_RE.match`, with the entity type of the prefix. -/
def matchSegment (s : Text) : Option (Component × Text) :=
  (order.find? fun k => k.marker.isPrefixOf s).bind fun k =>
    (group (s.drop k.marker.length)).map (k, ·)

abbrev Parts := Dict Component (Option Text)

/-- `f"{prefix}-{value}"`. -/
def segment (k : Component) (value : Text) : Text := k.marker ++ value

def Parts.segments (parts : Parts) : List Text :=
  order.filterMap fun k => (parts.get k).join.map (segment k)

def compose (parts : Parts) : Option Text :=
  if parts.segments.isEmpty then none else some ([':'].intercalate parts.segments)

def decompose (id : Text) : Dict Component Text :=
  ((splitSegments id).filterMap matchSegment).foldl (fun result m => result.set m.1 m.2) []

def extend (repr : String → String) (base : Option Text) (entityType : String) (entityId : Text) :
    Except String Text :=
  match order.find? fun k => k.name = entityType with
  | none =>
    .error ("Unknown entity_type " ++ repr entityType ++ ". Must be one of: " ++
      ", ".intercalate (order.map name))
  | some k =>
    match base with
    | none => .ok (segment k entityId)
    | some base =>
      if k ∈ (decompose base).keys then .ok base else .ok (base ++ ':' :: segment k entityId)

/-- The loop of `validate`; `last` is the end of `seen_order`. -/
def validateSegments (repr : String → String) : Option Nat → List Text → Bool × Option String
  | _, [] => (true, none)
  | last, s :: rest =>
    let shown := repr (String.ofList s)
    match matchSegment s with
    | none => (false, some ("Segment " ++ shown ++ " does not match prefix-value pattern"))
    | some (k, value) =>
      if !allowed value then
        (false, some ("Segment " ++ shown ++ " value " ++ repr (String.ofList value) ++
          " contains invalid characters. Allowed: alphanumeric, dash, dot, underscore, colon"))
      else if last.any (k.index ≤ ·) then
        (false, some ("Segment " ++ shown ++ " is out of order. Expected order: " ++
          " → ".intercalate (order.map name)))
      else validateSegments repr (some k.index) rest

def validate (repr : String → String) (id : Text) : Bool × Option String :=
  if id.isEmpty then (false, some "correlation_id is empty")
  else validateSegments repr none (splitSegments id)

inductive Action
  | kept | normalized | unfixable
  deriving DecidableEq

def normalizeLegacy (repr : String → String) : Option Text → Option Text × Action
  | none => (none, .unfixable)
  | some id =>
    if (validate repr id).1 then (some id, .kept)
    else
      let components := decompose id
      if components.isEmpty then (none, .unfixable)
      else
        match compose (components.map fun item => (item.1, some item.2)) with
        | none => (none, .unfixable)
        | some recomposed =>
          if recomposed.isEmpty then (none, .unfixable) else (some recomposed, .normalized)

section Segments

theorem colon_not_mem_marker (k : Component) : ':' ∉ k.marker := by
  cases k <;> decide

theorem mem_order (k : Component) : k ∈ order := by
  cases k <;> decide

theorem settled_typed : Settled ':' typed := by
  apply settled_any
  intro p member
  obtain ⟨k, -, rfl⟩ := List.mem_map.mp member
  exact colon_not_mem_marker k

theorem typed_append (s t : Text) (here : typed s = true) : typed (s ++ t) = true := by
  rw [typed, List.any_eq_true] at *
  obtain ⟨m, member, before⟩ := here
  refine ⟨m, member, ?_⟩
  rw [List.isPrefixOf_iff_prefix] at *
  exact before.trans (List.prefix_append s t)

theorem typed_segment (k : Component) (value : Text) : typed (segment k value) = true :=
  List.any_eq_true.mpr ⟨k.marker, List.mem_map_of_mem (mem_order k),
    List.isPrefixOf_iff_prefix.mpr (List.prefix_append k.marker value)⟩

theorem find_segment (k : Component) (value : Text) :
    (order.find? fun j => j.marker.isPrefixOf (segment k value)) = some k := by
  cases k <;> rfl

theorem matchSegment_segment (k : Component) (rest : Text) :
    matchSegment (segment k rest) = (group rest).map (k, ·) := by
  rw [matchSegment, find_segment, segment, Option.bind_some, List.drop_left]

theorem group_of_line {value : Text} (some : value ≠ []) (line : '\n' ∉ value) :
    group value = .some value := by
  have whole : value.takeWhile (· ≠ '\n') = value := by
    apply List.takeWhile_eq_self_iff.mpr
    intro c member
    exact decide_eq_true (ne_of_mem_of_not_mem member line)
  rw [group, whole, if_pos ⟨some, Or.inl rfl⟩]

theorem of_group {rest value : Text} (found : group rest = some value) :
    (value ≠ [] ∧ '\n' ∉ value) ∧ (rest = value ∨ rest = value ++ ['\n']) := by
  rw [group] at found
  split at found
  next here =>
    cases found
    refine ⟨⟨here.1, ?_⟩, here.2⟩
    intro member
    have apart := List.mem_takeWhile_imp member
    simp at apart
  next => cases found

theorem of_matchSegment {s value : Text} {k : Component}
    (found : matchSegment s = some (k, value)) :
    ∃ rest, s = segment k rest ∧ group rest = some value := by
  obtain ⟨j, first, found⟩ := Option.bind_eq_some_iff.mp found
  obtain ⟨line, grouped, same⟩ := Option.map_eq_some_iff.mp found
  cases same
  have before : k.marker.isPrefixOf s = true :=
    List.find?_some (p := fun k : Component => k.marker.isPrefixOf s) first
  rw [List.isPrefixOf_iff_prefix] at before
  exact ⟨s.drop k.marker.length, (List.prefix_iff_eq_append.mp before).symm, grouped⟩

theorem whole_segment (k : Component) (value : Text) :
    Whole ':' typed (segment k value) ↔ Whole ':' typed value :=
  whole_append_of_not_mem (colon_not_mem_marker k) value

theorem whole_of_mem_split {id s value : Text} {k : Component} (member : s ∈ splitSegments id)
    (found : matchSegment s = some (k, value)) : Whole ':' typed value := by
  obtain ⟨rest, rfl, grouped⟩ := of_matchSegment found
  have whole : Whole ':' typed rest :=
    (whole_segment k rest).mp (whole_of_mem_cut settled_typed member)
  rcases (of_group grouped).2 with rfl | rfl
  · exact whole
  · exact whole_of_append typed_append whole

end Segments

section Compose

def Parts.labels (parts : Parts) : List (Component × Text) :=
  order.filterMap fun k => (parts.get k).join.map (k, ·)

theorem Parts.segments_eq (parts : Parts) :
    parts.segments = parts.labels.map fun l => segment l.1 l.2 := by
  rw [labels, List.map_filterMap]
  apply List.filterMap_congr
  intro k _
  cases (parts.get k).join <;> rfl

theorem Parts.mem_labels {parts : Parts} {l : Component × Text} :
    l ∈ parts.labels ↔ parts.get l.1 = some (some l.2) := by
  rw [labels, List.mem_filterMap]
  constructor
  · rintro ⟨k, -, found⟩
    cases nonNull : (parts.get k).join with
    | none => rw [nonNull] at found; cases found
    | some value =>
      rw [nonNull] at found
      cases found
      exact Option.join_eq_some_iff.mp nonNull
  · intro found
    refine ⟨l.1, mem_order l.1, ?_⟩
    rw [found]
    rfl

theorem Parts.labels_ascending (parts : Parts) :
    parts.labels.Pairwise fun l m => l.1.index < m.1.index := by
  have order_ascending : order.Pairwise fun j k => j.index < k.index := by decide
  refine order_ascending.filterMap _ ?_
  intro j k before l hl m hm
  obtain ⟨v, -, rfl⟩ := Option.map_eq_some_iff.mp hl
  obtain ⟨w, -, rfl⟩ := Option.map_eq_some_iff.mp hm
  exact before

theorem Parts.labels_nodup (parts : Parts) : (Dict.keys parts.labels).Nodup := by
  rw [List.Nodup, Dict.keys, List.pairwise_map]
  apply parts.labels_ascending.imp
  intro l m before same
  rw [same] at before
  exact lt_irrefl _ before

theorem Parts.get_labels (parts : Parts) (k : Component) :
    Dict.get parts.labels k = (parts.get k).join := by
  apply Option.ext
  intro value
  rw [Dict.get_eq_some_iff parts.labels_nodup, Parts.mem_labels, Option.join_eq_some_iff]

theorem Parts.map_segments (parts : Parts)
    (lines : ∀ l ∈ parts.labels, l.2 ≠ [] ∧ '\n' ∉ l.2) :
    parts.segments.map matchSegment = parts.labels.map some := by
  rw [Parts.segments_eq, List.map_map]
  apply List.map_congr_left
  intro l member
  have line := lines l member
  rw [Function.comp_apply, matchSegment_segment, group_of_line line.1 line.2]
  rfl

theorem filterMap_of_map {segments : List Text} {labels : List (Component × Text)}
    (read : segments.map matchSegment = labels.map some) :
    segments.filterMap matchSegment = labels := by
  have both : (segments.map matchSegment).filterMap id = (labels.map some).filterMap id :=
    congrArg _ read
  rw [List.filterMap_map, List.filterMap_map] at both
  exact both.trans List.filterMap_some

theorem split_compose {parts : Parts} {id : Text} (composed : compose parts = some id) :
    splitSegments id = parts.segments.flatMap splitSegments := by
  rw [compose] at composed
  split at composed
  next => cases composed
  next some =>
    cases composed
    cases shape : parts.segments with
    | nil => exact absurd shape (fun h => some (h ▸ rfl))
    | cons s rest =>
      apply cut_intercalate settled_typed
      intro t member
      have here : t ∈ parts.segments := shape ▸ List.mem_cons_of_mem s member
      rw [Parts.segments_eq, List.mem_map] at here
      obtain ⟨l, -, rfl⟩ := here
      exact typed_segment l.1 l.2

theorem split_compose_of_whole {parts : Parts} {id : Text} (composed : compose parts = some id)
    (whole : ∀ l ∈ parts.labels, Whole ':' typed l.2) :
    splitSegments id = parts.segments := by
  rw [split_compose composed, Parts.segments_eq, List.flatMap_map]
  rw [← List.flatMap_singleton' (parts.labels.map _), List.flatMap_map]
  apply List.flatMap_congr
  intro l member
  exact cut_of_whole ((whole_segment l.1 l.2).mpr (whole l member))

theorem compose_isSome {parts : Parts} {k : Component} {value : Text}
    (here : parts.get k = some (some value)) : ∃ id, compose parts = some id := by
  have member : (k, value) ∈ parts.labels := Parts.mem_labels.mpr here
  rw [compose, Parts.segments_eq, List.isEmpty_map, if_neg (by
    rw [List.isEmpty_iff]
    exact List.ne_nil_of_mem member)]
  exact ⟨_, rfl⟩

theorem line_of_allowed {value : Text} (ok : allowed value = true) :
    value ≠ [] ∧ '\n' ∉ value := by
  rw [allowed, Bool.and_eq_true, Bool.not_eq_true', List.isEmpty_eq_false_iff,
    List.all_eq_true] at ok
  exact ⟨ok.1, fun member => absurd (ok.2 _ member) (by decide)⟩

theorem get_decompose (id : Text) (k : Component) :
    (decompose id).get k = Dict.get ((splitSegments id).filterMap matchSegment).reverse k := by
  rw [decompose, Dict.get_foldl_set, Dict.get_nil, Option.or_none]

/-- Reading the id of parts gives the parts back exactly where no value has a known prefix and its
dash behind a colon. -/
theorem decompose_compose_iff (parts : Parts)
    (values : ∀ k value, parts.get k = some (some value) → allowed value = true)
    (nonNull : ∃ k value, parts.get k = some (some value)) :
    (∃ id, compose parts = some id ∧ ∀ k, (decompose id).get k = (parts.get k).join) ↔
      ∀ k value, parts.get k = some (some value) → Whole ':' typed value := by
  constructor
  · rintro ⟨id, composed, back⟩ k value here
    have found := back k
    rw [here, get_decompose] at found
    have member := List.mem_reverse.mp (Dict.mem_of_get found)
    obtain ⟨s, cut, matched⟩ := List.mem_filterMap.mp member
    exact whole_of_mem_split cut matched
  · intro whole
    obtain ⟨k, value, here⟩ := nonNull
    obtain ⟨id, composed⟩ := compose_isSome here
    refine ⟨id, composed, fun k => ?_⟩
    have read : (splitSegments id).filterMap matchSegment = parts.labels := by
      rw [split_compose_of_whole composed fun l member => whole _ _ (Parts.mem_labels.mp member)]
      apply filterMap_of_map
      apply parts.map_segments
      intro l member
      exact line_of_allowed (values _ _ (Parts.mem_labels.mp member))
    rw [get_decompose, read, Dict.get_reverse parts.labels_nodup, parts.get_labels]

theorem decompose_compose_colon :
    ∃ id, compose [(skill, some ['d', 's', ':', 'x'])] = some id ∧
      ∀ k, (decompose id).get k = (Dict.get [(skill, some ['d', 's', ':', 'x'])] k).join := by
  have only : ∀ k value, Dict.get [(skill, some ['d', 's', ':', 'x'])] k = some (some value) →
      value = ['d', 's', ':', 'x'] := by
    intro k value here
    cases k <;> cases here
    rfl
  apply (decompose_compose_iff [(skill, some ['d', 's', ':', 'x'])] ?_ ⟨skill, _, rfl⟩).mpr
  · intro k value here
    rw [only k value here]
    simp only [Whole]
    decide
  · intro k value here
    rw [only k value here]
    decide

/-- The session `a:wf-b` is read back as the session `a` in the workflow `b`. -/
theorem decompose_compose_nested :
    ¬∃ id, compose [(session, some ['a', ':', 'w', 'f', '-', 'b'])] = some id ∧
      ∀ k, (decompose id).get k =
        (Dict.get [(session, some ['a', ':', 'w', 'f', '-', 'b'])] k).join := by
  rintro ⟨id, composed, back⟩
  cases composed
  exact absurd (back workflow) (by decide)

end Compose

end DreamStudio.Correlation
