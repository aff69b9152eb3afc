import DreamStudio.Integrations.ClaudeMd

namespace DreamStudio.ClaudeMd

open Library

section Markers

structure IsMarker (m : List Char) : Prop where
  led : ∃ t, m = '<' :: t ∧ '<' ∉ t ∧ '\n' ∉ t
  bang : '!' ∈ m

theorem isMarker_begin : IsMarker routingBegin.toList := by
  constructor
  · refine ⟨"!-- BEGIN AUTO-ROUTING -->".toList, ?_, ?_, ?_⟩
    · rw [routingBegin, String.toList_ofList, String.toList_ofList]
    · rw [String.toList_ofList]
      decide
    · rw [String.toList_ofList]
      decide
  · rw [routingBegin, String.toList_ofList]
    decide

theorem isMarker_end : IsMarker routingEnd.toList := by
  constructor
  · refine ⟨"!-- END AUTO-ROUTING -->".toList, ?_, ?_, ?_⟩
    · rw [routingEnd, String.toList_ofList, String.toList_ofList]
    · rw [String.toList_ofList]
      decide
    · rw [String.toList_ofList]
      decide
  · rw [routingEnd, String.toList_ofList]
    decide

variable {m p q : List Char}

theorem IsMarker.find_append (marker : IsMarker m) (opens : ∀ x ∈ q.head?, x = '<' ∨ x = '\n') :
    find m (p ++ q) = (find m p).or ((find m q).map (p.length + ·)) := by
  obtain ⟨t, rfl, lt, newline⟩ := marker.led
  apply Library.find_append
  intro x first inside
  rcases opens x first with rfl | rfl
  · exact lt inside
  · exact newline inside

theorem IsMarker.find_newline (marker : IsMarker m) (q : List Char) :
    find m ('\n' :: q) = (find m q).map (1 + ·) := by
  obtain ⟨t, rfl, -, -⟩ := marker.led
  exact find_append_of_not_mem (p := ['\n']) (by decide)

theorem IsMarker.ne_nil (marker : IsMarker m) : m ≠ [] := List.ne_nil_of_mem marker.bang

theorem IsMarker.head (marker : IsMarker m) (q : List Char) :
    ∀ x ∈ (m ++ q).head?, x = '<' ∨ x = '\n' := by
  obtain ⟨t, rfl, -, -⟩ := marker.led
  exact fun x first => Or.inl (Option.some.inj first).symm

theorem findBegin_append (opens : ∀ x ∈ q.head?, x = '<' ∨ x = '\n') :
    findBegin (p ++ q) = (findBegin p).or ((findBegin q).map (p.length + ·)) :=
  isMarker_begin.find_append opens

theorem findEnd_append (opens : ∀ x ∈ q.head?, x = '<' ∨ x = '\n') :
    findEnd (p ++ q) = (findEnd p).or ((findEnd q).map (p.length + ·)) :=
  isMarker_end.find_append opens

theorem findBegin_newline (q : List Char) : findBegin ('\n' :: q) = (findBegin q).map (1 + ·) :=
  isMarker_begin.find_newline q

theorem findEnd_newline (q : List Char) : findEnd ('\n' :: q) = (findEnd q).map (1 + ·) :=
  isMarker_end.find_newline q

theorem findEnd_begin (q : List Char) :
    findEnd (routingBegin.toList ++ q) = (findEnd q).map (routingBegin.length + ·) := by
  have other : ¬routingEnd.toList <+: routingBegin.toList ++ q := by
    rw [routingEnd, routingBegin, String.toList_ofList, String.toList_ofList]
    simp [List.cons_prefix_cons]
  obtain ⟨t, led, lt, -⟩ := isMarker_begin.led
  obtain ⟨u, led', -, -⟩ := isMarker_end.led
  rw [led, List.cons_append] at other ⊢
  rw [findEnd, find_cons_of_not_start other, led', find_append_of_not_mem lt, Option.map_map,
    ← String.length_toList, led, List.length_cons]
  congr 1
  funext i
  exact (Nat.succ_add t.length i).symm

theorem findBegin_eq_none (plain : '!' ∉ p) : findBegin p = none :=
  find_eq_none_of_not_mem isMarker_begin.bang plain

theorem findEnd_eq_none (plain : '!' ∉ p) : findEnd p = none :=
  find_eq_none_of_not_mem isMarker_end.bang plain

theorem findBegin_self (q : List Char) : findBegin (routingBegin.toList ++ q) = some 0 :=
  find_of_start (List.prefix_append _ q)

theorem findEnd_self (q : List Char) : findEnd (routingEnd.toList ++ q) = some 0 :=
  find_of_start (List.prefix_append _ q)

end Markers

/-- A text that is `before`, a begin marker, `inside`, an end marker and `after`, by the first of
each marker. -/
structure Region (before inside after text : List Char) : Prop where
  whole : text =
    before ++ (routingBegin.toList ++ (inside ++ (routingEnd.toList ++ after)))
  noBegin : findBegin before = none
  noEnd : findEnd before = none
  insideNoEnd : findEnd inside = none

namespace Region

variable {before inside after text : List Char}

theorem findBegin_eq (r : Region before inside after text) :
    findBegin text = some before.length := by
  rw [r.whole, findBegin_append (isMarker_begin.head _), r.noBegin, findBegin_self]
  rfl

theorem findEnd_eq (r : Region before inside after text) :
    findEnd text = some (before.length + (routingBegin.length + inside.length)) := by
  rw [r.whole, findEnd_append (isMarker_begin.head _), r.noEnd, Option.none_or,
    findEnd_begin, findEnd_append (isMarker_end.head _), r.insideNoEnd, findEnd_self]
  rfl

theorem wellFormed (r : Region before inside after text) : WellFormed text := by
  refine ⟨_, _, r.findBegin_eq, r.findEnd_eq, ?_⟩
  apply Nat.lt_add_of_pos_right
  apply Nat.add_pos_left
  decide

theorem take_eq (r : Region before inside after text) :
    text.take (before.length + routingBegin.length) = before ++ routingBegin.toList := by
  rw [r.whole, ← List.append_assoc, ← String.length_toList, ← List.length_append]
  exact List.take_left

theorem drop_eq (r : Region before inside after text) :
    text.drop (before.length + (routingBegin.length + inside.length)) =
      routingEnd.toList ++ after := by
  rw [r.whole, ← List.append_assoc, ← List.append_assoc, ← String.length_toList,
    ← Nat.add_assoc, ← List.length_append, ← List.length_append]
  exact List.drop_left

end Region

theorem wellFormed_iff {text : List Char} :
    WellFormed text ↔ ∃ before inside after, Region before inside after text := by
  constructor
  · rintro ⟨beginIdx, endIdx, begins, ends, ordered⟩
    obtain ⟨before, t, rfl, rfl, noBegin⟩ := split_of_find isMarker_begin.ne_nil begins
    rw [findEnd_append (isMarker_begin.head _)] at ends
    cases early : findEnd before with
    | some i =>
      rw [early, Option.some_or] at ends
      cases ends
      obtain ⟨x, y, whole, place, -⟩ := split_of_find isMarker_end.ne_nil early
      rw [whole, List.length_append] at ordered
      omega
    | none =>
      rw [early, Option.none_or, findEnd_begin] at ends
      cases later : findEnd t with
      | none => rw [later] at ends; cases ends
      | some i =>
        obtain ⟨inside, after, rfl, -, noEnd⟩ := split_of_find isMarker_end.ne_nil later
        exact ⟨before, inside, after, rfl, noBegin, early, noEnd⟩
  · rintro ⟨before, inside, after, r⟩
    exact r.wellFormed

def spliced (before block after : List Char) : List Char :=
  before ++ (routingBegin.toList ++ (block ++ (routingEnd.toList ++ after)))

theorem findBegin_ne_findEnd {text : List Char} {beginIdx endIdx : Nat}
    (begins : findBegin text = some beginIdx) (ends : findEnd text = some endIdx) :
    beginIdx ≠ endIdx := by
  rintro rfl
  obtain ⟨rest, here⟩ := drop_of_find begins
  obtain ⟨rest', here'⟩ := drop_of_find ends
  rw [here', routingBegin, routingEnd, String.toList_ofList, String.toList_ofList] at here
  simp at here

section Merge

variable {before inside after existing generated : List Char}

theorem merge_of_region (r : Region before inside after existing) :
    mergeClaudeMd (some existing) generated =
      if spliced before (generatedBlock generated) after = existing then
        ⟨some existing, .unchanged, "generated region already current"⟩
      else ⟨some (spliced before (generatedBlock generated) after), .spliced,
        "replaced only the generated region; " ++ toString ((before ++ routingBegin.toList).length +
          (routingEnd.toList ++ after).length) ++ " byte(s) outside it preserved"⟩ := by
  have ordered : ¬before.length + (routingBegin.length + inside.length) < before.length :=
    Nat.not_lt.mpr (Nat.le_add_right _ _)
  have merged : before ++ routingBegin.toList ++ generatedBlock generated ++
      (routingEnd.toList ++ after) = spliced before (generatedBlock generated) after := by
    simp only [spliced, List.append_assoc]
  rw [mergeClaudeMd]
  simp only [r.findBegin_eq, r.findEnd_eq, if_neg ordered, r.take_eq, r.drop_eq, merged]

theorem textToWrite_of_region (r : Region before inside after existing) :
    (mergeClaudeMd (some existing) generated).textToWrite =
      some (spliced before (generatedBlock generated) after) := by
  rw [merge_of_region r]
  split
  next same => rw [same]
  · rfl

theorem textToWrite_of_not_wellFormed (unformed : ¬WellFormed existing) :
    (mergeClaudeMd (some existing) generated).textToWrite = none := by
  unfold mergeClaudeMd
  dsimp only
  split
  next beginIdx endIdx begins ends =>
    have behind : endIdx < beginIdx := by
      rcases Nat.lt_trichotomy beginIdx endIdx with ordered | same | behind
      · exact absurd ⟨beginIdx, endIdx, begins, ends, ordered⟩ unformed
      · exact absurd same (findBegin_ne_findEnd begins ends)
      · exact behind
    rw [if_pos behind]
  · rfl

theorem local_of_region (r : Region before inside after existing) (block : List Char) :
    Local existing (spliced before block after) := by
  refine ⟨_, _, r.findBegin_eq, r.findEnd_eq, block, ?_⟩
  rw [r.take_eq, r.drop_eq, spliced]
  simp only [List.append_assoc]

theorem region_spliced (r : Region before inside after existing) {block : List Char}
    (plain : findEnd block = none) : Region before block after (spliced before block after) :=
  ⟨rfl, r.noBegin, r.noEnd, plain⟩

theorem merge_again_iff (r : Region before inside after existing) :
    mergeClaudeMd (some (spliced before (generatedBlock generated) after)) generated =
      ⟨some (spliced before (generatedBlock generated) after), .unchanged,
        "generated region already current"⟩ ↔ findEnd (generatedBlock generated) = none := by
  constructor
  · intro same
    cases found : findEnd (generatedBlock generated) with
    | none => rfl
    | some i =>
      obtain ⟨y, z, split, -, plain⟩ := split_of_find isMarker_end.ne_nil found
      have again : Region before y (z ++ (routingEnd.toList ++ after))
          (spliced before (generatedBlock generated) after) := by
        refine ⟨?_, r.noBegin, r.noEnd, plain⟩
        rw [spliced, split]
        simp only [List.append_assoc]
      have written := congrArg ClaudeMdMerge.textToWrite same
      rw [textToWrite_of_region again, Option.some.injEq] at written
      have lengths := congrArg List.length written
      simp only [spliced, List.length_append] at lengths
      have filled : 0 < routingEnd.toList.length := List.length_pos_iff.mpr isMarker_end.ne_nil
      omega
  · intro plain
    rw [merge_of_region (region_spliced r plain), if_pos rfl]

end Merge

section Generated

variable {generated content table : List Char}

theorem generatedBlock_of_region {before inside after : List Char}
    (r : Region before inside after generated) : generatedBlock generated = inside := by
  have ordered : before.length ≤ before.length + (routingBegin.length + inside.length) :=
    Nat.le_add_right _ _
  have taken : generated.take (before.length + (routingBegin.length + inside.length)) =
      before ++ routingBegin.toList ++ inside := by
    rw [r.whole, ← List.append_assoc, ← List.append_assoc, ← String.length_toList,
      ← Nat.add_assoc, ← List.length_append, ← List.length_append]
    exact List.take_left
  rw [generatedBlock]
  simp only [r.findBegin_eq, r.findEnd_eq, if_pos ordered, taken]
  rw [← String.length_toList, ← List.length_append]
  exact List.drop_left

theorem generatedBlock_of_not_wellFormed (unformed : ¬WellFormed generated) :
    generatedBlock generated = '\n' :: generated ++ ['\n'] := by
  unfold generatedBlock
  split
  next genBegin genEnd begins ends =>
    apply if_neg
    intro ordered
    have apart := findBegin_ne_findEnd begins ends
    exact unformed ⟨genBegin, genEnd, begins, ends, Nat.lt_of_le_of_ne ordered apart⟩
  · rfl

theorem findEnd_generatedBlock (ends : findEnd generated ≠ none) :
    findEnd (generatedBlock generated) = none ↔ WellFormed generated := by
  constructor
  · intro plain
    by_contra unformed
    obtain ⟨endIdx, ends⟩ := Option.ne_none_iff_exists'.mp ends
    rw [generatedBlock_of_not_wellFormed unformed, findEnd_append (by simp), findEnd_newline,
      ends] at plain
    cases plain
  · intro formed
    obtain ⟨before, inside, after, r⟩ := wellFormed_iff.mp formed
    rw [generatedBlock_of_region r]
    exact r.insideNoEnd

theorem wellFormed_of_shift {text text' : List Char} {k : Nat}
    (begins : findBegin text' = (findBegin text).map (k + ·))
    (ends : findEnd text' = (findEnd text).map (k + ·)) : WellFormed text' ↔ WellFormed text := by
  constructor
  · rintro ⟨b, e, begins', ends', ordered⟩
    rw [begins, Option.map_eq_some_iff] at begins'
    rw [ends, Option.map_eq_some_iff] at ends'
    obtain ⟨b, found, rfl⟩ := begins'
    obtain ⟨e, found', rfl⟩ := ends'
    exact ⟨b, e, found, found', Nat.lt_of_add_lt_add_left ordered⟩
  · rintro ⟨b, e, found, found', ordered⟩
    refine ⟨k + b, k + e, ?_, ?_, Nat.add_lt_add_left ordered k⟩
    · rw [begins, found]
      rfl
    · rw [ends, found']
      rfl

theorem behind_spec {p : List Char} (plain : '!' ∉ p) (q : List Char) :
    (findEnd (p ++ '\n' :: q) ≠ none ↔ findEnd q ≠ none) ∧
      (WellFormed (p ++ '\n' :: q) ↔ WellFormed q) := by
  have begins : findBegin (p ++ '\n' :: q) = (findBegin q).map ((p.length + 1) + ·) := by
    rw [findBegin_append (by simp), findBegin_newline, Option.map_map, findBegin_eq_none plain,
      Option.none_or]
    congr 1
    funext i
    exact (Nat.add_assoc _ 1 i).symm
  have ends : findEnd (p ++ '\n' :: q) = (findEnd q).map ((p.length + 1) + ·) := by
    rw [findEnd_append (by simp), findEnd_newline, Option.map_map, findEnd_eq_none plain,
      Option.none_or]
    congr 1
    funext i
    exact (Nat.add_assoc _ 1 i).symm
  refine ⟨?_, wellFormed_of_shift begins ends⟩
  rw [ends, Ne, Option.map_eq_none_iff]

def routingBlock (table : List Char) : List Char :=
  '\n' :: routingBegin.toList ++ '\n' :: table ++ '\n' :: routingEnd.toList ++ ['\n']

theorem findBegin_routingBlock (table : List Char) : findBegin (routingBlock table) = some 1 := by
  simp only [routingBlock, List.cons_append, List.append_assoc]
  rw [findBegin_newline, findBegin_self]
  rfl

theorem findEnd_table (plain : '!' ∉ table) (q : List Char) :
    findEnd ('\n' :: table ++ (routingEnd.toList ++ q)) = some (table.length + 1) := by
  have none : findEnd ('\n' :: table) = none := findEnd_eq_none (by simp [plain])
  rw [findEnd_append (isMarker_end.head q), none, findEnd_self]
  rfl

theorem findEnd_routingBlock (plain : '!' ∉ table) :
    ∃ endIdx, findEnd (routingBlock table) = some endIdx ∧ 1 < endIdx := by
  have place := findEnd_table (show '!' ∉ table ++ ['\n'] by simp [plain]) ['\n']
  simp only [List.cons_append, List.append_assoc, List.nil_append] at place
  refine ⟨1 + (routingBegin.length + ((table ++ ['\n']).length + 1)), ?_, ?_⟩
  · simp only [routingBlock, List.cons_append, List.append_assoc]
    rw [findEnd_newline, findEnd_begin, place]
    rfl
  · omega

theorem injectRoutingTable_of_both {beginIdx endIdx : Nat}
    (begins : findBegin content = some beginIdx) (ends : findEnd content = some endIdx) :
    injectRoutingTable content table =
      content.take (beginIdx + routingBegin.length) ++ '\n' :: table ++ content.drop endIdx := by
  simp only [injectRoutingTable, begins, ends]

theorem injectRoutingTable_of_missing (missing : findBegin content = none ∨
    findEnd content = none) :
    injectRoutingTable content table = content ++ routingBlock table := by
  unfold injectRoutingTable
  split
  next begins ends =>
    rw [begins, ends] at missing
    exact absurd missing (by simp)
  · simp only [routingBlock, List.cons_append, List.append_assoc]

theorem wellFormed_iff_lt {beginIdx endIdx : Nat} (begins : findBegin content = some beginIdx)
    (ends : findEnd content = some endIdx) : WellFormed content ↔ beginIdx < endIdx := by
  constructor
  · rintro ⟨b, e, begins', ends', ordered⟩
    rw [begins, Option.some.injEq] at begins'
    rw [ends, Option.some.injEq] at ends'
    omega
  · exact fun ordered => ⟨beginIdx, endIdx, begins, ends, ordered⟩

theorem inject_of_noEnd (plain : '!' ∉ table) (noEnd : findEnd content = none) :
    WellFormed (injectRoutingTable content table) := by
  obtain ⟨endIdx, ends, behind⟩ := findEnd_routingBlock plain
  rw [injectRoutingTable_of_missing (Or.inr noEnd)]
  have ends' : findEnd (content ++ routingBlock table) = some (content.length + endIdx) := by
    rw [findEnd_append (by simp [routingBlock]), noEnd, ends]
    rfl
  have begins' : findBegin (content ++ routingBlock table) =
      (findBegin content).or (some (content.length + 1)) := by
    rw [findBegin_append (by simp [routingBlock]), findBegin_routingBlock]
    rfl
  cases begins : findBegin content with
  | none =>
    rw [begins, Option.none_or] at begins'
    exact ⟨_, _, begins', ends', Nat.add_lt_add_left behind _⟩
  | some beginIdx =>
    rw [begins, Option.some_or] at begins'
    have within := lt_length_of_find isMarker_begin.ne_nil begins
    exact ⟨_, _, begins', ends', by omega⟩

theorem inject_of_noBegin (table : List Char) {endIdx : Nat} (noBegin : findBegin content = none)
    (ends : findEnd content = some endIdx) :
    findEnd (injectRoutingTable content table) ≠ none ∧
      ¬WellFormed (injectRoutingTable content table) := by
  rw [injectRoutingTable_of_missing (Or.inl noBegin)]
  have ends' : findEnd (content ++ routingBlock table) = some endIdx := by
    rw [findEnd_append (by simp [routingBlock]), ends, Option.some_or]
  have begins' : findBegin (content ++ routingBlock table) = some (content.length + 1) := by
    rw [findBegin_append (by simp [routingBlock]), noBegin, findBegin_routingBlock]
    rfl
  have within := lt_length_of_find isMarker_end.ne_nil ends
  refine ⟨by rw [ends']; exact Option.some_ne_none _, ?_⟩
  rw [wellFormed_iff_lt begins' ends']
  omega

theorem inject_of_region (plain : '!' ∉ table) (formed : WellFormed content) :
    WellFormed (injectRoutingTable content table) := by
  obtain ⟨before, inside, after, r⟩ := wellFormed_iff.mp formed
  have noEnd : findEnd ('\n' :: table) = none := findEnd_eq_none (by simp [plain])
  rw [injectRoutingTable_of_both r.findBegin_eq r.findEnd_eq, r.take_eq, r.drop_eq]
  have region : Region before ('\n' :: table) after
      (before ++ routingBegin.toList ++ '\n' :: table ++ (routingEnd.toList ++ after)) :=
    ⟨by simp only [List.append_assoc], r.noBegin, r.noEnd, noEnd⟩
  exact region.wellFormed

theorem inject_of_behind (table : List Char) {beginIdx endIdx : Nat}
    (begins : findBegin content = some beginIdx) (ends : findEnd content = some endIdx)
    (behind : endIdx < beginIdx) :
    findEnd (injectRoutingTable content table) = some endIdx ∧
      ¬WellFormed (injectRoutingTable content table) := by
  rw [injectRoutingTable_of_both begins ends]
  generalize '\n' :: table = body
  generalize content.drop endIdx = rest
  obtain ⟨before, t, rfl, rfl, noBegin⟩ := split_of_find isMarker_begin.ne_nil begins
  have alone : findBegin before = none := noBegin
  have early : findEnd before = some endIdx := by
    rw [findEnd_append (isMarker_begin.head _)] at ends
    cases found : findEnd before with
    | some i => rwa [found, Option.some_or] at ends
    | none =>
      rw [found, Option.none_or, Option.map_eq_some_iff] at ends
      obtain ⟨i, -, rfl⟩ := ends
      omega
  have taken : (before ++ (routingBegin.toList ++ t)).take (before.length + routingBegin.length) =
      before ++ routingBegin.toList := by
    rw [← List.append_assoc, ← String.length_toList, ← List.length_append]
    exact List.take_left
  rw [taken, List.append_assoc, List.append_assoc]
  have ends' : findEnd (before ++ (routingBegin.toList ++ (body ++ rest))) = some endIdx := by
    rw [findEnd_append (isMarker_begin.head _), early, Option.some_or]
  have begins' : findBegin (before ++ (routingBegin.toList ++ (body ++ rest))) =
      some before.length := by
    rw [findBegin_append (isMarker_begin.head _), alone, findBegin_self]
    rfl
  refine ⟨ends', ?_⟩
  rw [wellFormed_iff_lt begins' ends']
  omega

theorem inject_spec (content : List Char) (plain : '!' ∉ table) :
    findEnd (injectRoutingTable content table) ≠ none ∧
      (WellFormed (injectRoutingTable content table) ↔
        findEnd content = none ∨ WellFormed content) := by
  cases ends : findEnd content with
  | none =>
    have formed := inject_of_noEnd plain ends
    obtain ⟨-, endIdx, -, found, -⟩ := id formed
    exact ⟨by rw [found]; exact Option.some_ne_none _, iff_of_true formed (Or.inl rfl)⟩
  | some endIdx =>
    rw [or_iff_right (Option.some_ne_none endIdx)]
    cases begins : findBegin content with
    | none =>
      obtain ⟨found, unformed⟩ := inject_of_noBegin table begins ends
      refine ⟨found, iff_of_false unformed ?_⟩
      rintro ⟨b, -, begins', -⟩
      rw [begins] at begins'
      cases begins'
    | some beginIdx =>
      rcases Nat.lt_trichotomy beginIdx endIdx with ordered | same | behind
      · have formed := (wellFormed_iff_lt begins ends).mpr ordered
        have formed' := inject_of_region plain formed
        obtain ⟨-, e, -, found, -⟩ := id formed'
        exact ⟨by rw [found]; exact Option.some_ne_none _, iff_of_true formed' formed⟩
      · exact absurd same (findBegin_ne_findEnd begins ends)
      · obtain ⟨found, unformed⟩ := inject_of_behind table begins ends behind
        refine ⟨by rw [found]; exact Option.some_ne_none _, iff_of_false unformed ?_⟩
        rw [wellFormed_iff_lt begins ends]
        omega

end Generated

theorem bang_not_mem_enforcement : '!' ∉ enforcementBlock.flatMap String.toList := by
  rw [List.mem_flatMap, not_exists]
  simp only [not_and, enforcementBlock, List.forall_mem_cons]
  repeat' apply And.intro
  all_goals first | (rw [String.toList_ofList]; decide) | exact List.forall_mem_nil _

theorem bang_not_mem_import : '!' ∉ agentsImportBlock.flatMap String.toList := by
  rw [List.mem_flatMap, not_exists]
  simp only [not_and, agentsImportBlock, List.forall_mem_cons]
  repeat' apply And.intro
  all_goals first | (rw [String.toList_ofList]; decide) | exact List.forall_mem_nil _

theorem findEnd_block_iff (projection : Option (List Char)) :
    findEnd (generatedBlock (buildClaudeMd projection)) = none ↔
      findEnd (projection.getD []) = none ∨ WellFormed (projection.getD []) := by
  obtain ⟨ends, formed⟩ := inject_spec (projection.getD []) bang_not_mem_import
  obtain ⟨ends', formed'⟩ := behind_spec bang_not_mem_enforcement
    (injectRoutingTable (projection.getD []) (agentsImportBlock.flatMap String.toList))
  rw [buildClaudeMd, findEnd_generatedBlock (ends'.mpr ends), formed', formed]

theorem splices_iff_plain {existing generated : List Char} :
    Splices existing generated ↔
      (WellFormed existing → findEnd (generatedBlock generated) = none) := by
  by_cases formed : WellFormed existing
  · obtain ⟨before, inside, after, r⟩ := wellFormed_iff.mp formed
    rw [Splices, textToWrite_of_region r]
    dsimp only
    rw [and_iff_right (local_of_region r _), merge_again_iff r, imp_iff_right formed]
  · rw [Splices, textToWrite_of_not_wellFormed formed]
    exact iff_of_true formed fun formed' => absurd formed' formed

/-- A merge of what the build makes is local, the same when it is made again, and refused only where
there is no region, exactly where it is refused or the projection's first begin marker stands before
its first end marker or it has no end marker. -/
theorem splices_iff (existing : List Char) (projection : Option (List Char)) :
    Splices existing (buildClaudeMd projection) ↔
      (WellFormed existing →
        findEnd (projection.getD []) = none ∨ WellFormed (projection.getD [])) := by
  rw [splices_iff_plain, findEnd_block_iff]

/-- A projection with the end marker alone goes into the region whole, and once more each time. -/
theorem lone_end_grows :
    ¬Splices (routingBegin.toList ++ routingEnd.toList)
      (buildClaudeMd (some routingEnd.toList)) := by
  have region : Region [] [] [] (routingBegin.toList ++ routingEnd.toList) :=
    ⟨by simp, findBegin_eq_none List.not_mem_nil, findEnd_eq_none List.not_mem_nil,
      findEnd_eq_none List.not_mem_nil⟩
  have lone : findBegin routingEnd.toList = none := by
    rw [findBegin, routingBegin, routingEnd, String.toList_ofList, String.toList_ofList]
    rfl
  rw [splices_iff_plain, imp_iff_right region.wellFormed, findEnd_block_iff, Option.getD_some]
  rintro (noEnd | ⟨b, -, begins, -⟩)
  · have found := findEnd_self []
    rw [List.append_nil, noEnd] at found
    cases found
  · rw [lone] at begins
    cases begins

end DreamStudio.ClaudeMd
