import DreamStudio.Settings.Views

namespace DreamStudio.Settings

open Library

structure WellFormedSection (sec : Fields) : Prop where
  unique : (Dict.keys sec).Nodup
  entries : ∀ event value, Dict.get sec event = some value →
    ∃ entries, value = .arr entries ∧ ∀ entry ∈ entries, WellFormed entry

/-- A settings.json whose hooks section, if there is one, is well formed. -/
structure WellFormedSettings (settings : Fields) : Prop where
  unique : (Dict.keys settings).Nodup
  hooks : ∀ value, Dict.get settings "hooks" = some value → ∃ sec, value = .obj sec
  sec : WellFormedSection (sectionOf settings)

def viewsAt (settings : Fields) (event : String) : List View :=
  (entriesAt (sectionOf settings) event).map viewOf

section Sections

variable {sec sec' : Fields} {event : String}

theorem WellFormedSection.at (wf : WellFormedSection sec) (event : String) :
    ∀ entry ∈ entriesAt sec event, WellFormed entry := by
  unfold entriesAt
  split
  · next entries has =>
    obtain ⟨entries', same, wf⟩ := wf.entries event _ has
    cases same
    exact wf
  · nofun

theorem WellFormedSection.get_eq (wf : WellFormedSection sec) (there : event ∈ Dict.keys sec) :
    Dict.get sec event = some (.arr (entriesAt sec event)) := by
  cases has : Dict.get sec event with
  | none => exact absurd there (Dict.get_eq_none_iff.mp has)
  | some value =>
    obtain ⟨entries, rfl, -⟩ := wf.entries event value has
    rw [entriesAt, has]

theorem entriesAt_of_absent (absent : event ∉ Dict.keys sec) : entriesAt sec event = [] := by
  rw [entriesAt, Dict.get_eq_none_iff.mpr absent]

theorem WellFormedSection.set (wf : WellFormedSection sec) {entries : List Json}
    (here : ∀ entry ∈ entries, WellFormed entry) (event : String) :
    WellFormedSection (Dict.set sec event (.arr entries)) where
  unique := Dict.keys_set_nodup wf.unique event _
  entries other value has := by
    rw [Dict.get_set] at has
    split at has
    · cases has
      exact ⟨entries, rfl, here⟩
    · exact wf.entries other value has

theorem sectionOf_wf {settings : Fields} (unique : (Dict.keys settings).Nodup)
    (wf : WellFormedSection sec) :
    WellFormedSettings (Dict.set settings "hooks" (.obj sec)) where
  unique := Dict.keys_set_nodup unique "hooks" _
  hooks value has := by
    rw [Dict.get_set_self] at has
    exact ⟨sec, (Option.some.inj has).symm⟩
  sec := (sectionOf_set settings sec).symm ▸ wf

theorem mem_keys_iff {key : String} : key ∈ Dict.keys sec ↔ Dict.get sec key ≠ none :=
  Dict.get_eq_none_iff.not_left.symm

end Sections

section Superseded

variable {host : Host} {keep : List String} {settings sec : Fields}

variable (host keep) in
theorem filterMapM_purgeEntry_view {entries : List Json}
    (wf : ∀ entry ∈ entries, WellFormed entry) :
    ∃ kept, entries.filterMapM (purgeEntry host keep) = some kept ∧
      kept.map viewOf = (entries.map viewOf).filterMap (·.left host keep) ∧
      ∀ entry ∈ kept, WellFormed entry ∧ HasHooks entry := by
  induction entries with
  | nil => exact ⟨[], rfl, rfl, nofun⟩
  | cons entry entries ih =>
    obtain ⟨here, later⟩ := List.forall_mem_cons.mp wf
    obtain ⟨z, turn, view, stays⟩ := purgeEntry_view host keep here
    obtain ⟨kept, turns, views, stay⟩ := ih later
    rw [List.filterMapM_cons, turn, turns, List.map_cons, List.filterMap_cons, ← view]
    cases z with
    | none => exact ⟨kept, rfl, views, stay⟩
    | some entry' =>
      exact ⟨entry' :: kept, rfl, congrArg (viewOf entry' :: ·) views,
        List.forall_mem_cons.mpr ⟨stays entry' rfl, stay⟩⟩

variable (host keep) in
theorem purgeEvent_view (event : String) {entries : List Json}
    (wf : ∀ entry ∈ entries, WellFormed entry) :
    ∃ kept, purgeEvent host keep (event, .arr entries) =
      some (if kept.isEmpty then none else some (event, .arr kept)) ∧
      kept.map viewOf = (entries.map viewOf).filterMap (·.left host keep) ∧
      ∀ entry ∈ kept, WellFormed entry ∧ HasHooks entry := by
  obtain ⟨kept, turns, rest⟩ := filterMapM_purgeEntry_view host keep wf
  refine ⟨kept, ?_, rest⟩
  rw [purgeEvent, turns]
  cases kept <;> rfl

structure Purged (host : Host) (keep : List String) (sec sec' : Fields) : Prop where
  wf : WellFormedSection sec'
  views : ∀ event, (entriesAt sec' event).map viewOf =
    ((entriesAt sec event).map viewOf).filterMap (·.left host keep)
  has : ∀ event, ∀ entry ∈ entriesAt sec' event, HasHooks entry
  there : ∀ event, event ∈ Dict.keys sec' ↔ entriesAt sec' event ≠ []

variable (host keep) in
theorem filterMapM_purgeEvent_view (wf : WellFormedSection sec) :
    ∃ sec', sec.filterMapM (purgeEvent host keep) = some sec' ∧ Purged host keep sec sec' := by
  have goes : ∃ sec', sec.filterMapM (purgeEvent host keep) = some sec' := by
    refine Traverse.exists_filterMapM fun item member => ?_
    obtain ⟨event, value⟩ := item
    obtain ⟨entries, rfl, wf⟩ := wf.entries event value (Dict.get_of_mem wf.unique member)
    obtain ⟨kept, turn, -⟩ := purgeEvent_view host keep event wf
    exact ⟨_, turn⟩
  obtain ⟨sec', went⟩ := goes
  obtain ⟨sub, gets⟩ := Dict.get_filterMapM purgeEvent_keyed went wf.unique
  -- An event is gone, or stands there with what is left of its entries.
  have cases (event : String) : Dict.get sec' event = none ∧
        ((entriesAt sec event).map viewOf).filterMap (·.left host keep) = [] ∨
      ∃ kept, Dict.get sec' event = some (.arr kept) ∧ kept ≠ [] ∧
        kept.map viewOf = ((entriesAt sec event).map viewOf).filterMap (·.left host keep) ∧
        ∀ entry ∈ kept, WellFormed entry ∧ HasHooks entry := by
    rcases gets event with ⟨absent, gone⟩ | ⟨value, z, was, turn, now⟩
    · refine Or.inl ⟨gone, ?_⟩
      rw [entriesAt, absent]
      rfl
    · obtain ⟨entries, rfl, wf⟩ := wf.entries event value was
      obtain ⟨kept, turn', views, stay⟩ := purgeEvent_view host keep event wf
      rw [turn'] at turn
      cases turn
      rw [entriesAt, was]
      by_cases empty : kept = []
      · subst empty
        exact Or.inl ⟨now, views.symm⟩
      · rw [if_neg (mt List.isEmpty_iff.mp empty)] at now
        exact Or.inr ⟨kept, now, empty, views, stay⟩
  refine ⟨sec', went, ⟨wf.unique.sublist sub, fun event value has => ?_⟩, fun event =>
    ?_, fun event => ?_, fun event => ?_⟩
  · rcases cases event with ⟨gone, -⟩ | ⟨kept, now, -, -, stay⟩
    · rw [gone] at has
      cases has
    · rw [now] at has
      exact ⟨kept, (Option.some.inj has).symm, fun entry there => (stay entry there).1⟩
  · rcases cases event with ⟨gone, none⟩ | ⟨kept, now, -, views, -⟩
    · rw [entriesAt, gone, none]
      rfl
    · rw [entriesAt, now, views]
  · rcases cases event with ⟨gone, -⟩ | ⟨kept, now, -, -, stay⟩
    · rw [entriesAt, gone]
      nofun
    · rw [entriesAt, now]
      exact fun entry there => (stay entry there).2
  · rw [mem_keys_iff]
    rcases cases event with ⟨gone, -⟩ | ⟨kept, now, some, -, -⟩
    · rw [entriesAt, gone]
      exact iff_of_false (fun h => h rfl) fun h => h rfl
    · rw [entriesAt, now]
      exact iff_of_true nofun some

variable (host keep) in
theorem purgeSuperseded_view (wf : WellFormedSettings settings) :
    ∃ settings', purgeSuperseded host keep settings = some settings' ∧
      WellFormedSettings settings' ∧
      Purged host keep (sectionOf settings) (sectionOf settings') := by
  cases had : Dict.get settings "hooks" with
  | none =>
    have empty : sectionOf settings = [] := by rw [sectionOf, had]
    refine ⟨settings, by rw [purgeSuperseded, had], wf, ?_⟩
    rw [empty]
    refine ⟨⟨.nil, by intros; contradiction⟩, fun _ => rfl, fun event => ?_, fun event => ?_⟩
    · intros
      contradiction
    · exact iff_of_false List.not_mem_nil fun h => h rfl
  | some value =>
    obtain ⟨sec, rfl⟩ := wf.hooks value had
    have own : sectionOf settings = sec := by rw [sectionOf, had]
    obtain ⟨sec', went, purged⟩ := filterMapM_purgeEvent_view host keep (own ▸ wf.sec)
    refine ⟨_, by rw [purgeSuperseded, had]; simp only [went]; rfl,
      sectionOf_wf wf.unique purged.wf, ?_⟩
    rw [own, sectionOf_set]
    exact purged

end Superseded

section Merge

variable {template : List TemplateEntry} {settings sec : Fields}

theorem mergeHooks_append (entries : List Json) (xs ys : List (Option String × TemplateHook)) :
    mergeHooks entries (xs ++ ys) = (mergeHooks entries xs).bind (mergeHooks · ys) :=
  List.foldlM_append

theorem hooksOfTemplate_cons (entry : TemplateEntry) (template : List TemplateEntry)
    (event : String) :
    hooksOfTemplate (entry :: template) event = hooksOfEntry event entry ++
      hooksOfTemplate template event :=
  List.flatMap_cons

def Distinct (hooks : List (Option String × TemplateHook)) : Prop :=
  (hooks.map fun p => (p.1, p.2.command)).Nodup

structure MergedSection (hooks : String → List (Option String × TemplateHook)) (sec sec' : Fields) :
    Prop where
  wf : WellFormedSection sec'
  merged : ∀ event, mergeHooks (entriesAt sec event) (hooks event) = some (entriesAt sec' event)
  there : ∀ event, event ∈ Dict.keys sec' ↔ event ∈ Dict.keys sec ∨ hooks event ≠ []

theorem mergeEntry_view (wf : WellFormedSection sec) {entry : TemplateEntry}
    (distinct : ∀ event, Distinct (hooksOfEntry event entry)) :
    ∃ sec', mergeEntry sec entry = some sec' ∧
      MergedSection (fun event => hooksOfEntry event entry) sec sec' := by
  by_cases skipped : entry.event = "" ∨ entry.hooks.isEmpty
  · have none (event : String) : hooksOfEntry event entry = [] := by
      unfold hooksOfEntry
      split
      · next named =>
        rcases skipped with unnamed | empty
        · exact absurd (named.2.symm.trans unnamed) named.1
        · rw [List.isEmpty_iff.mp empty]
          rfl
      · rfl
    refine ⟨sec, if_pos skipped, wf, fun event => ?_, fun event => ?_⟩
    · rw [none]
      rfl
    · rw [none]
      exact (or_iff_left fun h => h rfl).symm
  · have named : hooksOfEntry entry.event entry = entry.hooks.map (entry.matcher, ·) :=
      if_pos ⟨fun h => skipped (Or.inl h), rfl⟩
    have own := distinct entry.event
    obtain ⟨entries, turn, wf', -⟩ := mergeHooks_merged (wf.at entry.event) own
    have went : entry.hooks.foldlM (mergeHook entry.matcher) (entriesAt sec entry.event) =
        some entries := by
      rw [named, mergeHooks, List.foldlM_map] at turn
      exact turn
    refine ⟨Dict.set sec entry.event (.arr entries), ?_, wf.set wf' entry.event,
      fun event => ?_, fun event => ?_⟩
    · rw [mergeEntry, if_neg skipped, went]
      rfl
    · rw [entriesAt_set]
      by_cases here : event = entry.event
      · rw [here, if_pos rfl]
        exact turn
      · rw [if_neg here, hooksOfEntry, if_neg fun h => here h.2.symm]
        rfl
    · rw [mem_keys_iff, mem_keys_iff, Dict.get_set]
      by_cases here : event = entry.event
      · rw [if_pos here, here, named]
        refine iff_of_true (by simp) (Or.inr fun none =>
          skipped (Or.inr (List.isEmpty_iff.mpr (List.map_eq_nil_iff.mp none))))
      · rw [if_neg here, hooksOfEntry, if_neg fun h => here h.2.symm]
        exact (or_iff_left fun h => h rfl).symm

theorem foldlM_mergeEntry_view (wf : WellFormedSection sec)
    (distinct : ∀ event, Distinct (hooksOfTemplate template event)) :
    ∃ sec', template.foldlM mergeEntry sec = some sec' ∧
      MergedSection (hooksOfTemplate template) sec sec' := by
  induction template generalizing sec with
  | nil => exact ⟨sec, rfl, wf, fun _ => rfl, fun _ => (or_iff_left fun h => h rfl).symm⟩
  | cons entry template ih =>
    have parts (event : String) :
        Distinct (hooksOfEntry event entry) ∧ Distinct (hooksOfTemplate template event) := by
      have both := distinct event
      rw [Distinct, hooksOfTemplate_cons, List.map_append] at both
      exact ⟨(List.nodup_append.mp both).1, (List.nodup_append.mp both).2.1⟩
    obtain ⟨next, turn, merged⟩ := mergeEntry_view wf fun event => (parts event).1
    obtain ⟨sec', turns, mergeds⟩ := ih merged.wf fun event => (parts event).2
    refine ⟨sec', by rw [List.foldlM_cons, turn]; exact turns, mergeds.wf,
      fun event => ?_, fun event => ?_⟩
    · rw [hooksOfTemplate_cons, mergeHooks_append, merged.merged event]
      exact mergeds.merged event
    · rw [mergeds.there, merged.there, hooksOfTemplate_cons, Ne, Ne, Ne, List.append_eq_nil_iff,
        not_and_or, or_assoc]

theorem mergeSettings_view (wf : WellFormedSettings settings)
    (distinct : ∀ event, Distinct (hooksOfTemplate template event)) :
    ∃ settings', mergeSettings template settings = some settings' ∧ WellFormedSettings settings' ∧
      MergedSection (hooksOfTemplate template) (sectionOf settings) (sectionOf settings') := by
  obtain ⟨sec, went, merged⟩ := foldlM_mergeEntry_view wf.sec distinct
  refine ⟨_, by rw [mergeSettings, went]; rfl, sectionOf_wf wf.unique merged.wf, ?_⟩
  rw [sectionOf_set]
  exact merged

end Merge

section Filters

variable {host : Host} {settings sec : Fields}

structure Filtered (G : List Json → List Json) (sec sec' : Fields) : Prop where
  wf : WellFormedSection sec'
  entries : ∀ event, entriesAt sec' event = G (entriesAt sec event)
  keys : Dict.keys sec' = Dict.keys sec

theorem mapM_filtered {f : String × Json → Option (String × Json)} {G : List Json → List Json}
    (keyed : ∀ item other, f item = some other → other.1 = item.1)
    (sub : ∀ entries, (G entries).Sublist entries)
    (turn : ∀ event entries, (∀ entry ∈ entries, WellFormed entry) →
      f (event, .arr entries) = some (event, .arr (G entries)))
    (wf : WellFormedSection sec) : ∃ sec', sec.mapM f = some sec' ∧ Filtered G sec sec' := by
  have goes : ∃ sec', sec.mapM f = some sec' := by
    refine Traverse.exists_mapM fun item member => ?_
    obtain ⟨event, value⟩ := item
    obtain ⟨entries, rfl, wf⟩ := wf.entries event value (Dict.get_of_mem wf.unique member)
    exact ⟨_, turn event entries wf⟩
  obtain ⟨sec', went⟩ := goes
  obtain ⟨keys, gets⟩ := Dict.get_mapM keyed went
  have now (event : String) (value : Json) (was : Dict.get sec event = some value) :
      Dict.get sec' event = some (.arr (G (entriesAt sec event))) := by
    rcases gets event with ⟨absent, -⟩ | ⟨value', other, was', went, now⟩
    · rw [was] at absent
      cases absent
    · obtain ⟨entries, rfl, wf⟩ := wf.entries event value' was'
      rw [turn event entries wf] at went
      cases went
      rw [now, entriesAt, was']
  refine ⟨sec', went, ⟨keys ▸ wf.unique, fun event value has => ?_⟩, fun event => ?_, keys⟩
  · rcases gets event with ⟨-, gone⟩ | ⟨value', other, was, -, -⟩
    · rw [has] at gone
      cases gone
    · rw [now event value' was] at has
      cases has
      exact ⟨_, rfl, fun entry there => wf.at event entry ((sub _).subset there)⟩
  · rcases gets event with ⟨absent, gone⟩ | ⟨value', other, was, -, -⟩
    · rw [entriesAt, entriesAt, absent, gone]
      exact (List.sublist_nil.mp (sub [])).symm
    · rw [entriesAt, now event value' was]

/-- What the legacy purge leaves of the entries of an event. -/
def current (entries : List Json) : List Json :=
  if (entries.map viewOf).any (·.holds stable) then entries.filter fun entry =>
    !(viewOf entry).holds legacy else entries

theorem current_sublist (entries : List Json) : (current entries).Sublist entries := by
  unfold current
  split
  · exact List.filter_sublist
  · exact .refl entries

theorem purgeLegacy_view (wf : WellFormedSettings settings) :
    ∃ settings', purgeLegacy settings = some settings' ∧
    WellFormedSettings settings' ∧ Filtered current (sectionOf settings) (sectionOf settings') := by
  have turn (event : String) (entries : List Json) (wf : ∀ entry ∈ entries, WellFormed entry) :
      purgeLegacyEvent (event, .arr entries) = some (event, .arr (current entries)) := by
    rw [purgeLegacyEvent, eventHasStable_view wf, current]
    cases (entries.map viewOf).any (·.holds stable) with
    | false => rfl
    | true =>
      have kept : entries.filterMapM purgeLegacyEntry =
          some (entries.filter fun entry => !(viewOf entry).holds legacy) := by
        rw [Traverse.filterMapM_eq_some fun entry there => purgeLegacyEntry_view (wf entry there),
          ← List.filterMap_eq_filter]
        refine congrArg some (List.filterMap_congr fun entry _ => ?_)
        by_cases old : (viewOf entry).holds legacy = true
        · simp [Option.guard, old]
        · simp [Option.guard, old]
      simp only [Option.bind_eq_bind, Option.bind_some, if_true, kept]
      rfl
  obtain ⟨sec, went, filtered⟩ := mapM_filtered purgeLegacyEvent_keyed current_sublist turn wf.sec
  refine ⟨_, by rw [purgeLegacy, went]; rfl, sectionOf_wf wf.unique filtered.wf, ?_⟩
  rw [sectionOf_set]
  exact filtered

variable (host) in
theorem dedupHooks_view (wf : WellFormedSettings settings) :
    ∃ settings', dedupHooks host settings = some settings' ∧
    WellFormedSettings settings' ∧
      Filtered (firsts (entryKey host) []) (sectionOf settings) (sectionOf settings') := by
  have turn (event : String) (entries : List Json) (wf : ∀ entry ∈ entries, WellFormed entry) :
      dedupEvent host (event, .arr entries) =
        some (event, .arr (firsts (entryKey host) [] entries)) := by
    rw [dedupEvent, iterate]
    simp only [Option.bind_eq_bind, Option.bind_some, dedupEntries_view wf]
    rfl
  obtain ⟨sec, went, filtered⟩ := mapM_filtered dedupEvent_keyed (firsts_sublist _ []) turn wf.sec
  refine ⟨_, by rw [dedupHooks, went]; rfl, sectionOf_wf wf.unique filtered.wf, ?_⟩
  rw [sectionOf_set]
  exact filtered

def unread (event : String) (entries : List Json) : List Json :=
  if event = "PostToolUse" then entries.filter fun entry => (viewOf entry).matcher ≠
    some "Read" else entries

theorem unread_sublist (event : String) (entries : List Json) :
    (unread event entries).Sublist entries := by
  unfold unread
  split
  · exact List.filter_sublist
  · exact .refl entries

theorem purgeRead_view (wf : WellFormedSettings settings) :
    ∃ settings', purgeRead settings = some settings' ∧
    WellFormedSettings settings' ∧ Dict.keys (sectionOf settings') =
      Dict.keys (sectionOf settings) ∧
      ∀ event, entriesAt (sectionOf settings') event =
        unread event (entriesAt (sectionOf settings) event) := by
  have stays (absent : "PostToolUse" ∉ Dict.keys (sectionOf settings)) (event : String) :
      entriesAt (sectionOf settings) event =
        unread event (entriesAt (sectionOf settings) event) := by
    unfold unread
    split
    · next here =>
      rw [here, entriesAt_of_absent absent]
      rfl
    · rfl
  by_cases there : "PostToolUse" ∈ Dict.keys (sectionOf settings)
  · have has := wf.sec.get_eq there
    have wf' := wf.sec.at "PostToolUse"
    generalize entriesAt (sectionOf settings) "PostToolUse" = entries at has wf'
    have kept : entries.filterMapM keepsMatcher =
        some (entries.filter fun entry => (viewOf entry).matcher ≠ some "Read") := by
      rw [Traverse.filterMapM_eq_some fun entry there => keepsMatcher_view (wf' entry there),
        ← List.filterMap_eq_filter]
      refine congrArg some (List.filterMap_congr fun entry _ => ?_)
      by_cases read : (viewOf entry).matcher = some "Read"
      · simp [Option.guard, read]
      · simp [Option.guard, read]
    refine ⟨_, by rw [purgeRead, has]; simp only [kept]; rfl,
      sectionOf_wf wf.unique (wf.sec.set (fun entry member =>
        wf' entry (List.mem_of_mem_filter member)) "PostToolUse"), ?_, fun event => ?_⟩
    · rw [sectionOf_set, Dict.keys_set, if_pos there]
    · rw [sectionOf_set, entriesAt_set, unread]
      split
      · next here =>
        rw [here, entriesAt, has]
      · rfl
  · refine ⟨settings, ?_, wf, rfl, stays there⟩
    rw [purgeRead, Dict.get_eq_none_iff.mpr there]

end Filters

end DreamStudio.Settings
