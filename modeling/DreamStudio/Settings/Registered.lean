import DreamStudio.Settings.Kept
import DreamStudio.Settings.Planned
import Mathlib.Data.List.Flatten
import Mathlib.Data.List.Perm.Subperm

namespace DreamStudio.Settings

open Library

section Event

variable (host : Host) (template : List TemplateEntry) (event : String) (vs : List View)

def commandsOf (template : List TemplateEntry) : List String :=
  template.flatMap fun entry => entry.hooks.map (·.command)

def leftAt : List View := vs.filterMap (·.left host (commandsOf template))

def replaced : Bool :=
  (leftAt host template vs).any (·.holds stable) || (triplesAt template event).any (stable ·.2)

def lasting : List View :=
  if replaced host template event vs then (leftAt host template vs).filter (!·.holds legacy) else
    leftAt host template vs

def unreadViews (vs : List View) : List View :=
  if event = "PostToolUse" then vs.filter (·.matcher ≠ some "Read") else vs

/-- The entries that stay: no repetition of an earlier one, and none of PostToolUse on Read. -/
def staying : List View :=
  unreadViews event (firsts (View.key host) [] (lasting host template event vs))

local instance triples_lawful : LawfulBEq (Option String × String) := inferInstance

/-- What the template adds. -/
def fresh : List (Option String × String) :=
  (triplesAt template event).filter (· ∉ occurrences (leftAt host template vs))

/-- The entries of an event are such that an install leaves each triple of the template there
once. -/
structure Sound : Prop where
  /-- What stays registers no command of Dream Studio that the template does not have there. -/
  placed : ∀ t ∈ occurrences (staying host template event vs), host.isDsHookCommand t.2 = true →
    t ∈ triplesAt template event
  once : ∀ t ∈ triplesAt template event, (occurrences (staying host template event vs)).count t ≤ 1
  /-- No triple stands only in entries that go. -/
  lasts : ∀ t ∈ triplesAt template event, t ∈ occurrences (leftAt host template vs) →
    t ∈ occurrences (staying host template event vs)
  modern : replaced host template event vs = true →
    ∀ t ∈ fresh host template event vs, legacy t.2 = false
  /-- What is added does not look, slashes and an empty matcher aside, like another entry of Dream
  Studio's. -/
  apart : (((fresh host template event vs).map single).filterMap (View.key host)).Nodup ∧
    ∀ k ∈ ((fresh host template event vs).map single).filterMap (View.key host),
      k ∉ (lasting host template event vs).filterMap (View.key host)
  /-- The event does not lose its last entry. -/
  stays : leftAt host template vs ≠ [] → triplesAt template event ≠ [] ∨
    staying host template event vs ≠ []

def added : List View :=
  firsts (View.key host) ((lasting host template event vs).filterMap (View.key host))
    (if replaced host template event vs then ((fresh host template event vs).map single).filter
      (!·.holds legacy)
    else (fresh host template event vs).map single)

def plannedViews : List View := staying host template event vs ++ added host template event vs

def OnceAt : Prop :=
  (∀ t ∈ triplesAt template event, (occurrences vs).count t = 1) ∧
    ∀ t ∈ occurrences vs, host.isDsHookCommand t.2 = true → t ∈ triplesAt template event

end Event

section Views

variable {host : Host} {template : List TemplateEntry} {event : String} {vs ws : List View}

theorem occurrences_sublist (sub : vs.Sublist ws) : (occurrences vs).Sublist (occurrences ws) :=
  sub.flatMap _

theorem unreadViews_sublist (event : String) (vs : List View) :
    (unreadViews event vs).Sublist vs := by
  unfold unreadViews
  split
  · exact List.filter_sublist
  · exact .refl vs

theorem lasting_sublist : (lasting host template event vs).Sublist (leftAt host template vs) := by
  unfold lasting
  split
  · exact List.filter_sublist
  · exact .refl _

theorem staying_sublist : (staying host template event vs).Sublist (leftAt host template vs) :=
  (unreadViews_sublist event _).trans ((firsts_sublist _ _ _).trans lasting_sublist)

variable (host template event vs) in
theorem added_sublist :
    (added host template event vs).Sublist ((fresh host template event vs).map single) := by
  refine (firsts_sublist _ _ _).trans ?_
  split
  · exact List.filter_sublist
  · exact .refl _

theorem mem_fresh {t : Option String × String} : t ∈ fresh host template event vs ↔
    t ∈ triplesAt template event ∧ t ∉ occurrences (leftAt host template vs) := by
  unfold fresh
  rw [List.mem_filter, decide_eq_true_iff]

theorem occurrences_added_sublist :
    (occurrences (added host template event vs)).Sublist (fresh host template event vs) := by
  have sub := occurrences_sublist (added_sublist host template event vs)
  rwa [occurrences_singles] at sub

theorem added_eq_iff : added host template event vs = (fresh host template event vs).map single ↔
    (replaced host template event vs = true →
      ∀ t ∈ fresh host template event vs, legacy t.2 = false) ∧
      (((fresh host template event vs).map single).filterMap (View.key host)).Nodup ∧
        ∀ k ∈ ((fresh host template event vs).map single).filterMap (View.key host),
          k ∉ (lasting host template event vs).filterMap (View.key host) := by
  have modern_iff : (∀ t ∈ fresh host template event vs, legacy t.2 = false) ↔
      ((fresh host template event vs).map single).filter (!·.holds legacy) =
        (fresh host template event vs).map single := by
    rw [List.filter_eq_self, List.forall_mem_map]
    simp [View.holds, single]
  rw [← firsts_eq_self_iff]
  unfold added
  by_cases all : replaced host template event vs = true
  · rw [if_pos all]
    constructor
    · intro same
      have long :=
        (firsts_sublist (View.key host) ((lasting host template event vs).filterMap (View.key host))
          (((fresh host template event vs).map single).filter (!·.holds legacy))).length_le
      rw [same] at long
      have whole := List.filter_sublist.eq_of_length_le long
      rw [whole] at same
      exact ⟨fun _ => modern_iff.mpr whole, same⟩
    · rintro ⟨modern, apart⟩
      rw [modern_iff.mp (modern all)]
      exact apart
  · rw [if_neg all]
    exact ⟨fun same => ⟨fun h => absurd h all, same⟩, fun h => h.2⟩

theorem onceAt_planned_iff (distinct : (triplesAt template event).Nodup) :
    OnceAt host template event (plannedViews host template event vs) ↔
      (∀ t ∈ occurrences (staying host template event vs),
        host.isDsHookCommand t.2 = true → t ∈ triplesAt template event) ∧
      (∀ t ∈ triplesAt template event, (occurrences (staying host template event vs)).count t ≤ 1) ∧
      (∀ t ∈ triplesAt template event, t ∈ occurrences (leftAt host template vs) →
        t ∈ occurrences (staying host template event vs)) ∧
      added host template event vs = (fresh host template event vs).map single := by
  have freshNodup : (fresh host template event vs).Nodup := distinct.filter _
  have old {t : Option String × String} (h : t ∈ occurrences (staying host template event vs)) :
      t ∈ occurrences (leftAt host template vs) := (occurrences_sublist staying_sublist).subset h
  have new {t : Option String × String} (h : t ∈ occurrences (added host template event vs)) :
      t ∈ triplesAt template event ∧ t ∉ occurrences (leftAt host template vs) :=
    mem_fresh.mp (occurrences_added_sublist.subset h)
  unfold OnceAt plannedViews
  rw [occurrences_append]
  simp only [List.count_append, List.mem_append]
  constructor
  · rintro ⟨once, only⟩
    refine ⟨fun t h => only t (Or.inl h), fun t h => (Nat.le_add_right _ _).trans (once t h).le,
      fun t h left => ?_, ?_⟩
    · have none : (occurrences (added host template event vs)).count t = 0 :=
        List.count_eq_zero.mpr fun h => (new h).2 left
      have one := once t h
      rw [none, Nat.add_zero] at one
      exact List.count_pos_iff.mp (one ▸ Nat.one_pos)
    · -- Every triple that is new stands in what is added, a sublist of the new ones.
      obtain ⟨ts, sub, same⟩ := List.sublist_map_iff.mp (added_sublist host template event vs)
      have stand : fresh host template event vs ⊆ ts := by
        intro t h
        obtain ⟨ours, notLeft⟩ := mem_fresh.mp h
        have none : (occurrences (staying host template event vs)).count t = 0 :=
          List.count_eq_zero.mpr fun h => notLeft (old h)
        have one := once t ours
        rw [none, Nat.zero_add, same, occurrences_singles] at one
        exact List.count_pos_iff.mp (one ▸ Nat.one_pos)
      rw [same, sub.eq_of_length_le (List.subperm_of_subset freshNodup stand).length_le]
  · rintro ⟨placed, once, lasts, same⟩
    rw [same, occurrences_singles]
    refine ⟨fun t h => ?_, fun t h owned => h.elim (fun h => placed t h owned) fun h =>
      (mem_fresh.mp h).1⟩
    by_cases left : t ∈ occurrences (leftAt host template vs)
    · rw [List.count_eq_zero.mpr fun h => (mem_fresh.mp h).2 left, Nat.add_zero]
      exact Nat.le_antisymm (once t h) (List.count_pos_iff.mpr (lasts t h left))
    · rw [List.count_eq_zero.mpr fun h => left (old h), Nat.zero_add]
      exact List.count_eq_one_of_mem freshNodup (mem_fresh.mpr ⟨h, left⟩)

def currentViews (vs : List View) : List View :=
  if vs.any (·.holds stable) then vs.filter (!·.holds legacy) else vs

theorem merged_stable : (leftAt host template vs ++ (fresh host template event vs).map single).any
    (·.holds stable) =
    replaced host template event vs := by
  rw [Bool.eq_iff_iff, List.any_append, List.any_map, replaced, Bool.or_eq_true, Bool.or_eq_true]
  constructor
  · rintro (left | new)
    · exact Or.inl left
    · obtain ⟨t, there, st⟩ := List.any_eq_true.mp new
      refine Or.inr (List.any_eq_true.mpr ⟨t, (mem_fresh.mp there).1, ?_⟩)
      simpa [View.holds, single] using st
  · rintro (left | ours)
    · exact Or.inl left
    · obtain ⟨t, there, st⟩ := List.any_eq_true.mp ours
      by_cases left : t ∈ occurrences (leftAt host template vs)
      · obtain ⟨v, member, -, command⟩ := mem_occurrences.mp left
        exact Or.inl (List.any_eq_true.mpr ⟨v, member, List.any_eq_true.mpr ⟨_, command, st⟩⟩)
      · refine Or.inr (List.any_eq_true.mpr ⟨t, mem_fresh.mpr ⟨there, left⟩, ?_⟩)
        simpa [View.holds, single] using st

theorem plannedViews_eq (noRead : ∀ t ∈ triplesAt template "PostToolUse", t.1 ≠ some "Read") :
    unreadViews event (firsts (View.key host) []
      (currentViews (leftAt host template vs ++ (fresh host template event vs).map single))) =
      plannedViews host template event vs := by
  have parts : currentViews (leftAt host template vs ++ (fresh host template event vs).map single) =
      lasting host template event vs ++
        if replaced host template event vs then ((fresh host template event vs).map single).filter
          (!·.holds legacy)
        else (fresh host template event vs).map single := by
    rw [currentViews, merged_stable, lasting]
    split
    · rw [List.filter_append]
    · rfl
  have apart : unreadViews event (added host template event vs) = added host template event vs := by
    unfold unreadViews
    split
    · next here =>
      subst here
      refine List.filter_eq_self.mpr fun v member => ?_
      obtain ⟨t, there, rfl⟩ := List.mem_map.mp ((added_sublist _ _ _ _).subset member)
      exact decide_eq_true (noRead t (mem_fresh.mp there).1)
    · rfl
  have append (xs ys : List View) :
      unreadViews event (xs ++ ys) = unreadViews event xs ++ unreadViews event ys := by
    unfold unreadViews
    split
    · exact List.filter_append ..
    · rfl
  rw [parts, firsts_append, List.append_nil, append]
  exact congrArg (staying host template event vs ++ ·) apart

end Views

section Documents

variable {host : Host} {template : List TemplateEntry} {settings d : Fields}

structure Planned (host : Host) (template : List TemplateEntry) (settings d : Fields) : Prop where
  wf : WellFormedSettings d
  hooks : Dict.get d "hooks" = some (.obj (sectionOf d))
  statusLine : Dict.get d "statusLine" = none
  views : ∀ event, viewsAt d event = plannedViews host template event (viewsAt settings event)
  there : ∀ event, event ∈ Dict.keys (sectionOf d) ↔
    leftAt host template (viewsAt settings event) ≠ [] ∨ triplesAt template event ≠ []
  has : ∀ event, ∀ entry ∈ entriesAt (sectionOf d) event, HasHooks entry
  timed : ∀ event, ∀ p ∈ hooksOfTemplate template event, (p.2.fields.get "timeout").isSome = true →
    Timed (p.1, p.2.command) (entriesAt (sectionOf d) event)
  settled : ∀ event, ∃ entries, entriesAt (sectionOf d) event =
    unread event (firsts (entryKey host) [] (current entries))

theorem map_current (entries : List Json) :
    (current entries).map viewOf = currentViews (entries.map viewOf) := by
  unfold current currentViews
  split
  · rw [List.filter_map]
    rfl
  · rfl

theorem map_unread (event : String) (entries : List Json) :
    (unread event entries).map viewOf = unreadViews event (entries.map viewOf) := by
  unfold unread unreadViews
  split
  · rw [List.filter_map]
    rfl
  · rfl

theorem hooks_of_bind_set {settings settings' : Fields} {computed : Option Fields}
    (went : (do return Dict.set settings "hooks" (.obj (← computed))) = some settings') :
    Dict.get settings' "hooks" = some (.obj (sectionOf settings')) := by
  obtain ⟨sec, -, same⟩ := Option.bind_eq_some_iff.mp went
  cases same
  rw [sectionOf_set, Dict.get_set_self]

theorem hooks_of_purgeRead {settings settings' : Fields}
    (had : Dict.get settings "hooks" = some (.obj (sectionOf settings)))
    (went : purgeRead settings = some settings') :
    Dict.get settings' "hooks" = some (.obj (sectionOf settings')) := by
  unfold purgeRead at went
  split at went
  · obtain ⟨kept, -, same⟩ := Option.bind_eq_some_iff.mp went
    cases same
    rw [sectionOf_set, Dict.get_set_self]
  · cases went
    exact had

theorem WellFormedSettings.pop (wf : WellFormedSettings settings) :
    WellFormedSettings (pop settings "statusLine") where
  unique := wf.unique.sublist (List.filter_sublist.map _)
  hooks value has := by
    unfold Settings.pop at has
    rw [Dict.get_filter_key, if_neg (by decide)] at has
    exact wf.hooks value has
  sec := (sectionOf_pop settings).symm ▸ wf.sec

variable (host) in
theorem plan_planned (wf : WellFormedSettings settings)
    (distinct : ∀ event, (triplesAt template event).Nodup)
    (noRead : ∀ t ∈ triplesAt template "PostToolUse", t.1 ≠ some "Read") :
    ∃ d, plan host .user template settings = some d ∧ Planned host template settings d := by
  obtain ⟨purged, first, wf, purge⟩ := purgeSuperseded_view host (commandsOf template) wf
  obtain ⟨merged, second, wf, merge⟩ := mergeSettings_view wf distinct
  obtain ⟨modern, third, wf, moderns⟩ := purgeLegacy_view wf
  obtain ⟨once, fourth, wf, onces⟩ := dedupHooks_view host wf
  obtain ⟨last, fifth, wf, keys, lasts⟩ := purgeRead_view wf
  have came (event : String) : entriesAt (sectionOf last) event =
      unread event (firsts (entryKey host) [] (current (entriesAt (sectionOf merged) event))) := by
    rw [lasts, onces.entries, moderns.entries]
  have sub (event : String) :
      (entriesAt (sectionOf last) event).Sublist (entriesAt (sectionOf merged) event) := by
    rw [came]
    exact (unread_sublist event _).trans ((firsts_sublist _ _ _).trans (current_sublist _))
  have step (event : String) := @mergeHooks_merged (entriesAt (sectionOf purged) event) _
    (purge.wf.at event) (distinct event)
  refine ⟨pop last "statusLine", ?_, ?_⟩
  · simp only [plan, Option.bind_eq_bind]
    change (purgeSuperseded host (commandsOf template) settings).bind _ = _
    rw [first, Option.bind_some, second, Option.bind_some, third, Option.bind_some, fourth,
      Option.bind_some, fifth]
    rfl
  · have hooks := hooks_of_purgeRead (hooks_of_bind_set fourth) fifth
    refine ⟨wf.pop, ?_, ?_, fun event => ?_, fun event => ?_, fun event => ?_, fun event =>
      ?_, fun event => ?_⟩
    · rw [sectionOf_pop, pop, Dict.get_filter_key, if_neg (by decide)]
      exact hooks
    · rw [pop, Dict.get_filter_key, if_pos rfl]
    · obtain ⟨entries, turn, -, -, views, -⟩ := step event
      rw [merge.merged event] at turn
      cases turn
      change _ = (triplesAt template event).foldl register _ at views
      rw [viewsAt, sectionOf_pop, came, map_unread, ← plannedViews_eq noRead]
      change unreadViews event ((firsts (fun entry => (viewOf entry).key host) [] _).map viewOf) = _
      rw [map_firsts, map_current, views, foldl_register (distinct event), purge.views event]
      rfl
    · rw [sectionOf_pop, keys, onces.keys, moderns.keys, merge.there, purge.there]
      refine or_congr ?_ (not_congr List.map_eq_nil_iff.symm)
      rw [leftAt, viewsAt, ← purge.views event]
      exact not_congr List.map_eq_nil_iff.symm
    · obtain ⟨entries, turn, -, has, -⟩ := step event
      rw [merge.merged event] at turn
      cases turn
      rw [sectionOf_pop]
      exact fun entry there => has (purge.has event) entry ((sub event).subset there)
    · obtain ⟨entries, turn, -, -, -, timed, -⟩ := step event
      rw [merge.merged event] at turn
      cases turn
      rw [sectionOf_pop]
      exact fun p there due entry member => timed p there due entry ((sub event).subset member)
    · rw [sectionOf_pop]
      exact ⟨_, came event⟩

section Again

theorem Planned.passes (planned : Planned host template settings d) (event : String) :
    current (entriesAt (sectionOf d) event) = entriesAt (sectionOf d) event ∧
    firsts (entryKey host) [] (entriesAt (sectionOf d) event) = entriesAt (sectionOf d) event ∧
    unread event (entriesAt (sectionOf d) event) = entriesAt (sectionOf d) event := by
  obtain ⟨entries, came⟩ := planned.settled event
  have sub :
      (entriesAt (sectionOf d) event).Sublist (firsts (entryKey host) [] (current entries)) :=
    came ▸ unread_sublist event _
  refine ⟨?_, firsts_of_sublist sub, ?_⟩
  · have sub' := sub.trans (firsts_sublist _ _ _)
    rw [current]
    split
    · next st =>
      refine List.filter_eq_self.mpr fun entry there => ?_
      have member := sub'.subset there
      unfold current at member
      split at member
      · exact (List.mem_filter.mp member).2
      · next quiet =>
        refine absurd ?_ quiet
        obtain ⟨v, there, st⟩ := List.any_eq_true.mp st
        exact List.any_eq_true.mpr
          ⟨v, ((sub'.trans (current_sublist entries)).map viewOf).subset there, st⟩
    · rfl
  · rw [came, unread]
    split
    · next here =>
      rw [unread, if_pos here, List.filter_filter]
      simp
    · next other => rw [unread, if_neg other]

theorem purgeEntry_settled {entry : Json} (wf : WellFormed entry) (has : HasHooks entry)
    (ours : ∀ c ∈ (viewOf entry).commands, outdated host (commandsOf template) c = false) :
    purgeEntry host (commandsOf template) entry = some (some entry) := by
  obtain ⟨fields, value, rfl, had⟩ := has
  cases wf with
  | @entry _ hooks unique holds texts texts' =>
    have value_eq : value = .arr (hooks.map .obj) := by
      rwa [lookupD_eq, had, Option.getD_some] at holds
    subst value_eq
    have commands : (viewOf (.obj fields)).commands = hooks.map textOf := by
      rw [viewOf, dictHooks_eq holds]
    rw [commands, List.forall_mem_map] at ours
    have all : hooks.filter (fun h => !outdated host (commandsOf template) (textOf h)) = hooks :=
      List.filter_eq_self.mpr fun h there => by rw [ours h there]; rfl
    simp only [purgeEntry, hooksOf_eq holds, lookup_hooks_truthy holds,
      filterMapM_superseded texts, all,
      Option.bind_eq_bind, Option.bind_some, Bool.not_not, List.isEmpty_map,
        Dict.set_of_get unique had]
    cases hooks <;> rfl

theorem mem_commandsOf {event : String} {t : Option String × String}
    (h : t ∈ triplesAt template event) :
    t.2 ∈ commandsOf template := by
  obtain ⟨p, there, rfl⟩ := List.mem_map.mp h
  obtain ⟨entry, member, there⟩ := List.mem_flatMap.mp there
  unfold hooksOfEntry at there
  split at there
  · obtain ⟨hook, hooked, rfl⟩ := List.mem_map.mp there
    exact List.mem_flatMap.mpr ⟨entry, member, List.mem_map_of_mem hooked⟩
  · cases there

theorem OnceAt.ne_nil {event : String} {vs : List View} (once : OnceAt host template event vs)
    (some : triplesAt template event ≠ []) : vs ≠ [] := by
  obtain ⟨t, member⟩ := List.exists_mem_of_ne_nil _ some
  rintro rfl
  exact nomatch once.1 t member

theorem not_outdated_of_onceAt {event : String} {vs : List View}
    (once : OnceAt host template event vs) :
    ∀ v ∈ vs, ∀ c ∈ v.commands, outdated host (commandsOf template) c = false := by
  intro v member c command
  rw [Bool.eq_false_iff]
  intro old
  simp only [outdated, Bool.and_eq_true, decide_eq_true_eq] at old
  cases c with
  | none => exact old.1.1 rfl
  | some c =>
    have there : (v.matcher, c) ∈ occurrences vs := mem_occurrences.mpr ⟨v, member, rfl, command⟩
    exact old.1.2 (mem_commandsOf (once.2 _ there old.2))

theorem purgeSuperseded_settled (planned : Planned host template settings d)
    (once : ∀ event, OnceAt host template event (viewsAt d event))
    (some_left : ∀ event ∈ Dict.keys (sectionOf d), viewsAt d event ≠ []) :
    purgeSuperseded host (commandsOf template) d = some d := by
  have same : (sectionOf d).filterMapM (purgeEvent host (commandsOf template)) =
      some (sectionOf d) := by
    refine (Traverse.filterMapM_eq_some (g := some) fun item member => ?_).trans
      (by rw [List.filterMap_some])
    obtain ⟨event, value⟩ := item
    have here : event ∈ Dict.keys (sectionOf d) := List.mem_map_of_mem member
    have has := Dict.get_of_mem planned.wf.sec.unique member
    rw [planned.wf.sec.get_eq here] at has
    cases has
    have each : (entriesAt (sectionOf d) event).filterMapM (purgeEntry host (commandsOf template)) =
        some (entriesAt (sectionOf d) event) := by
      refine (Traverse.filterMapM_eq_some (g := some) fun entry there => ?_).trans
        (by rw [List.filterMap_some])
      exact purgeEntry_settled (planned.wf.sec.at event entry there) (planned.has event entry there)
        (not_outdated_of_onceAt (once event) _ (List.mem_map_of_mem there))
    have nonempty : entriesAt (sectionOf d) event ≠ [] :=
      fun none => some_left event here (by rw [viewsAt, none]; rfl)
    simp only [purgeEvent, each, Option.bind_eq_bind, Option.bind_some]
    exact if_neg (mt List.isEmpty_iff.mp nonempty)
  rw [purgeSuperseded, planned.hooks]
  simp only [same]
  exact congrArg some (Dict.set_of_get planned.wf.unique planned.hooks)

theorem mergeSettings_settled (planned : Planned host template settings d)
    (once : ∀ event, OnceAt host template event (viewsAt d event)) :
    mergeSettings template d = some d := by
  have turn : ∀ entry ∈ template, mergeEntry (sectionOf d) entry = some (sectionOf d) := by
    intro entry member
    unfold mergeEntry
    split
    · rfl
    · next named =>
      rw [not_or] at named
      have ours (h : TemplateHook) (hooked : h ∈ entry.hooks) :
          (entry.matcher, h) ∈ hooksOfTemplate template entry.event := by
        refine List.mem_flatMap.mpr ⟨entry, member, ?_⟩
        rw [hooksOfEntry, if_pos ⟨named.1, rfl⟩]
        exact List.mem_map_of_mem hooked
      have each (h : TemplateHook) (hooked : h ∈ entry.hooks) :
          mergeHook entry.matcher (entriesAt (sectionOf d) entry.event) h =
            some (entriesAt (sectionOf d) entry.event) := by
        refine mergeHook_settled (planned.wf.sec.at _) ?_
          (planned.timed entry.event _ (ours h hooked))
        have one := (once entry.event).1 _ (List.mem_map_of_mem (ours h hooked))
        exact List.count_pos_iff.mp (one ▸ Nat.one_pos)
      have all :
          entry.hooks.foldlM (mergeHook entry.matcher) (entriesAt (sectionOf d) entry.event) =
          some (entriesAt (sectionOf d) entry.event) := Traverse.foldlM_eq_some each
      have there : entry.event ∈ Dict.keys (sectionOf d) := by
        refine (planned.there entry.event).mpr (Or.inr fun none => ?_)
        obtain ⟨h, hooked⟩ := List.exists_mem_of_ne_nil _ (mt List.isEmpty_iff.mpr named.2)
        have stands := List.mem_map_of_mem (f := fun p => (p.1, p.2.command)) (ours h hooked)
        rw [triplesAt] at none
        rw [none] at stands
        cases stands
      rw [all]
      exact congrArg _ (Dict.set_of_get planned.wf.sec.unique (planned.wf.sec.get_eq there))
  rw [mergeSettings, Traverse.foldlM_eq_some turn]
  exact congrArg some (Dict.set_of_get planned.wf.unique planned.hooks)

theorem filtered_settled {G : List Json → List Json} {d' : Fields}
    (planned : Planned host template settings d)
    (same : ∀ event, G (entriesAt (sectionOf d) event) = entriesAt (sectionOf d) event)
    (filtered : Filtered G (sectionOf d) (sectionOf d')) {computed : Option Fields}
    (went : (do return Dict.set d "hooks" (.obj (← computed))) = some d') : d' = d := by
  have sec : sectionOf d' = sectionOf d := by
    refine Dict.ext_of_get filtered.wf.unique planned.wf.sec.unique filtered.keys fun event => ?_
    by_cases there : event ∈ Dict.keys (sectionOf d)
    · rw [filtered.wf.get_eq (filtered.keys ▸ there), planned.wf.sec.get_eq there,
        filtered.entries, same]
    · rw [Dict.get_eq_none_iff.mpr there, Dict.get_eq_none_iff.mpr (filtered.keys ▸ there)]
  obtain ⟨sec', -, now⟩ := Option.bind_eq_some_iff.mp went
  cases now
  rw [sectionOf_set] at sec
  rw [sec, Dict.set_of_get planned.wf.unique planned.hooks]

theorem purgeRead_settled (planned : Planned host template settings d) : purgeRead d = some d := by
  unfold purgeRead
  split
  · next entries has =>
    have own : entriesAt (sectionOf d) "PostToolUse" = entries := by rw [entriesAt, has]
    have kept : entries.filterMapM keepsMatcher = some entries := by
      refine (Traverse.filterMapM_eq_some (g := some) fun entry there => ?_).trans
        (by rw [List.filterMap_some])
      have wf := planned.wf.sec.at "PostToolUse" entry (own ▸ there)
      have passes := (planned.passes "PostToolUse").2.2
      rw [unread, if_pos rfl, List.filter_eq_self] at passes
      rw [keepsMatcher_view wf, if_neg (of_decide_eq_true (passes entry (own ▸ there)))]
    simp only [kept, Option.bind_eq_bind, Option.bind_some]
    rw [Dict.set_of_get planned.wf.sec.unique has]
    exact congrArg some (Dict.set_of_get planned.wf.unique planned.hooks)
  · rfl

theorem plan_again (planned : Planned host template settings d)
    (once : ∀ event, OnceAt host template event (viewsAt d event))
    (some_left : ∀ event ∈ Dict.keys (sectionOf d), viewsAt d event ≠ []) :
    plan host .user template d = some d := by
  obtain ⟨modern, third, -, moderns⟩ := purgeLegacy_view planned.wf
  obtain ⟨unique, fourth, -, uniques⟩ := dedupHooks_view host planned.wf
  have third' := filtered_settled planned (fun event => (planned.passes event).1) moderns third
  have fourth' := filtered_settled planned (fun event => (planned.passes event).2.1) uniques fourth
  subst third' fourth'
  simp only [plan, Option.bind_eq_bind]
  change (purgeSuperseded host (commandsOf template) _).bind _ = _
  rw [purgeSuperseded_settled planned once some_left, Option.bind_some,
    mergeSettings_settled planned once,
    Option.bind_some, third, Option.bind_some, fourth, Option.bind_some, purgeRead_settled planned]
  refine congrArg some (List.filter_eq_self.mpr fun item member => decide_eq_true fun same => ?_)
  have absent := Dict.get_eq_none_iff.mp planned.statusLine
  exact absent (same ▸ List.mem_map_of_mem member)

end Again

/-- Each triple of the template is registered once, nothing else of Dream Studio is, and a second
plan changes nothing. -/
structure RegisteredOnce (host : Host) (template : List TemplateEntry) (d : Fields) : Prop where
  once : ∀ event, OnceAt host template event (viewsAt d event)
  again : plan host .user template d = some d

theorem registeredOnce_iff_of_planned (planned : Planned host template settings d)
    (distinct : ∀ event, (triplesAt template event).Nodup)
    (noRead : ∀ t ∈ triplesAt template "PostToolUse", t.1 ≠ some "Read") :
    RegisteredOnce host template d ↔ (∀ event, OnceAt host template event (viewsAt d event)) ∧
      ∀ event ∈ Dict.keys (sectionOf d), viewsAt d event ≠ [] := by
  constructor
  · rintro ⟨once, again⟩
    refine ⟨once, fun event there none => ?_⟩
    obtain ⟨d', again', planned'⟩ := plan_planned host planned.wf distinct noRead
    rw [again] at again'
    cases again'
    rcases (planned'.there event).mp there with left | ours
    · rw [none] at left
      exact left rfl
    · exact (once event).ne_nil ours none
  · exact fun ⟨once, some_left⟩ => ⟨once, plan_again planned once some_left⟩

/-- An install registers its hooks exactly once, and is done, exactly if every event is sound. -/
theorem registeredOnce_iff (host : Host) (template : List TemplateEntry) (settings : Fields)
    (wf : WellFormedSettings settings) (distinct : ∀ event, (triplesAt template event).Nodup)
    (noRead : ∀ t ∈ triplesAt template "PostToolUse", t.1 ≠ some "Read") :
    ∃ d, plan host .user template settings = some d ∧
      (RegisteredOnce host template d ↔
        ∀ event, Sound host template event (viewsAt settings event)) := by
  obtain ⟨d, went, planned⟩ := plan_planned host wf distinct noRead
  refine ⟨d, went, (registeredOnce_iff_of_planned planned distinct noRead).trans ?_⟩
  constructor
  · rintro ⟨once, some_left⟩ event
    have here := once event
    rw [planned.views event] at here
    obtain ⟨placed, ones, lasts, all⟩ := (onceAt_planned_iff (distinct event)).mp here
    obtain ⟨modern, apart⟩ := added_eq_iff.mp all
    refine ⟨placed, ones, lasts, modern, apart, fun left => ?_⟩
    by_contra none
    rw [not_or, not_not, not_not] at none
    refine some_left event ((planned.there event).mpr (Or.inl left)) ?_
    rw [planned.views, plannedViews, none.2, all, fresh, none.1]
    rfl
  · intro sound
    have all (event : String) := added_eq_iff.mpr ⟨(sound event).modern, (sound event).apart⟩
    have once (event : String) : OnceAt host template event (viewsAt d event) := by
      rw [planned.views event]
      exact (onceAt_planned_iff (distinct event)).mpr
        ⟨(sound event).placed, (sound event).once, (sound event).lasts, all event⟩
    refine ⟨once, fun event there none => ?_⟩
    rcases (planned.there event).mp there with left | ours
    · rcases (sound event).stays left with ours | some
      · exact (once event).ne_nil ours none
      · rw [planned.views, plannedViews] at none
        exact some (List.append_eq_nil_iff.mp none).1
    · exact (once event).ne_nil ours none

end Documents

def emitStop : String := "python \"/home/me/.claude/hooks/run.py\" Stop"

theorem triplesAt_stopTemplate (command event : String) :
    triplesAt (stopTemplate command) event = if event = "Stop" then [(none, command)] else [] := by
  unfold triplesAt hooksOfTemplate stopTemplate
  rw [List.flatMap_cons, List.flatMap_nil, List.append_nil, hooksOfEntry]
  by_cases here : event = "Stop"
  · subst here
    rfl
  · rw [if_neg here, if_neg fun h => here h.2.symm]
    rfl

theorem stopTemplate_distinct (command event : String) :
    (triplesAt (stopTemplate command) event).Nodup := by
  rw [triplesAt_stopTemplate]
  split
  · exact List.nodup_singleton _
  · exact .nil

theorem stopTemplate_noRead (command : String) :
    ∀ t ∈ triplesAt (stopTemplate command) "PostToolUse", t.1 ≠ some "Read" := by
  rw [triplesAt_stopTemplate, if_neg (by decide)]
  nofun

/-- The emitter in an entry with another hook, and in one of its own. -/
def shared : List Json :=
  [.obj [("hooks", .arr [.obj [("command", .str emitStop)], .obj [("command", .str "notify.sh")]])],
    .obj [("hooks", .arr [.obj [("command", .str emitStop)]])]]

theorem shared_wellFormed : WellFormedSettings [("hooks", .obj [("Stop", .arr shared)])] where
  unique := List.nodup_singleton _
  hooks _ has := ⟨_, (Option.some.inj has).symm⟩
  sec := by
    refine ⟨List.nodup_singleton _, fun event value has => ?_⟩
    change Dict.get [("Stop", Json.arr shared)] event = some value at has
    rw [Dict.get_cons] at has
    split at has
    · refine ⟨shared, (Option.some.inj has).symm,
        List.forall_mem_cons.mpr ⟨?_, List.forall_mem_singleton.mpr ?_⟩⟩
      · exact @WellFormed.entry _ [[("command", .str emitStop)], [("command", .str "notify.sh")]]
          (List.nodup_singleton _) rfl
          (by decide +kernel) nofun
      · exact @WellFormed.entry _ [[("command", .str emitStop)]] (List.nodup_singleton _)
          rfl (by decide +kernel) nofun
    · cases has

theorem registeredOnce_iff_shared :
    ∃ d, plan laptop .user (stopTemplate emitStop) [("hooks", .obj [("Stop", .arr shared)])] =
        some d ∧
      (RegisteredOnce laptop (stopTemplate emitStop) d ↔ ∀ event,
        Sound laptop (stopTemplate emitStop) event
          (viewsAt [("hooks", .obj [("Stop", .arr shared)])] event)) :=
  registeredOnce_iff laptop (stopTemplate emitStop) _ shared_wellFormed
    (stopTemplate_distinct emitStop) (stopTemplate_noRead emitStop)

theorem shared_planned :
    (plan laptop .user (stopTemplate emitStop) [("hooks", .obj [("Stop", .arr shared)])]).isSome =
      true := by
  decide +kernel

/-- Both registrations stay: the emitter runs twice. -/
theorem shared_twice : ¬∀ (host : Host) (template : List TemplateEntry) (settings d : Fields),
    WellFormedSettings settings → (∀ event, (triplesAt template event).Nodup) →
      (∀ t ∈ triplesAt template "PostToolUse", t.1 ≠ some "Read") →
        plan host .user template settings = some d →
        RegisteredOnce host template d := by
  intro registered
  have once := registered laptop (stopTemplate emitStop) _ _ shared_wellFormed
    (stopTemplate_distinct emitStop)
    (stopTemplate_noRead emitStop) (Option.some_get shared_planned).symm
  have one := (once.once "Stop").1 (none, emitStop)
    (by rw [triplesAt_stopTemplate]; exact List.mem_singleton_self _)
  have two : (occurrences (viewsAt ((plan laptop .user (stopTemplate emitStop)
      [("hooks", .obj [("Stop", .arr shared)])]).get shared_planned) "Stop")).count
        (none, emitStop) = 2 := by
    decide +kernel
  exact nomatch one.symm.trans two

end DreamStudio.Settings
