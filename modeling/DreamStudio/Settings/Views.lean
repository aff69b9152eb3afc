import DreamStudio.Library.Firsts
import DreamStudio.Settings.Entries

namespace DreamStudio.Settings

open Library

section Texts

theorem anyIn_str (markers : List String) (command : String) :
    anyIn markers (.str command) = some (markers.any (contains command ·)) :=
  Traverse.anyM_eq_some fun _ _ => rfl

/-- A legacy one-liner of Dream Studio. -/
def legacy (command : String) : Bool :=
  legacyCommandMarkers.all (contains command ·) && legacyDsTargets.any (contains command ·)

def stable (command : String) : Bool :=
  (stableEmitterMarkers ++ stableDispatcherMarkers).any (contains command ·) ||
    (dsEnforcementMarkers.any (contains command ·) && !legacy command)

theorem commandIsLegacyDsHook_str (command : String) :
    commandIsLegacyDsHook (.str command) = some (legacy command) := by
  unfold commandIsLegacyDsHook legacy
  have all : legacyCommandMarkers.allM (isIn · (.str command)) =
      some (legacyCommandMarkers.all (contains command ·)) :=
    Traverse.allM_eq_some fun _ _ => rfl
  rw [anyIn_str, all]
  cases legacyCommandMarkers.all (contains command ·) <;> rfl

theorem commandIsStable_str (command : String) :
    commandIsStable (.str command) = some (stable command) := by
  unfold commandIsStable stable commandIsDsEnforcement
  rw [anyIn_str, anyIn_str, commandIsLegacyDsHook_str]
  cases (stableEmitterMarkers ++ stableDispatcherMarkers).any (contains command ·)
  · cases dsEnforcementMarkers.any (contains command ·) <;> rfl
  · rfl

end Texts

def textOf (h : Fields) : Option String := (Dict.get h "command").bind asStr

/-- An entry as far as an install looks at it. -/
@[ext] structure View where
  matcher : Option String
  commands : List (Option String)
  deriving DecidableEq

def viewOf (entry : Json) : View where
  matcher := (matcherOf entry).bind asStr
  commands := (dictHooks entry).map textOf

/-- An entry as the settings have them: a list of hook objects with texts for commands, and a text
for a matcher. -/
inductive WellFormed : Json → Prop
  | entry {fields : Fields} {hooks : List Fields} (unique : (Dict.keys fields).Nodup)
      (holds : Json.lookupD fields "hooks" (.arr []) = .arr (hooks.map .obj))
      (texts : ∀ h ∈ hooks, commandOf h = .str ((textOf h).getD ""))
      (matcher : ∀ m, Dict.get fields "matcher" = some m → ∃ text, m = .str text) :
      WellFormed (.obj fields)

/-- An entry with a `hooks` of its own. -/
def HasHooks (entry : Json) : Prop :=
  ∃ fields value, entry = .obj fields ∧ Dict.get fields "hooks" = some value

theorem hasHooks_set (fields : Fields) (value : Json) :
    HasHooks (.obj (Dict.set fields "hooks" value)) :=
  ⟨_, value, rfl, Dict.get_set_self fields "hooks" value⟩

@[simp] theorem filterMap_asDict_map_obj (hooks : List Fields) :
    (hooks.map Json.obj).filterMap asDict = hooks := by
  rw [List.filterMap_map]
  exact List.filterMap_some

section Entry

variable {fields : Fields} {hooks : List Fields}

theorem hooksOf_eq (holds : Json.lookupD fields "hooks" (.arr []) = .arr (hooks.map .obj)) :
    hooksOf fields = some (hooks.map .obj) := by
  rw [hooksOf, holds]
  rfl

theorem dictHooks_eq (holds : Json.lookupD fields "hooks" (.arr []) = .arr (hooks.map .obj)) :
    dictHooks (.obj fields) = hooks := by
  rw [dictHooks, hooksOf_eq holds, Option.getD_some, filterMap_asDict_map_obj]

theorem sameMatcher_view (texts : ∀ m, Dict.get fields "matcher" = some m → ∃ text, m = .str text)
    (matcher : Option String) :
    sameMatcher fields matcher = decide ((viewOf (.obj fields)).matcher = matcher) := by
  rw [Bool.eq_iff_iff, sameMatcher_iff, decide_eq_true_iff]
  change _ ↔ (Dict.get fields "matcher").bind asStr = matcher
  cases had : Dict.get fields "matcher" with
  | none => cases matcher <;> simp
  | some m =>
    obtain ⟨text, rfl⟩ := texts m had
    cases matcher <;> simp [asStr]

theorem runs_view (command : String) (h : Fields) :
    runs command (.obj h) = decide (textOf h = some command) := by
  rw [Bool.eq_iff_iff, decide_eq_true_iff]
  simp only [runs, lookup_eq, textOf]
  cases had : Dict.get h "command" with
  | none => simp
  | some c => cases c <;> simp [asStr]

end Entry

section Left

variable (host : Host) (keep : List String)

def outdated (command : Option String) : Bool :=
  command.getD "" ≠ "" && command.getD "" ∉ keep && host.isDsHookCommand (command.getD "")

def View.left (v : View) : Option View :=
  if !(v.commands.filter (!outdated host keep ·)).isEmpty ∨ v.commands.isEmpty then
    some { v with commands := v.commands.filter (!outdated host keep ·) }
  else none

variable {host keep}

theorem superseded_text {h : Fields} (text : commandOf h = .str ((textOf h).getD "")) :
    superseded host keep h = some (outdated host keep (textOf h)) := by
  rw [superseded, text]
  rfl

theorem filterMapM_superseded {hooks : List Fields}
    (texts : ∀ h ∈ hooks, commandOf h = .str ((textOf h).getD "")) :
    (hooks.map Json.obj).filterMapM (purgeHook host keep) =
      some ((hooks.filter fun h => !outdated host keep (textOf h)).map .obj) := by
  induction hooks with
  | nil => rfl
  | cons h hooks ih =>
    obtain ⟨here, later⟩ := List.forall_mem_cons.mp texts
    have turn : purgeHook host keep (.obj h) =
        some (if outdated host keep (textOf h) then none else some (.obj h)) := by
      rw [purgeHook, ofDict, superseded_text here]
      cases outdated host keep (textOf h) <;> rfl
    rw [List.map_cons, List.filterMapM_cons, turn, ih later, List.filter_cons]
    cases outdated host keep (textOf h) <;> rfl

theorem lookup_hooks_truthy {fields : Fields} {hooks : List Fields}
    (holds : Json.lookupD fields "hooks" (.arr []) = .arr (hooks.map .obj)) :
    (Json.lookup fields "hooks").truthy = !hooks.isEmpty := by
  rw [lookupD_eq] at holds
  rw [lookup_eq]
  cases had : Dict.get fields "hooks" with
  | none =>
    rw [had] at holds
    cases hooks with
    | nil => rfl
    | cons _ _ => cases holds
  | some value =>
    rw [had, Option.getD_some] at holds
    subst holds
    cases hooks <;> rfl

theorem wellFormed_set {fields : Fields} (unique : (Dict.keys fields).Nodup) {hooks : List Fields}
    (texts : ∀ h ∈ hooks, commandOf h = .str ((textOf h).getD ""))
    (matcher : ∀ m, Dict.get fields "matcher" = some m → ∃ text, m = .str text) :
    WellFormed (.obj (Dict.set fields "hooks" (.arr (hooks.map .obj)))) := by
  refine .entry (Dict.keys_set_nodup unique _ _) ?_ texts fun m has => matcher m ?_
  · rw [lookupD_eq, Dict.get_set_self]
    rfl
  · rwa [Dict.get_set_of_ne _ _ (by decide)] at has

theorem viewOf_set (fields : Fields) (hooks : List Fields) :
    viewOf (.obj (Dict.set fields "hooks" (.arr (hooks.map .obj)))) =
      ⟨(viewOf (.obj fields)).matcher, hooks.map textOf⟩ := by
  rw [viewOf, viewOf, matcherOf_set, dictHooks_set, filterMap_asDict_map_obj]

variable (host keep) in
theorem purgeEntry_view {entry : Json} (wf : WellFormed entry) :
    ∃ z, purgeEntry host keep entry = some z ∧
    z.map viewOf = (viewOf entry).left host keep ∧ ∀ entry' ∈ z, WellFormed entry' ∧
      HasHooks entry' := by
  cases wf with
  | @entry fields hooks unique holds texts matcher =>
    have commands : (viewOf (.obj fields)).commands = hooks.map textOf := by
      rw [viewOf, dictHooks_eq holds]
    rw [View.left, commands, List.filter_map, List.isEmpty_map, List.isEmpty_map]
    simp only [purgeEntry, hooksOf_eq holds, lookup_hooks_truthy holds, filterMapM_superseded texts,
      Option.bind_eq_bind, Option.bind_some, Bool.not_not, List.isEmpty_map, Function.comp_def]
    split
    · refine ⟨_, rfl, ?_, ?_⟩
      · rw [Option.map_some, viewOf_set]
      · rintro _ ⟨⟩
        exact ⟨wellFormed_set unique (fun h there => texts h (List.mem_of_mem_filter there))
          matcher, hasHooks_set ..⟩
    · exact ⟨none, rfl, rfl, nofun⟩

end Left

section Register

def View.triples (v : View) : List (Option String × String) :=
  v.commands.filterMap fun c => c.map (v.matcher, ·)

def occurrences (vs : List View) : List (Option String × String) := vs.flatMap View.triples

def register (vs : List View) (t : Option String × String) : List View :=
  if t ∈ occurrences vs then vs else vs ++ [⟨t.1, [some t.2]⟩]

theorem mem_triples {v : View} {t : Option String × String} :
    t ∈ v.triples ↔ v.matcher = t.1 ∧ some t.2 ∈ v.commands := by
  obtain ⟨m, c⟩ := t
  simp only [View.triples, List.mem_filterMap, Option.map_eq_some_iff, Prod.mk.injEq]
  constructor
  · rintro ⟨_, there, c, rfl, rfl, rfl⟩
    exact ⟨rfl, there⟩
  · rintro ⟨rfl, there⟩
    exact ⟨some c, there, c, rfl, rfl, rfl⟩

theorem mem_occurrences {vs : List View} {t : Option String × String} :
    t ∈ occurrences vs ↔ ∃ v ∈ vs, v.matcher = t.1 ∧ some t.2 ∈ v.commands := by
  simp only [occurrences, List.mem_flatMap, mem_triples]

theorem occurrences_append (vs ws : List View) :
    occurrences (vs ++ ws) = occurrences vs ++ occurrences ws :=
  List.flatMap_append

def single (t : Option String × String) : View := ⟨t.1, [some t.2]⟩

theorem occurrences_singles (ts : List (Option String × String)) :
    occurrences (ts.map single) = ts := by
  induction ts with
  | nil => rfl
  | cons t ts ih =>
    change t :: occurrences (ts.map single) = t :: ts
    rw [ih]

theorem foldl_register {ts : List (Option String × String)} (nodup : ts.Nodup) (vs : List View) :
    ts.foldl register vs = vs ++ (ts.filter (· ∉ occurrences vs)).map single := by
  induction ts generalizing vs with
  | nil => rw [List.filter_nil, List.map_nil, List.append_nil]; rfl
  | cons t ts ih =>
    obtain ⟨new, nodup⟩ := List.nodup_cons.mp nodup
    rw [List.foldl_cons, ih nodup, register]
    by_cases there : t ∈ occurrences vs
    · rw [if_pos there, List.filter_cons_of_neg (by simpa using there)]
    · rw [if_neg there, List.filter_cons_of_pos (by simpa using there), List.map_cons,
        List.append_assoc]
      refine congrArg (fun us => vs ++ single t :: us.map single)
        (List.filter_congr fun u member => ?_)
      have apart : u ≠ t := fun same => new (same ▸ member)
      have one : occurrences [single t] = [t] := occurrences_singles [t]
      rw [show (⟨t.1, [some t.2]⟩ : View) = single t from rfl, occurrences_append, one]
      simp [apart]

end Register

section Merge

variable {matcher : Option String} {h : TemplateHook} {entries : List Json}

def fillHook (command : String) (timeout : Json) (h : Fields) : Fields :=
  if textOf h = some command ∧ "timeout" ∉ Dict.keys h then h ++ [("timeout", timeout)] else h

theorem setDefault_eq (command : String) (timeout : Json) (h : Fields) :
    (if runs command (.obj h) then setDefault timeout (.obj h) else .obj h) =
      .obj (fillHook command timeout h) := by
  rw [runs_view, setDefault, fillHook]
  by_cases installed : textOf h = some command
  · rw [decide_eq_true installed, if_pos rfl]
    by_cases has : "timeout" ∈ Dict.keys h
    · rw [if_pos (hasKey_iff.mpr has), if_neg fun lacks => lacks.2 has]
    · rw [if_neg (mt hasKey_iff.mp has), if_pos ⟨installed, has⟩]
  · rw [decide_eq_false installed, if_neg Bool.false_ne_true, if_neg fun both => installed both.1]

theorem filled_fillHook (command : String) (timeout : Json) (h : Fields) :
    Filled (fun _ => True) h (fillHook command timeout h) := by
  unfold fillHook
  split
  · next lacks => exact Or.inr ⟨timeout, trivial, lacks.2, rfl⟩
  · exact .refl h

theorem Filled.textOf {due : Json → Prop} {g g' : Fields} (filled : Filled due g g') :
    textOf g' = textOf g := by
  rw [Settings.textOf, Settings.textOf, filled.get (by decide)]

theorem timeout_fillHook {command : String} (timeout : Json) {g : Fields}
    (installed : textOf g = some command) :
    "timeout" ∈ Dict.keys (fillHook command timeout g) := by
  unfold fillHook
  by_cases has : "timeout" ∈ Dict.keys g
  · rwa [if_neg fun lacks => lacks.2 has]
  · rw [if_pos ⟨installed, has⟩]
    simp [Dict.keys]

theorem fillEntry_view {entry : Json} (wf : WellFormed entry) (matcher : Option String)
    (command : String) (timeout : Json) : WellFormed (fillEntry matcher command timeout entry) ∧
      (viewOf (fillEntry matcher command timeout entry)).matcher = (viewOf entry).matcher ∧
      dictHooks (fillEntry matcher command timeout entry) =
        if (viewOf entry).matcher = matcher then (dictHooks entry).map
          (fillHook command timeout) else dictHooks entry := by
  cases wf with
  | @entry fields hooks unique holds texts texts' =>
    have wf : WellFormed (.obj fields) := .entry unique holds texts texts'
    rw [fillEntry, sameMatcher_view texts', dictHooks_eq holds]
    by_cases same : (viewOf (.obj fields)).matcher = matcher
    · rw [decide_eq_true same, if_pos same]
      cases had : Dict.get fields "hooks" with
      | none =>
        rw [lookupD_eq, had] at holds
        cases hooks with
        | nil => exact ⟨wf, rfl, dictHooks_eq (by rw [lookupD_eq, had]; rfl)⟩
        | cons _ _ => cases holds
      | some value =>
        have value_eq : value = .arr (hooks.map .obj) := by
          rwa [lookupD_eq, had, Option.getD_some] at holds
        subst value_eq
        have filled :
            (hooks.map Json.obj).map (fun h => if runs command h then setDefault timeout h else h) =
            (hooks.map (fillHook command timeout)).map .obj := by
          rw [List.map_map, List.map_map]
          exact List.map_congr_left fun g _ => setDefault_eq command timeout g
        simp only [filled]
        refine ⟨wellFormed_set unique ?_ texts', ?_, ?_⟩
        · refine List.forall_mem_map.mpr fun g there => ?_
          have kept := filled_fillHook command timeout g
          rw [kept.commandOf, kept.textOf]
          exact texts g there
        · rw [viewOf_set]
        · rw [dictHooks_set, filterMap_asDict_map_obj]
    · rw [decide_eq_false same, if_neg same]
      exact ⟨wf, rfl, dictHooks_eq holds⟩

theorem viewOf_fillEntry {entry : Json} (wf : WellFormed entry) (matcher : Option String)
    (command : String) (timeout : Json) :
    viewOf (fillEntry matcher command timeout entry) = viewOf entry := by
  obtain ⟨-, same, hooks⟩ := fillEntry_view wf matcher command timeout
  refine View.ext same ?_
  change (dictHooks (fillEntry matcher command timeout entry)).map textOf =
    (dictHooks entry).map textOf
  rw [hooks]
  split
  · rw [List.map_map]
    exact List.map_congr_left fun g _ => (filled_fillHook command timeout g).textOf
  · rfl

theorem installedIn_view {entry : Json} (wf : WellFormed entry) (matcher : Option String)
    (command : String) :
    ∃ hooks, installedIn matcher command entry = some hooks ∧
      (hooks ≠ [] ↔ (matcher, command) ∈ (viewOf entry).triples) := by
  cases wf with
  | @entry fields hooks unique holds texts texts' =>
    refine ⟨_, by rw [installedIn, hooksOf_eq holds]; rfl, ?_⟩
    have commands : (viewOf (.obj fields)).commands = hooks.map textOf := by
      rw [viewOf, dictHooks_eq holds]
    rw [mem_triples, commands, sameMatcher_view texts', Ne, List.filter_eq_nil_iff]
    simp only [Bool.and_eq_true, decide_eq_true_eq, not_forall, not_not, exists_prop, List.mem_map]
    constructor
    · rintro ⟨_, ⟨g, there, rfl⟩, same, installed⟩
      rw [runs_view] at installed
      exact ⟨same, g, there, of_decide_eq_true installed⟩
    · rintro ⟨same, g, there, installed⟩
      exact ⟨_, ⟨g, there, rfl⟩, same, (runs_view command g).trans (decide_eq_true installed)⟩

theorem installed_view (wf : ∀ entry ∈ entries, WellFormed entry) (matcher : Option String)
    (command : String) :
    ∃ installed, entries.mapM (installedIn matcher command) = some installed ∧
      (installed.flatten ≠ [] ↔ (matcher, command) ∈ occurrences (entries.map viewOf)) := by
  induction entries with
  | nil => exact ⟨[], rfl, by simp [occurrences]⟩
  | cons entry entries ih =>
    obtain ⟨here, later⟩ := List.forall_mem_cons.mp wf
    obtain ⟨hooks, turn, iff⟩ := installedIn_view here matcher command
    obtain ⟨rest, turns, iffs⟩ := ih later
    refine ⟨hooks :: rest, by rw [List.mapM_cons, turn, turns]; rfl, ?_⟩
    rw [List.flatten_cons, List.map_cons, occurrences, List.flatMap_cons, List.mem_append, ← iff,
      Ne, List.append_eq_nil_iff,
      not_and_or]
    exact or_congr Iff.rfl iffs

theorem eventHasAnyDsEmitter_isSome (wf : ∀ entry ∈ entries, WellFormed entry) :
    ∃ b, eventHasAnyDsEmitter entries = some b := by
  have emits (entry : Json) (there : entry ∈ entries) : (do
      (← hooksIn entry).anyM (ofDict fun h => commandIsDsEmitter (commandOf h))) = some
        ((dictHooks entry).any fun h =>
          dsEmitterMarkers.any (contains ((textOf h).getD "") ·)) := by
    cases wf entry there with
    | @entry fields hooks unique holds texts texts' =>
      rw [hooksIn, hooksOf_eq holds, dictHooks_eq holds]
      change (hooks.map Json.obj).anyM _ = _
      clear holds
      induction hooks with
      | nil => rfl
      | cons h hooks ih =>
        obtain ⟨here, later⟩ := List.forall_mem_cons.mp texts
        rw [List.map_cons, List.anyM_cons, ih later, ofDict, here, commandIsDsEmitter, anyIn_str,
          List.any_cons]
        cases dsEmitterMarkers.any (contains ((textOf h).getD "") ·) <;> rfl
  exact ⟨_, Traverse.anyM_eq_some emits⟩

theorem mergeHook_view (wf : ∀ entry ∈ entries, WellFormed entry) : mergeHook matcher entries h =
    some (if (matcher, h.command) ∈ occurrences (entries.map viewOf) then
      match h.fields.get "timeout" with
      | some timeout => entries.map (fillEntry matcher h.command timeout)
      | none => entries
    else entries ++ [newEntry matcher h]) := by
  obtain ⟨installed, turn, iff⟩ := installed_view wf matcher h.command
  rw [mergeHook, turn]
  change (if !installed.flatten.isEmpty then _ else _) = _
  by_cases there : (matcher, h.command) ∈ occurrences (entries.map viewOf)
  · have some : installed.flatten.isEmpty = false := by
      rw [Bool.eq_false_iff, Ne, List.isEmpty_iff]
      exact iff.mpr there
    rw [some, if_pos there]
    cases h.fields.get "timeout" <;> rfl
  · have none : installed.flatten.isEmpty = true :=
      List.isEmpty_iff.mpr (not_not.mp (mt iff.mp there))
    rw [none, if_neg there]
    obtain ⟨b, emits⟩ := eventHasAnyDsEmitter_isSome wf
    rw [commandIsDsEmitter, anyIn_str, emits]
    cases dsEmitterMarkers.any (contains h.command ·) <;> rfl

theorem textOf_template (h : TemplateHook) : textOf h.fields = some h.command := by
  rw [textOf, h.has_command]
  rfl

theorem wellFormed_newEntry (matcher : Option String) (h : TemplateHook) :
    WellFormed (newEntry matcher h) := by
  refine @WellFormed.entry _ [h.fields] ?_ rfl ?_ ?_
  · cases matcher <;> simp [Dict.keys]
  · refine List.forall_mem_singleton.mpr ?_
    rw [commandOf_template, textOf_template]
    rfl
  · cases matcher with
    | none => intros; contradiction
    | some m => exact fun _ same => ⟨m, (Option.some.inj same).symm⟩

theorem viewOf_newEntry (matcher : Option String) (h : TemplateHook) :
    viewOf (newEntry matcher h) = single (matcher, h.command) := by
  refine View.ext ?_ ?_
  · cases matcher <;> rfl
  · change [textOf h.fields] = _
    rw [textOf_template]
    rfl

theorem hasHooks_fillEntry {entry : Json} (has : HasHooks entry) (matcher : Option String)
    (command : String) (timeout : Json) : HasHooks (fillEntry matcher command timeout entry) := by
  obtain ⟨fields, value, rfl, had⟩ := has
  rw [fillEntry]
  split
  · exact hasHooks_set ..
  · exact ⟨fields, value, rfl, had⟩

def Timed (t : Option String × String) (entries : List Json) : Prop :=
  ∀ entry ∈ entries, (viewOf entry).matcher = t.1 → ∀ g ∈ dictHooks entry, textOf g = some t.2 →
    "timeout" ∈ Dict.keys g

theorem keys_fillHook {command : String} {timeout : Json} {g : Fields}
    (has : "timeout" ∈ Dict.keys g) :
    "timeout" ∈ Dict.keys (fillHook command timeout g) := by
  rwa [fillHook, if_neg fun lacks => lacks.2 has]

structure Merged (matcher : Option String) (h : TemplateHook) (entries entries' : List Json) :
    Prop where
  wf : ∀ entry ∈ entries', WellFormed entry
  has : (∀ entry ∈ entries, HasHooks entry) → ∀ entry ∈ entries', HasHooks entry
  views : entries'.map viewOf = register (entries.map viewOf) (matcher, h.command)
  own : (h.fields.get "timeout").isSome = true → Timed (matcher, h.command) entries'
  others : ∀ t, t ≠ (matcher, h.command) → Timed t entries → Timed t entries'

theorem merged_fill (wf : ∀ entry ∈ entries, WellFormed entry) {timeout : Json}
    (there : (matcher, h.command) ∈ occurrences (entries.map viewOf)) :
    Merged matcher h entries (entries.map (fillEntry matcher h.command timeout)) where
  wf := List.forall_mem_map.mpr fun entry member =>
    (fillEntry_view (wf entry member) matcher h.command timeout).1
  has had := List.forall_mem_map.mpr fun entry member => hasHooks_fillEntry (had entry member) ..
  views := by
    rw [register, if_pos there, List.map_map]
    exact List.map_congr_left fun entry member => viewOf_fillEntry (wf entry member) matcher
      h.command timeout
  own _ := by
    refine List.forall_mem_map.mpr fun entry member same g hooked text => ?_
    obtain ⟨-, kept, hooks⟩ := fillEntry_view (wf entry member) matcher h.command timeout
    rw [hooks, if_pos (kept.symm.trans same)] at hooked
    obtain ⟨g, -, rfl⟩ := List.mem_map.mp hooked
    exact timeout_fillHook timeout ((filled_fillHook h.command timeout g).textOf ▸ text)
  others t _ timed := by
    refine List.forall_mem_map.mpr fun entry member same g hooked text => ?_
    obtain ⟨-, kept, hooks⟩ := fillEntry_view (wf entry member) matcher h.command timeout
    rw [hooks] at hooked
    split at hooked
    · obtain ⟨g, there, rfl⟩ := List.mem_map.mp hooked
      rw [(filled_fillHook h.command timeout g).textOf] at text
      exact keys_fillHook (timed entry member (kept.symm.trans same) g there text)
    · exact timed entry member (kept.symm.trans same) g hooked text

theorem merged_append (wf : ∀ entry ∈ entries, WellFormed entry)
    (absent : (matcher, h.command) ∉ occurrences (entries.map viewOf)) :
    Merged matcher h entries (entries ++ [newEntry matcher h]) where
  wf := List.forall_mem_append.mpr
    ⟨wf, List.forall_mem_singleton.mpr (wellFormed_newEntry matcher h)⟩
  has had := List.forall_mem_append.mpr ⟨had, List.forall_mem_singleton.mpr ⟨_, _, rfl, rfl⟩⟩
  views := by
    rw [register, if_neg absent, List.map_append, List.map_singleton, viewOf_newEntry]
    rfl
  own has := by
    refine List.forall_mem_append.mpr
      ⟨fun entry member same g hooked text => ?_, List.forall_mem_singleton.mpr ?_⟩
    · refine absurd (mem_occurrences.mpr ⟨viewOf entry, List.mem_map_of_mem member, same, ?_⟩)
        absent
      exact List.mem_map.mpr ⟨g, hooked, text⟩
    · intro _ g hooked _
      rw [dictHooks_newEntry, List.mem_singleton] at hooked
      rw [hooked]
      exact not_not.mp fun lacks => nomatch (Dict.get_eq_none_iff.mpr lacks) ▸ has
  others t other timed := by
    refine List.forall_mem_append.mpr
      ⟨timed, List.forall_mem_singleton.mpr fun same g hooked text => ?_⟩
    rw [viewOf_newEntry] at same
    rw [dictHooks_newEntry, List.mem_singleton] at hooked
    rw [hooked, textOf_template] at text
    exact absurd (Prod.ext same.symm (Option.some.inj text).symm) other

variable (matcher h) in
theorem mergeHook_merged (wf : ∀ entry ∈ entries, WellFormed entry) :
    ∃ entries', mergeHook matcher entries h = some entries' ∧
      Merged matcher h entries entries' := by
  refine ⟨_, mergeHook_view wf, ?_⟩
  split
  · next there =>
    cases timeout : h.fields.get "timeout" with
    | none =>
      refine ⟨wf, id, by rw [register, if_pos there], fun has => ?_, fun _ _ timed => timed⟩
      rw [timeout] at has
      cases has
    | some timeout => exact merged_fill wf there
  · next absent => exact merged_append wf absent

theorem mergeHook_settled (wf : ∀ entry ∈ entries, WellFormed entry)
    (there : (matcher, h.command) ∈ occurrences (entries.map viewOf))
    (timed : (h.fields.get "timeout").isSome = true → Timed (matcher, h.command) entries) :
    mergeHook matcher entries h = some entries := by
  rw [mergeHook_view wf, if_pos there]
  cases has : h.fields.get "timeout" with
  | none => rfl
  | some timeout =>
    rw [has] at timed
    refine congrArg some ((List.map_congr_left fun entry member => ?_).trans (List.map_id' entries))
    cases wf entry member with
    | @entry fields hooks unique holds texts texts' =>
      have full := timed rfl _ member
      rw [dictHooks_eq holds] at full
      rw [fillEntry, sameMatcher_view texts']
      by_cases same : (viewOf (.obj fields)).matcher = matcher
      · rw [decide_eq_true same]
        cases had : Dict.get fields "hooks" with
        | none => rfl
        | some value =>
          have value_eq : value = .arr (hooks.map .obj) := by
            rwa [lookupD_eq, had, Option.getD_some] at holds
          subst value_eq
          have filled :
              (hooks.map Json.obj).map (fun g =>
                if runs h.command g then setDefault timeout g else g) = hooks.map .obj := by
            rw [List.map_map]
            refine List.map_congr_left fun g hooked => ?_
            rw [Function.comp_apply, setDefault_eq, fillHook, if_neg fun lacks => ?_]
            exact lacks.2 (full same g hooked lacks.1)
          simp only [filled]
          rw [Dict.set_of_get unique had]
      · rw [decide_eq_false same]

def hooksOfEntry (event : String) (entry : TemplateEntry) : List (Option String × TemplateHook) :=
  if event ≠ "" ∧ entry.event = event then entry.hooks.map (entry.matcher, ·) else []

def hooksOfTemplate (template : List TemplateEntry) (event : String) :
    List (Option String × TemplateHook) :=
  template.flatMap (hooksOfEntry event)

def triplesAt (template : List TemplateEntry) (event : String) : List (Option String × String) :=
  (hooksOfTemplate template event).map fun p => (p.1, p.2.command)

def mergeHooks (entries : List Json) (hooks : List (Option String × TemplateHook)) :
    Option (List Json) :=
  hooks.foldlM (fun entries p => mergeHook p.1 entries p.2) entries

theorem mergeHooks_merged {hooks : List (Option String × TemplateHook)}
    (wf : ∀ entry ∈ entries, WellFormed entry)
    (distinct : (hooks.map fun p => (p.1, p.2.command)).Nodup) :
    ∃ entries', mergeHooks entries hooks = some entries' ∧
      (∀ entry ∈ entries', WellFormed entry) ∧
        ((∀ entry ∈ entries, HasHooks entry) → ∀ entry ∈ entries', HasHooks entry) ∧
      entries'.map viewOf = (hooks.map fun p => (p.1, p.2.command)).foldl register
        (entries.map viewOf) ∧
      (∀ p ∈ hooks, (p.2.fields.get "timeout").isSome = true → Timed (p.1, p.2.command) entries') ∧
      ∀ t, t ∉ hooks.map (fun p => (p.1, p.2.command)) → Timed t entries → Timed t entries' := by
  induction hooks generalizing entries with
  | nil => exact ⟨entries, rfl, wf, id, rfl, nofun, fun _ _ timed => timed⟩
  | cons p hooks ih =>
    obtain ⟨new, distinct⟩ := List.nodup_cons.mp distinct
    obtain ⟨next, turn, merged⟩ := mergeHook_merged p.1 p.2 wf
    obtain ⟨entries', turns, wf', has, views, timed, others⟩ := ih merged.wf distinct
    refine ⟨entries', ?_, wf', has ∘ merged.has, ?_,
      List.forall_mem_cons.mpr ⟨fun has => others _ new (merged.own has), timed⟩, ?_⟩
    · rw [mergeHooks, List.foldlM_cons, turn]
      exact turns
    · rw [views, merged.views, List.map_cons, List.foldl_cons]
    · intro t other was
      rw [List.map_cons, List.mem_cons, not_or] at other
      exact others t other.2 (merged.others t other.1 was)

end Merge

section Purges

variable {host : Host} {entries : List Json}

def View.holds (test : String → Bool) (v : View) : Bool := v.commands.any fun c => test (c.getD "")

theorem anyM_view {test : Json → Option Bool} {test' : String → Bool}
    (str : ∀ c, test (.str c) = some (test' c)) {entry : Json} (wf : WellFormed entry) :
    (do (← hooksIn entry).anyM (ofDict fun h => test (commandOf h))) =
      some ((viewOf entry).holds test') := by
  cases wf with
  | @entry fields hooks unique holds texts texts' =>
    rw [hooksIn, hooksOf_eq holds, View.holds, viewOf, dictHooks_eq holds]
    change (hooks.map Json.obj).anyM _ = _
    clear holds
    induction hooks with
    | nil => rfl
    | cons h hooks ih =>
      obtain ⟨here, later⟩ := List.forall_mem_cons.mp texts
      rw [List.map_cons, List.anyM_cons, ih later, ofDict, here, str, List.map_cons, List.any_cons]
      cases test' ((textOf h).getD "") <;> rfl

theorem eventHasStable_view (wf : ∀ entry ∈ entries, WellFormed entry) :
    eventHasStableDsHook entries = some ((entries.map viewOf).any (·.holds stable)) := by
  rw [List.any_map]
  exact Traverse.anyM_eq_some fun entry there => anyM_view commandIsStable_str (wf entry there)

theorem purgeLegacyEntry_view {entry : Json} (wf : WellFormed entry) :
    purgeLegacyEntry entry = some (if (viewOf entry).holds legacy then none else some entry) := by
  cases wf with
  | @entry fields hooks unique holds texts texts' =>
    rw [purgeLegacyEntry, hooksIn, hooksOf_eq holds, View.holds, viewOf, dictHooks_eq holds]
    have tested : (hooks.map Json.obj).mapM (ofDict fun h => commandIsLegacyDsHook (commandOf h)) =
        some (hooks.map fun h => legacy ((textOf h).getD "")) := by
      clear holds
      induction hooks with
      | nil => rfl
      | cons h hooks ih =>
        obtain ⟨here, later⟩ := List.forall_mem_cons.mp texts
        rw [List.map_cons, List.mapM_cons, ih later, ofDict, here, commandIsLegacyDsHook_str]
        rfl
    simp only [Option.bind_eq_bind, Option.bind_some, tested, List.any_map,
      Function.comp_def, id_eq]
    split <;> rfl

def View.key (host : Host) (v : View) : Option Json :=
  if !v.commands.isEmpty && v.commands.all (fun c => host.isDsHookCommand (c.getD "")) then
    some (.arr [.str (v.matcher.getD ""), .arr (v.commands.map fun c => .str (norm (c.getD "")))])
  else none

variable (host) in
theorem ownedCommands_view {fields : Fields} (wf : WellFormed (.obj fields)) :
    ∃ owned, ownedCommands host fields = some owned ∧ owned.map (keyOf fields) =
      (viewOf (.obj fields)).key host := by
  cases wf with
  | @entry _ hooks unique holds texts texts' =>
    have commands : hooks.map commandOf = hooks.map fun h => .str ((textOf h).getD "") :=
      List.map_congr_left fun h there => texts h there
    have owned : (hooks.map commandOf).allM (owns host) =
        some (hooks.all fun h => host.isDsHookCommand ((textOf h).getD "")) := by
      rw [commands]
      clear holds texts commands
      induction hooks with
      | nil => rfl
      | cons h hooks ih =>
        rw [List.map_cons, List.allM_cons, ih, owns, List.all_cons]
        cases host.isDsHookCommand ((textOf h).getD "") <;> rfl
    have texts : (hooks.map commandOf).filterMap asStr = hooks.map fun h => (textOf h).getD "" := by
      rw [commands, List.filterMap_map, ← List.filterMap_eq_map]
      rfl
    have matcher : Json.lookupD fields "matcher" (.str "") =
        .str ((viewOf (.obj fields)).matcher.getD "") := by
      rw [lookupD_eq]
      change _ = Json.str (((Dict.get fields "matcher").bind asStr).getD "")
      cases had : Dict.get fields "matcher" with
      | none => rfl
      | some m =>
        obtain ⟨text, rfl⟩ := texts' m had
        rfl
    have own : (viewOf (.obj fields)).commands = hooks.map textOf := by rw [viewOf, dictHooks_eq holds]
    refine ⟨_, by rw [ownedCommands, hooksOf_eq holds]; simp only [Option.bind_eq_bind, Option.bind_some,
      filterMap_asDict_map_obj, owned]; rfl, ?_⟩
    rw [View.key, own, List.isEmpty_map, List.isEmpty_map, List.all_map, texts]
    simp only [Function.comp_def, List.map_map]
    split
    · rw [Option.map_some, keyOf, matcher, List.map_map]
      rfl
    · rfl

def entryKey (host : Host) (entry : Json) : Option Json := (viewOf entry).key host

theorem dedupEntries_view (wf : ∀ entry ∈ entries, WellFormed entry) (seen : List Json) :
    dedupEntries host seen entries = some (firsts (entryKey host) seen entries) := by
  induction entries generalizing seen with
  | nil => rfl
  | cons entry entries ih =>
    obtain ⟨here, later⟩ := List.forall_mem_cons.mp wf
    cases entry with
    | obj fields =>
      obtain ⟨owned, turn, key⟩ := ownedCommands_view host here
      rw [dedupEntries, turn]
      cases owned with
      | none =>
        have keyed : entryKey host (.obj fields) = none := key.symm
        rw [firsts_cons_none keyed]
        change (dedupEntries host seen entries >>= _) = _
        rw [ih later]
        rfl
      | some commands =>
        have keyed : entryKey host (.obj fields) = some (keyOf fields commands) := key.symm
        rw [firsts_cons_some keyed]
        change (if keyOf fields commands ∈ seen then _ else _) = _
        rw [ih later, ih later]
        split <;> rfl
    | null | bool _ | int _ | float _ | str _ | arr _ => cases here

theorem keepsMatcher_view {entry : Json} (wf : WellFormed entry) :
    keepsMatcher entry =
      some (if (viewOf entry).matcher = some "Read" then none else some entry) := by
  cases wf with
  | entry unique holds texts texts' =>
    rw [keepsMatcher, sameMatcher_view texts']
    simp only [decide_eq_true_eq]

end Purges

end DreamStudio.Settings
