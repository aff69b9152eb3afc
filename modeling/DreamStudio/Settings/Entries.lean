import DreamStudio.Library.Traverse
import DreamStudio.Settings.Passes

namespace DreamStudio.Settings

open Library

theorem lookupD_eq (fields : Fields) (key : String) (default : Json) :
    Json.lookupD fields key default = (Dict.get fields key).getD default := by
  unfold Json.lookupD Dict.get
  cases fields.find? (fun f => f.1 = key) <;> rfl

theorem lookup_eq (fields : Fields) (key : String) :
    Json.lookup fields key = (Dict.get fields key).getD .null := by
  unfold Json.lookup Dict.get
  cases fields.find? (fun f => f.1 = key) <;> rfl

theorem hasKey_iff {fields : Fields} {key : String} : Json.hasKey fields key = true ↔
    key ∈ Dict.keys fields :=
  Dict.any_key

def dictHooks : Json → List Fields
  | .obj entry => ((hooksOf entry).getD []).filterMap asDict
  | _ => []

def matcherOf : Json → Option Json
  | .obj entry => Dict.get entry "matcher"
  | _ => none

@[simp] theorem hooksOf_set (entry : Fields) (hooks : List Json) :
    hooksOf (Dict.set entry "hooks" (.arr hooks)) = some hooks := by
  rw [hooksOf, lookupD_eq, Dict.get_set_self]
  rfl

theorem dictHooks_set (entry : Fields) (hooks : List Json) :
    dictHooks (.obj (Dict.set entry "hooks" (.arr hooks))) = hooks.filterMap asDict := by
  rw [dictHooks, hooksOf_set, Option.getD_some]

theorem matcherOf_set (entry : Fields) (hooks : Json) :
    matcherOf (.obj (Dict.set entry "hooks" hooks)) = matcherOf (.obj entry) :=
  Dict.get_set_of_ne entry hooks (by decide)

theorem dictHooks_of_hooksIn {entry : Json} {hooks : List Json} (h : hooksIn entry = some hooks) :
    dictHooks entry = hooks.filterMap asDict := by
  cases entry with
  | obj entry => rw [dictHooks, show hooksOf entry = some hooks from h, Option.getD_some]
  | null | bool _ | int _ | float _ | str _ | arr _ => cases h

theorem filter_of_filterMapM {host : Host} {keep : List String} {hooks kept : List Json}
    (went : hooks.filterMapM (purgeHook host keep) = some kept) :
    kept.filterMap asDict = (hooks.filterMap asDict).filter (superseded host keep · ≠ some true) ∧
      (kept = [] → ∀ h ∈ hooks.filterMap asDict, superseded host keep h = some true) := by
  refine Traverse.filterMapM_induction (P := fun hooks kept =>
    kept.filterMap asDict = (hooks.filterMap asDict).filter (superseded host keep · ≠ some true) ∧
      (kept = [] → ∀ h ∈ hooks.filterMap asDict, superseded host keep h = some true))
        ⟨rfl, nofun⟩ ?_ went
  intro h hooks z kept here ih
  obtain ⟨dropped, test, here⟩ := Option.bind_eq_some_iff.mp here
  cases dropped with
  | true =>
    cases here
    cases h with
    | obj h =>
      change superseded host keep h = some true at test
      change kept.filterMap asDict = (h :: hooks.filterMap asDict).filter _ ∧
        (kept = [] → ∀ g ∈ h :: hooks.filterMap asDict, _)
      rw [List.filter_cons_of_neg (by simpa using test), List.forall_mem_cons]
      exact ⟨ih.1, fun none => ⟨test, ih.2 none⟩⟩
    | null | bool _ | int _ | float _ | str _ | arr _ => cases test
  | false =>
    cases here
    refine ⟨?_, nofun⟩
    cases h with
    | obj h =>
      change superseded host keep h = some false at test
      change h :: kept.filterMap asDict = (h :: hooks.filterMap asDict).filter _
      rw [List.filter_cons_of_pos (by simp [test]), ih.1]
    | null | bool _ | int _ | float _ | str _ | arr _ => exact ih.1

theorem purgeEntry_spec {host : Host} {keep : List String} {entry : Json} {z : Option Json}
    (went : purgeEntry host keep entry = some z) :
    (z = none → ∀ h ∈ dictHooks entry, superseded host keep h = some true) ∧
      ∀ entry', z = some entry' → matcherOf entry' = matcherOf entry ∧
        dictHooks entry' = (dictHooks entry).filter (superseded host keep · ≠ some true) := by
  cases entry with
  | obj entry =>
    obtain ⟨hooks, were, went⟩ := Option.bind_eq_some_iff.mp went
    obtain ⟨kept, purged, went⟩ := Option.bind_eq_some_iff.mp went
    obtain ⟨rest, all⟩ := filter_of_filterMapM purged
    have same : dictHooks (.obj entry) = hooks.filterMap asDict := dictHooks_of_hooksIn were
    rw [same]
    split at went
    · cases went
      refine ⟨nofun, ?_⟩
      rintro _ ⟨⟩
      exact ⟨matcherOf_set entry _, (dictHooks_set entry kept).trans rest⟩
    · next empty =>
      cases went
      refine ⟨fun _ => all ?_, nofun⟩
      cases kept with
      | nil => rfl
      | cons _ _ => exact absurd (Or.inl rfl) empty
  | null | bool _ | int _ | float _ | str _ | arr _ =>
    cases went
    refine ⟨nofun, ?_⟩
    rintro _ ⟨⟩
    exact ⟨rfl, rfl⟩

theorem sameMatcher_iff {entry : Fields} {matcher : Option String} :
    sameMatcher entry matcher = true ↔
      (Dict.get entry "matcher").getD .null = matcher.elim .null .str := by
  unfold sameMatcher
  rw [lookup_eq]
  cases (Dict.get entry "matcher").getD .null <;> cases matcher <;> simp

theorem commandOf_of_runs {command : String} {h : Fields}
    (installed : runs command (.obj h) = true) :
    commandOf h = .str command := by
  simp only [runs, lookup_eq] at installed
  rw [commandOf, lookupD_eq]
  cases given : Dict.get h "command" with
  | none =>
    rw [given] at installed
    cases installed
  | some c =>
    rw [given] at installed
    cases c with
    | str c => exact congrArg Json.str (of_decide_eq_true installed)
    | null | bool _ | int _ | float _ | arr _ | obj _ => cases installed

/-- A hook as it was, or with a timeout it lacked. -/
def Filled (due : Json → Prop) (h h' : Fields) : Prop :=
  h' = h ∨ ∃ timeout, due timeout ∧ "timeout" ∉ Dict.keys h ∧ h' = h ++ [("timeout", timeout)]

section Filled

variable {due : Json → Prop} {h h' h'' : Fields}

theorem Filled.refl (h : Fields) : Filled due h h := Or.inl rfl

theorem Filled.get (filled : Filled due h h') {key : String} (other : key ≠ "timeout") :
    Dict.get h' key = Dict.get h key := by
  rcases filled with rfl | ⟨timeout, -, -, rfl⟩
  · rfl
  · rw [Dict.get_append, Dict.get_cons, if_neg (Ne.symm other), Dict.get_nil, Option.or_none]

theorem Filled.commandOf (filled : Filled due h h') : commandOf h' = commandOf h := by
  rw [Settings.commandOf, Settings.commandOf, lookupD_eq, lookupD_eq, filled.get (by decide)]

theorem Filled.trans (first : Filled due h h') (second : Filled due h' h'') : Filled due h h'' := by
  rcases first with rfl | ⟨timeout, owed, lacked, rfl⟩
  · exact second
  · rcases second with rfl | ⟨_, -, lacks, -⟩
    · exact Or.inr ⟨timeout, owed, lacked, rfl⟩
    · exact absurd (by simp [Dict.keys]) lacks

theorem Filled.imp {due' : Json → Prop} (owed : ∀ timeout, due timeout → due' timeout)
    (filled : Filled due h h') :
    Filled due' h h' :=
  filled.imp_right fun ⟨timeout, was, lacked, same⟩ => ⟨timeout, owed timeout was, lacked, same⟩

end Filled

theorem filled_setDefault (timeout : Json) (command : String) (h : Fields) :
    ∃ h', Filled (fun t => t = timeout ∧ commandOf h = .str command) h h' ∧
      (if runs command (.obj h) then setDefault timeout (.obj h) else .obj h) = .obj h' := by
  by_cases installed : runs command (.obj h) = true
  · rw [if_pos installed, setDefault]
    by_cases has : Json.hasKey h "timeout" = true
    · exact ⟨h, .refl h, if_pos has⟩
    · exact ⟨_, Or.inr ⟨timeout, ⟨rfl, commandOf_of_runs installed⟩,
        fun h => has (hasKey_iff.mpr h), rfl⟩, if_neg has⟩
  · exact ⟨h, .refl h, if_neg installed⟩

theorem fillEntry_spec (matcher : Option String) (command : String) (timeout entry : Json) :
    matcherOf (fillEntry matcher command timeout entry) = matcherOf entry ∧
      List.Forall₂
        (fun h => Filled (fun t => t = timeout ∧ (matcherOf entry).getD .null =
          matcher.elim .null .str ∧
        commandOf h = .str command) h) (dictHooks entry)
          (dictHooks (fillEntry matcher command timeout entry)) := by
  cases entry with
  | obj entry =>
    rw [fillEntry]
    split
    · next hooks same has =>
      refine ⟨matcherOf_set entry _, ?_⟩
      have own : hooksOf entry = some hooks := by rw [hooksOf, lookupD_eq, has]; rfl
      rw [dictHooks_set, dictHooks, own, Option.getD_some]
      clear has own
      induction hooks with
      | nil => exact .nil
      | cons h hooks ih =>
        rw [List.map_cons]
        cases h with
        | obj h =>
          obtain ⟨h', filled, now⟩ := filled_setDefault timeout command h
          rw [now]
          exact .cons (filled.imp fun _ due => ⟨due.1, sameMatcher_iff.mp same, due.2⟩) ih
        | null | bool _ | int _ | float _ | str _ | arr _ => exact ih
    · exact ⟨rfl, List.forall₂_same.mpr fun h _ => .refl h⟩
  | null | bool _ | int _ | float _ | str _ | arr _ =>
    exact ⟨rfl, List.forall₂_same.mpr fun h _ => .refl h⟩

@[simp] theorem dictHooks_newEntry (matcher : Option String) (h : TemplateHook) :
    dictHooks (newEntry matcher h) = [h.fields] := rfl

theorem commandOf_template (h : TemplateHook) : commandOf h.fields = .str h.command := by
  rw [commandOf, lookupD_eq, h.has_command]
  rfl

theorem exists_of_anyM_ofDict {test : Fields → Option Bool} {hooks : List Json}
    (h : hooks.anyM (ofDict test) = some true) :
    ∃ h ∈ hooks.filterMap asDict, test h = some true := by
  obtain ⟨h, there, holds⟩ := Traverse.exists_of_anyM h
  cases h with
  | obj h => exact ⟨h, List.mem_filterMap.mpr ⟨_, there, rfl⟩, holds⟩
  | null | bool _ | int _ | float _ | str _ | arr _ => cases holds

theorem exists_of_eventHasStable {entries : List Json}
    (h : eventHasStableDsHook entries = some true) :
    ∃ entry ∈ entries, ∃ h ∈ dictHooks entry, commandIsStable (commandOf h) = some true := by
  obtain ⟨entry, there, holds⟩ := Traverse.exists_of_anyM h
  obtain ⟨hooks, were, holds⟩ := Option.bind_eq_some_iff.mp holds
  obtain ⟨h, hooked, stable⟩ := exists_of_anyM_ofDict holds
  exact ⟨entry, there, h, dictHooks_of_hooksIn were ▸ hooked, stable⟩

theorem purgeLegacyEntry_spec {entry : Json} {z : Option Json}
    (went : purgeLegacyEntry entry = some z) :
    z = some entry ∨ z = none ∧ ∃ h ∈ dictHooks entry, commandIsLegacyDsHook (commandOf h) =
      some true := by
  obtain ⟨hooks, were, went⟩ := Option.bind_eq_some_iff.mp went
  obtain ⟨legacy, tested, went⟩ := Option.bind_eq_some_iff.mp went
  split at went
  · next one =>
    cases went
    refine Or.inr ⟨rfl, ?_⟩
    rw [dictHooks_of_hooksIn were]
    refine Traverse.mapM_induction (P := fun hooks legacy => legacy.any id = true →
      ∃ h ∈ hooks.filterMap asDict, commandIsLegacyDsHook (commandOf h) = some true)
        nofun ?_ tested one
    intro h hooks b legacy here ih one
    cases h with
    | obj h =>
      cases b with
      | true => exact ⟨h, List.mem_cons_self, here⟩
      | false =>
        obtain ⟨g, there, holds⟩ := ih one
        exact ⟨g, List.mem_cons_of_mem _ there, holds⟩
    | null | bool _ | int _ | float _ | str _ | arr _ =>
      cases here
      exact ih one
  · cases went
    exact Or.inl rfl

theorem str_of_allM_owns {host : Host} {commands : List Json}
    (all : commands.allM (owns host) = some true) :
    ∀ command ∈ commands, ∃ c, command = .str c ∧ host.isDsHookCommand c = true := by
  induction commands with
  | nil => nofun
  | cons command commands ih =>
    rw [List.allM_cons] at all
    obtain ⟨b, here, later⟩ := Option.bind_eq_some_iff.mp all
    cases b with
    | false => cases later
    | true =>
      refine List.forall_mem_cons.mpr ⟨?_, ih later⟩
      cases command with
      | str c => exact ⟨c, rfl, Option.some.inj here⟩
      | null | bool _ | int _ | float _ | arr _ | obj _ => cases here

theorem owned_of_ownedCommands {host : Host} {entry : Fields} {commands : List String}
    (owned : ownedCommands host entry = some (some commands)) :
    ∀ h ∈ dictHooks (.obj entry), ∃ c, commandOf h = .str c ∧ host.isDsHookCommand c = true := by
  obtain ⟨hooks, were, owned⟩ := Option.bind_eq_some_iff.mp owned
  obtain ⟨all, tested, owned⟩ := Option.bind_eq_some_iff.mp owned
  cases all with
  | false =>
    rw [Bool.and_false] at owned
    cases owned
  | true =>
    rw [dictHooks_of_hooksIn (show hooksIn (.obj entry) = some hooks from were)]
    exact fun h there => str_of_allM_owns tested _ (List.mem_map_of_mem there)

section Sections

variable {host : Host} {keep : List String}

@[simp] theorem sectionOf_set (settings sec : Fields) :
    sectionOf (Dict.set settings "hooks" (.obj sec)) = sec := by
  rw [sectionOf, Dict.get_set_self]

theorem entriesAt_set (sec : Fields) (event event' : String) (entries : List Json) :
    entriesAt (Dict.set sec event (.arr entries)) event' =
      if event' = event then entries else entriesAt sec event' := by
  unfold entriesAt
  rw [Dict.get_set]
  by_cases here : event' = event
  · rw [if_pos here, if_pos here]
  · rw [if_neg here, if_neg here]

theorem purgeEvent_keyed (item : String × Json) (other : String × Json)
    (h : purgeEvent host keep item = some (some other)) : other.1 = item.1 := by
  obtain ⟨event, value⟩ := item
  cases value with
  | arr entries =>
    obtain ⟨kept, -, h⟩ := Option.bind_eq_some_iff.mp h
    split at h <;> cases h
    rfl
  | null | bool _ | int _ | float _ | str _ | obj _ =>
    cases h
    rfl

theorem purgeLegacyEvent_keyed (item other : String × Json)
    (h : purgeLegacyEvent item = some other) :
    other.1 = item.1 := by
  obtain ⟨event, value⟩ := item
  cases value with
  | arr entries =>
    obtain ⟨replaced, -, h⟩ := Option.bind_eq_some_iff.mp h
    split at h
    · obtain ⟨kept, -, h⟩ := Option.bind_eq_some_iff.mp h
      cases h
      rfl
    · cases h
      rfl
  | null | bool _ | int _ | float _ | str _ | obj _ =>
    cases h
    rfl

theorem dedupEvent_keyed (item other : String × Json) (h : dedupEvent host item = some other) :
    other.1 = item.1 := by
  obtain ⟨_, -, h⟩ := Option.bind_eq_some_iff.mp h
  obtain ⟨_, -, h⟩ := Option.bind_eq_some_iff.mp h
  cases h
  rfl

theorem sectionOf_pop (settings : Fields) :
    sectionOf (pop settings "statusLine") = sectionOf settings := by
  unfold sectionOf pop
  rw [Dict.get_filter_key, if_neg (by decide)]

end Sections

end DreamStudio.Settings
