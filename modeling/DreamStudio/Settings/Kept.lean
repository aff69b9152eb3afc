import DreamStudio.Settings.Entries

namespace DreamStudio.Settings

open Library

def foreign (host : Host) (h : Fields) : Bool :=
  (match commandOf h with
  | .str command => !host.isDsHookCommand command
  | _ => true) && commandIsLegacyDsHook (commandOf h) ≠ some true

def operatorHooks (host : Host) (entry : Json) : List (Option Json × Fields) :=
  ((dictHooks entry).filter (foreign host)).map (matcherOf entry, ·)

/-- The hooks of a document at an event that are not Dream Studio's. -/
def hooksAt (host : Host) (settings : Fields) (event : String) : List (Option Json × Fields) :=
  (entriesAt (sectionOf settings) event).flatMap (operatorHooks host)

def legacyIn (entry : Json) : Bool :=
  (dictHooks entry).any fun h => commandIsLegacyDsHook (commandOf h) = some true

def stableIn (entry : Json) : Bool :=
  (dictHooks entry).any fun h => commandIsStable (commandOf h) = some true

/-- The document or the template has a hook at the event that counts as a replacement of a legacy
one-liner. -/
def stableAt (template : List TemplateEntry) (settings : Fields) (event : String) : Bool :=
  (entriesAt (sectionOf settings) event).any stableIn ||
    template.any fun entry => entry.event = event &&
      entry.hooks.any fun h => commandIsStable (.str h.command) = some true

/-- What an install means to leave alone: not the entries of PostToolUse on Read, and not an entry
with a legacy one-liner where that is replaced. -/
def spared (stable : Bool) (event : String) (entry : Json) : Bool :=
  !(event = "PostToolUse" && matcherOf entry = some (.str "Read")) && !(stable && legacyIn entry)

def sparedHooks (host : Host) (stable : Bool) (event : String) (entry : Json) :
    List (Option Json × Fields) :=
  if spared stable event entry then operatorHooks host entry else []

def sparedAt (host : Host) (template : List TemplateEntry) (settings : Fields) (event : String) :
    List (Option Json × Fields) :=
  (entriesAt (sectionOf settings) event).flatMap
    (sparedHooks host (stableAt template settings event) event)

def Due (template : List TemplateEntry) (event : String) (matcher : Option Json)
    (command timeout : Json) : Prop :=
  ∃ entry ∈ template, entry.event = event ∧ matcher.getD .null = entry.matcher.elim .null .str ∧
    ∃ h ∈ entry.hooks, command = .str h.command ∧ h.fields.get "timeout" = some timeout

/-- The same hook under the same matcher, perhaps with a timeout it lacked and the template has for
it. -/
def Kept (template : List TemplateEntry) (event : String) (p p' : Option Json × Fields) : Prop :=
  p'.1 = p.1 ∧ Filled (Due template event p.1 (commandOf p.2)) p.2 p'.2

instance (template : List TemplateEntry) (event : String) : Std.Refl (Kept template event) :=
  ⟨fun p => ⟨rfl, .refl p.2⟩⟩

instance (template : List TemplateEntry) (event : String) :
    IsTrans (Option Json × Fields) (Kept template event) where
  trans _ _ _ first second := by
    refine ⟨second.1.trans first.1, first.2.trans ?_⟩
    rw [← first.1, ← first.2.commandOf]
    exact second.2

section Passes

variable {host : Host} {template : List TemplateEntry} {stable : Bool} {event : String}
    {keep : List String}

theorem Filled.foreign {due : Json → Prop} {h h' : Fields} (filled : Filled due h h') :
    foreign host h' = foreign host h := by
  unfold Settings.foreign
  rw [filled.commandOf]

theorem not_foreign_of_owned {h : Fields}
    (owned : ∃ c, commandOf h = .str c ∧ host.isDsHookCommand c = true) :
    foreign host h = false := by
  obtain ⟨c, command, ours⟩ := owned
  unfold foreign
  rw [command]
  simp [ours]

theorem owned_of_superseded {h : Fields} (gone : superseded host keep h = some true) :
    ∃ c, commandOf h = .str c ∧ host.isDsHookCommand c = true := by
  unfold superseded at gone
  cases command : commandOf h with
  | str c =>
    rw [command] at gone
    exact ⟨c, rfl, (Bool.and_eq_true_iff.mp (Option.some.inj gone)).2⟩
  | null | bool _ | int _ | float _ | arr _ | obj _ =>
    rw [command] at gone
    simp only at gone
    split at gone <;> cases gone

theorem operatorHooks_of_owned {entry : Json}
    (owned : ∀ h ∈ dictHooks entry, ∃ c, commandOf h = .str c ∧ host.isDsHookCommand c = true) :
    operatorHooks host entry = [] := by
  unfold operatorHooks
  rw [List.filter_eq_nil_iff.mpr fun h there => by rw [not_foreign_of_owned (owned h there)]; nofun]
  rfl

theorem sparedHooks_of_owned {entry : Json}
    (owned : ∀ h ∈ dictHooks entry, ∃ c, commandOf h = .str c ∧ host.isDsHookCommand c = true) :
    sparedHooks host stable event entry = [] := by
  unfold sparedHooks
  rw [operatorHooks_of_owned owned, ite_self]

theorem sparedHooks_sublist {entry entry' : Json} (matcher : matcherOf entry' = matcherOf entry)
    (legacy : legacyIn entry' = true → legacyIn entry = true)
    (hooks : List.SublistForall₂ (Kept template event) (operatorHooks host entry)
      (operatorHooks host entry')) :
    List.SublistForall₂ (Kept template event) (sparedHooks host stable event entry)
      (sparedHooks host stable event entry') := by
  unfold sparedHooks
  split
  · next was =>
    rw [if_pos]
    · exact hooks
    · unfold spared at was ⊢
      rw [matcher]
      obtain ⟨read, was⟩ := Bool.and_eq_true_iff.mp was
      refine Bool.and_eq_true_iff.mpr ⟨read, ?_⟩
      revert was legacy
      cases stable <;> cases legacyIn entry <;> cases legacyIn entry' <;> simp
  · exact .nil

variable (stable event) in
theorem purgeEntry_spares {entry : Json} {z : Option Json}
    (went : purgeEntry host keep entry = some z) :
    List.SublistForall₂ (Kept template event) (sparedHooks host stable event entry)
      (z.toList.flatMap (sparedHooks host stable event)) ∧
      ∀ entry' ∈ z, stableIn entry' = true → stableIn entry = true := by
  obtain ⟨gone, stays⟩ := purgeEntry_spec went
  cases z with
  | none =>
    refine ⟨?_, nofun⟩
    rw [sparedHooks_of_owned fun h there => owned_of_superseded (gone rfl h there)]
    exact .nil
  | some entry' =>
    obtain ⟨matcher, hooks⟩ := stays entry' rfl
    have kept (test : Fields → Bool) :
        (dictHooks entry').any test = true → (dictHooks entry).any test = true := by
      intro h
      obtain ⟨h, there, holds⟩ := List.any_eq_true.mp h
      rw [hooks] at there
      exact List.any_eq_true.mpr ⟨h, List.mem_of_mem_filter there, holds⟩
    refine ⟨?_, ?_⟩
    · rw [Option.toList_some, List.flatMap_singleton]
      refine sparedHooks_sublist matcher (kept _) ?_
      have all : operatorHooks host entry' = operatorHooks host entry := by
        unfold operatorHooks
        rw [hooks, matcher, List.filter_filter]
        refine congrArg _ (List.filter_congr fun h _ => ?_)
        cases foreignH : foreign host h with
        | false => rfl
        | true =>
          refine decide_eq_true fun gone => ?_
          rw [not_foreign_of_owned (owned_of_superseded gone)] at foreignH
          cases foreignH
      rw [all]
      exact refl _
    · rintro _ ⟨⟩
      exact kept _

theorem filled_any {due : Fields → Json → Prop} {hooks hooks' : List Fields}
    (filled : List.Forall₂ (fun h => Filled (due h) h) hooks hooks') (test : Json → Bool) :
    hooks'.any (fun h => test (commandOf h)) = true ↔
      hooks.any (fun h => test (commandOf h)) = true := by
  induction filled with
  | nil => exact Iff.rfl
  | cons here _ ih =>
    rw [List.any_cons, List.any_cons, Bool.or_eq_true, Bool.or_eq_true, ih, here.commandOf]

theorem fillEntry_stable {matcher : Option String} {command : String} {timeout entry : Json}
    (st : stableIn (fillEntry matcher command timeout entry) = true) : stableIn entry = true :=
  (filled_any (fillEntry_spec matcher command timeout entry).2 (commandIsStable · = some true)).mp
    st

theorem fillEntry_spares {matcher : Option String} {command : String} {timeout : Json}
    (due : ∀ m : Option Json, m.getD .null = matcher.elim .null .str →
      Due template event m (.str command) timeout)
    (entry : Json) : List.SublistForall₂ (Kept template event) (sparedHooks host stable event entry)
      (sparedHooks host stable event (fillEntry matcher command timeout entry)) := by
  obtain ⟨same, filled⟩ := fillEntry_spec matcher command timeout entry
  refine sparedHooks_sublist same (filled_any filled (commandIsLegacyDsHook · = some true)).mp ?_
  unfold operatorHooks
  rw [same]
  refine List.sublistForall₂_iff.mpr ⟨_, ?_, .refl _⟩
  generalize dictHooks entry = hooks, dictHooks (fillEntry matcher command timeout entry) =
    hooks' at filled
  induction filled with
  | nil => exact .nil
  | cons here _ ih =>
    rw [List.filter_cons, List.filter_cons, here.foreign]
    split
    · refine .cons ⟨rfl, here.imp ?_⟩ ih
      rintro _ ⟨rfl, matched, command⟩
      rw [command]
      exact due _ matched
    · exact ih

def spares (host : Host) (stable : Bool) (event : String) (entries : List Json) :
    List (Option Json × Fields) :=
  entries.flatMap (sparedHooks host stable event)

theorem spares_cons (entry : Json) (entries : List Json) :
    spares host stable event (entry :: entries) =
    sparedHooks host stable event entry ++ spares host stable event entries := List.flatMap_cons

theorem spares_append (xs ys : List Json) :
    spares host stable event (xs ++ ys) = spares host stable event xs ++
      spares host stable event ys :=
  List.flatMap_append

theorem spares_singleton (entry : Json) :
    spares host stable event [entry] = sparedHooks host stable event entry :=
  List.flatMap_singleton ..

/-- A pass over the entries of an event keeps what is spared, and adds nothing stable where there is
nothing. -/
structure Carries (host : Host) (template : List TemplateEntry) (stable : Bool) (event : String)
    (entries entries' : List Json) : Prop where
  kept : List.SublistForall₂ (Kept template event) (spares host stable event entries)
    (spares host stable event entries')
  quiet : (∀ entry ∈ entries, stableIn entry = true → stable = true) →
    ∀ entry ∈ entries', stableIn entry = true → stable = true

theorem Carries.refl (entries : List Json) : Carries host template stable event entries entries :=
  ⟨refl_of (List.SublistForall₂ (Kept template event)) _, id⟩

theorem Carries.trans {xs ys zs : List Json} (first : Carries host template stable event xs ys)
    (second : Carries host template stable event ys zs) :
    Carries host template stable event xs zs :=
  ⟨trans_of (List.SublistForall₂ (Kept template event)) first.kept second.kept,
    second.quiet ∘ first.quiet⟩

theorem filterMapM_purgeEntry_carries {entries kept : List Json}
    (went : entries.filterMapM (purgeEntry host keep) = some kept) :
    Carries host template stable event entries kept := by
  refine Traverse.filterMapM_induction (P := Carries host template stable event) (.refl []) ?_ went
  intro entry entries z kept here ih
  obtain ⟨here, stays⟩ := purgeEntry_spares stable event here
  refine ⟨?_, fun quiet => List.forall_mem_append.mpr
    ⟨?_, ih.quiet (List.forall_mem_cons.mp quiet).2⟩⟩
  · rw [spares_cons, spares_append]
    exact Traverse.sublistForall₂_append here ih.kept
  · intro entry' there st
    exact (List.forall_mem_cons.mp quiet).1 (stays entry' (Option.mem_toList.mp there) st)

theorem mergeHook_carries {matcher : Option String} {h : TemplateHook}
    (announced : commandIsStable (.str h.command) = some true → stable = true)
    (due : ∀ m : Option Json, m.getD .null = matcher.elim .null .str → ∀ timeout,
      h.fields.get "timeout" = some timeout → Due template event m (.str h.command) timeout)
    {entries entries' : List Json} (went : mergeHook matcher entries h = some entries') :
    Carries host template stable event entries entries' := by
  obtain ⟨installed, -, went⟩ := Option.bind_eq_some_iff.mp went
  split at went
  · split at went
    · next timeout has =>
      cases went
      refine ⟨?_, fun quiet => List.forall_mem_map.mpr fun entry there st =>
        quiet entry there (fillEntry_stable st)⟩
      unfold spares
      rw [List.flatMap_map]
      refine Traverse.sublistForall₂_flatMap (List.forall₂_same.mpr fun entry _ => ?_)
      exact fillEntry_spares (fun m matched => due m matched timeout has) entry
    · cases went
      exact .refl entries
  · have added : entries' = entries ++ [newEntry matcher h] := by
      obtain ⟨emits, -, went⟩ := Option.bind_eq_some_iff.mp went
      cases emits with
      | true =>
        obtain ⟨_, -, went⟩ := Option.bind_eq_some_iff.mp went
        exact (Option.some.inj went).symm
      | false => exact (Option.some.inj went).symm
    subst added
    refine ⟨?_, fun quiet => List.forall_mem_append.mpr
      ⟨quiet, List.forall_mem_singleton.mpr fun st => ?_⟩⟩
    · rw [spares_append]
      exact (List.sublist_append_left _ _).sublistForall₂
    · unfold stableIn at st
      rw [dictHooks_newEntry, List.any_cons, List.any_nil, Bool.or_false, commandOf_template] at st
      exact announced (of_decide_eq_true st)

theorem filterMapM_purgeLegacyEntry_spares {entries kept : List Json}
    (went : entries.filterMapM purgeLegacyEntry = some kept) :
    List.SublistForall₂ (Kept template event) (spares host true event entries)
      (spares host true event kept) := by
  refine Traverse.filterMapM_induction (P := fun entries kept =>
    List.SublistForall₂ (Kept template event) (spares host true event entries)
      (spares host true event kept)) .nil ?_ went
  intro entry entries z kept here ih
  rw [spares_cons, spares_append]
  refine Traverse.sublistForall₂_append ?_ ih
  rcases purgeLegacyEntry_spec here with rfl | ⟨rfl, h, there, legacy⟩
  · rw [Option.toList_some, spares_singleton]
    exact refl _
  · have gone : legacyIn entry = true := List.any_eq_true.mpr ⟨h, there, decide_eq_true legacy⟩
    rw [sparedHooks, spared, gone, Bool.and_self, Bool.not_true, Bool.and_false]
    exact .nil

theorem dedupEntries_spares {entries : List Json} : ∀ {seen kept : List Json},
    dedupEntries host seen entries = some kept →
      List.SublistForall₂ (Kept template event) (spares host stable event entries)
        (spares host stable event kept) := by
  induction entries with
  | nil =>
    rintro seen kept ⟨⟩
    exact .nil
  | cons entry entries ih =>
    intro seen kept went
    rw [spares_cons]
    have stays {kept' : List Json} {seen : List Json}
        (went : (do return entry :: (← dedupEntries host seen entries)) = some kept') :
        List.SublistForall₂ (Kept template event)
          (sparedHooks host stable event entry ++ spares host stable event entries)
          (spares host stable event kept') := by
      obtain ⟨rest, later, same⟩ := Option.bind_eq_some_iff.mp went
      cases same
      exact Traverse.sublistForall₂_append (refl _) (ih later)
    cases entry with
    | obj entry =>
      obtain ⟨owned, were, went⟩ := Option.bind_eq_some_iff.mp went
      cases owned with
      | none => exact stays went
      | some commands =>
        simp only at went
        split at went
        · rw [sparedHooks_of_owned (owned_of_ownedCommands were)]
          exact ih went
        · exact stays went
    | null | bool _ | int _ | float _ | str _ | arr _ => exact stays went

theorem filterMapM_keepsMatcher_spares {entries kept : List Json}
    (went : entries.filterMapM keepsMatcher = some kept) :
    List.SublistForall₂ (Kept template event) (spares host stable "PostToolUse" entries)
      (spares host stable "PostToolUse" kept) := by
  refine Traverse.filterMapM_induction
    (P := fun entries kept => List.SublistForall₂ (Kept template event)
      (spares host stable "PostToolUse" entries) (spares host stable "PostToolUse" kept))
    .nil ?_ went
  intro entry entries z kept here ih
  rw [spares_cons, spares_append]
  refine Traverse.sublistForall₂_append ?_ ih
  cases entry with
  | obj entry =>
    cases here
    split
    · next read =>
      have onRead : matcherOf (.obj entry) = some (.str "Read") := by
        unfold sameMatcher at read
        rw [lookup_eq] at read
        change Dict.get entry "matcher" = _
        cases matcher : Dict.get entry "matcher" with
        | none => rw [matcher] at read; cases read
        | some m =>
          rw [matcher] at read
          cases m with
          | str m => exact congrArg (some <| Json.str ·) (of_decide_eq_true read)
          | null | bool _ | int _ | float _ | arr _ | obj _ => cases read
      rw [sparedHooks, spared, onRead, decide_eq_true rfl, decide_eq_true rfl]
      exact .nil
    · rw [Option.toList_some, spares_singleton]
      exact refl _
  | null | bool _ | int _ | float _ | str _ | arr _ => cases here

end Passes

section Document

variable {host : Host} {template : List TemplateEntry} {stable : Bool} {event : String}
    {keep : List String} {settings settings' : Fields}

/-- Two documents with one value at every key but `hooks`. -/
def SameBeside (settings settings' : Fields) : Prop :=
  ∀ key, key ≠ "hooks" → Dict.get settings' key = Dict.get settings key

theorem sameBeside_set (settings : Fields) (value : Json) :
    SameBeside settings (Dict.set settings "hooks" value) :=
  fun _ other => Dict.get_set_of_ne settings value other

variable (event) in
theorem purgeSuperseded_carries (unique : (Dict.keys (sectionOf settings)).Nodup)
    (went : purgeSuperseded host keep settings = some settings') :
      Carries host template stable event (entriesAt (sectionOf settings) event)
        (entriesAt (sectionOf settings') event) := by
  unfold purgeSuperseded at went
  split at went
  · next sec has =>
    have own : sectionOf settings = sec := by rw [sectionOf, has]
    obtain ⟨kept, purged, same⟩ := Option.bind_eq_some_iff.mp went
    cases same
    rw [sectionOf_set, own]
    rw [own] at unique
    rcases (Dict.get_filterMapM purgeEvent_keyed purged unique).2
      event with ⟨absent, gone⟩ | ⟨value, z, was, turn, now⟩
    · rw [entriesAt, entriesAt, absent, gone]
      exact .refl []
    · rw [entriesAt, entriesAt, was, now]
      cases value with
      | arr entries =>
        obtain ⟨rest, entriesPurged, turn⟩ := Option.bind_eq_some_iff.mp turn
        have carries : Carries host template stable event entries rest :=
          filterMapM_purgeEntry_carries entriesPurged
        split at turn
        · next empty =>
          cases turn
          rw [List.isEmpty_iff.mp empty] at carries
          exact carries
        · cases turn
          exact carries
      | null | bool _ | int _ | float _ | str _ | obj _ =>
        cases turn
        exact .refl []
  · cases went
    exact .refl _

theorem mergeEntry_carries {entry : TemplateEntry} (member : entry ∈ template)
    (announced : entry.event = event →
      ∀ h ∈ entry.hooks, commandIsStable (.str h.command) = some true → stable = true)
    {sec sec' : Fields} (went : mergeEntry sec entry = some sec') :
    Carries host template stable event (entriesAt sec event) (entriesAt sec' event) := by
  unfold mergeEntry at went
  split at went
  · cases went
    exact .refl _
  · obtain ⟨entries, merged, same⟩ := Option.bind_eq_some_iff.mp went
    cases same
    rw [entriesAt_set]
    split
    · next here =>
      subst here
      exact Traverse.rel_foldlM (R := Carries host template stable entry.event) .refl
        (fun _ _ _ => .trans)
        (fun h there _ _ turn => mergeHook_carries (announced rfl h there)
          (fun m matched timeout has => ⟨entry, member, rfl, matched, h, there, rfl, has⟩) turn)
            merged
    · exact .refl _

theorem mergeSettings_carries (announced : ∀ entry ∈ template, entry.event = event →
    ∀ h ∈ entry.hooks, commandIsStable (.str h.command) = some true → stable = true)
    (went : mergeSettings template settings = some settings') :
      Carries host template stable event (entriesAt (sectionOf settings) event)
        (entriesAt (sectionOf settings') event) := by
  obtain ⟨sec, merged, same⟩ := Option.bind_eq_some_iff.mp went
  cases same
  rw [sectionOf_set]
  exact Traverse.rel_foldlM
    (R := fun sec sec' => Carries host template stable event (entriesAt sec event)
      (entriesAt sec' event))
    (fun _ => .refl _) (fun _ _ _ => .trans) (fun entry there _ _ turn =>
      mergeEntry_carries there (announced entry there) turn) merged

variable (host template) in
theorem purgeLegacy_spares (quiet : ∀ entry ∈ entriesAt (sectionOf settings) event, stableIn entry =
    true → stable = true)
    (went : purgeLegacy settings = some settings') :
      List.SublistForall₂ (Kept template event)
        (spares host stable event (entriesAt (sectionOf settings) event))
          (spares host stable event (entriesAt (sectionOf settings') event)) := by
  obtain ⟨sec, purged, same⟩ := Option.bind_eq_some_iff.mp went
  cases same
  rw [sectionOf_set]
  rcases (Dict.get_mapM purgeLegacyEvent_keyed purged).2
    event with ⟨absent, gone⟩ | ⟨value, other, was, turn, now⟩
  · rw [entriesAt, entriesAt, absent, gone]
    exact .nil
  · rw [entriesAt, was] at quiet
    rw [entriesAt, entriesAt, was, now]
    cases value with
    | arr entries =>
      obtain ⟨replaced, tested, turn⟩ := Option.bind_eq_some_iff.mp turn
      cases replaced with
      | true =>
        obtain ⟨kept, entriesPurged, turn⟩ := Option.bind_eq_some_iff.mp turn
        cases turn
        obtain ⟨entry, there, h, hooked, st⟩ := exists_of_eventHasStable tested
        have replacedHere : stable = true :=
          quiet entry there (List.any_eq_true.mpr ⟨h, hooked, decide_eq_true st⟩)
        subst replacedHere
        exact filterMapM_purgeLegacyEntry_spares entriesPurged
      | false =>
        cases turn
        exact refl _
    | null | bool _ | int _ | float _ | str _ | obj _ => exact .nil

theorem dedupHooks_spares (went : dedupHooks host settings = some settings') :
    List.SublistForall₂ (Kept template event)
      (spares host stable event (entriesAt (sectionOf settings) event))
        (spares host stable event (entriesAt (sectionOf settings') event)) := by
  obtain ⟨sec, deduped, same⟩ := Option.bind_eq_some_iff.mp went
  cases same
  rw [sectionOf_set]
  rcases (Dict.get_mapM dedupEvent_keyed deduped).2
    event with ⟨absent, gone⟩ | ⟨value, other, was, turn, now⟩
  · rw [entriesAt, entriesAt, absent, gone]
    exact .nil
  · rw [entriesAt, entriesAt, was, now]
    obtain ⟨entries, iterated, turn⟩ := Option.bind_eq_some_iff.mp turn
    obtain ⟨kept, deduped, turn⟩ := Option.bind_eq_some_iff.mp turn
    cases turn
    cases value with
    | arr _ =>
      cases iterated
      exact dedupEntries_spares deduped
    | null | bool _ | int _ | float _ | str _ | obj _ => exact .nil

theorem purgeRead_spares (went : purgeRead settings = some settings') :
    List.SublistForall₂ (Kept template event)
      (spares host stable event (entriesAt (sectionOf settings) event))
        (spares host stable event (entriesAt (sectionOf settings') event)) := by
  unfold purgeRead at went
  split at went
  · next entries has =>
    obtain ⟨kept, read, same⟩ := Option.bind_eq_some_iff.mp went
    cases same
    rw [sectionOf_set, entriesAt_set]
    split
    · next here =>
      subst here
      rw [entriesAt, has]
      exact filterMapM_keepsMatcher_spares read
    · exact refl _
  · cases went
    exact refl _

theorem purgeSuperseded_beside (went : purgeSuperseded host keep settings = some settings') :
    SameBeside settings settings' := by
  unfold purgeSuperseded at went
  split at went
  · obtain ⟨kept, -, same⟩ := Option.bind_eq_some_iff.mp went
    cases same
    exact sameBeside_set settings _
  · cases went
    exact fun _ _ => rfl

theorem purgeRead_beside (went : purgeRead settings = some settings') :
    SameBeside settings settings' := by
  unfold purgeRead at went
  split at went
  · obtain ⟨kept, -, same⟩ := Option.bind_eq_some_iff.mp went
    cases same
    exact sameBeside_set settings _
  · cases went
    exact fun _ _ => rfl

theorem bind_set_beside {computed : Option Fields}
    (went : (do return Dict.set settings "hooks" (.obj (← computed))) = some settings') :
    SameBeside settings settings' := by
  obtain ⟨sec, -, same⟩ := Option.bind_eq_some_iff.mp went
  cases same
  exact sameBeside_set settings _

theorem sublistForall₂_operatorHooks (entries : List Json) :
    List.SublistForall₂ (Kept template event) (spares host stable event entries)
      (entries.flatMap (operatorHooks host)) := by
  refine Traverse.sublistForall₂_flatMap (List.forall₂_same.mpr fun entry _ => ?_)
  unfold sparedHooks
  split
  · exact refl _
  · exact .nil

end Document

/-- A settings.json, its hooks a dict: no event stands twice. -/
structure Document where
  fields : Fields
  unique : (Dict.keys (sectionOf fields)).Nodup

/-- What an install leaves of a document: every key but `hooks` and `statusLine`, and every hook
that is not Dream Studio's, under its event and matcher and in order, entries of PostToolUse on Read
and entries that hold a replaced one-liner apart. A missing timeout can be filled in. -/
theorem plan_keeps (host : Host) (template : List TemplateEntry) (existing : Document)
    (written : Fields) (planned : plan host .user template existing.fields = some written) :
    (∀ key, key ≠ "hooks" → key ≠ "statusLine" →
      Dict.get written key = Dict.get existing.fields key) ∧
      ∀ event, List.SublistForall₂ (Kept template event)
        (sparedAt host template existing.fields event) (hooksAt host written event) := by
  obtain ⟨existing, unique⟩ := existing
  obtain ⟨purged, first, planned⟩ := Option.bind_eq_some_iff.mp planned
  obtain ⟨merged, second, planned⟩ := Option.bind_eq_some_iff.mp planned
  obtain ⟨current, third, planned⟩ := Option.bind_eq_some_iff.mp planned
  obtain ⟨deduped, fourth, planned⟩ := Option.bind_eq_some_iff.mp planned
  obtain ⟨kept, fifth, planned⟩ := Option.bind_eq_some_iff.mp planned
  rw [if_neg (by decide)] at planned
  cases planned
  have announced (event : String) : ∀ entry ∈ template, entry.event = event → ∀ h ∈ entry.hooks,
      commandIsStable (.str h.command) = some true → stableAt template existing event = true := by
    intro entry there here h hooked st
    refine Bool.or_eq_true_iff.mpr (Or.inr (List.any_eq_true.mpr ⟨entry, there, ?_⟩))
    exact Bool.and_eq_true_iff.mpr
      ⟨decide_eq_true here, List.any_eq_true.mpr ⟨h, hooked, decide_eq_true st⟩⟩
  have quiet (event : String) :
      ∀ entry ∈ entriesAt (sectionOf existing) event, stableIn entry = true →
      stableAt template existing event = true := by
    intro entry there st
    exact Bool.or_eq_true_iff.mpr (Or.inl (List.any_eq_true.mpr ⟨entry, there, st⟩))
  constructor
  · intro key notHooks notStatus
    unfold pop
    rw [Dict.get_filter_key, if_neg notStatus, purgeRead_beside fifth key notHooks,
      bind_set_beside fourth key notHooks,
      bind_set_beside third key notHooks, bind_set_beside second key notHooks,
        purgeSuperseded_beside first key notHooks]
  · intro event
    have carries := (purgeSuperseded_carries event unique first).trans
      (mergeSettings_carries (announced event) second)
    have sparedThird := purgeLegacy_spares host template (carries.quiet (quiet event)) third
    unfold hooksAt
    rw [sectionOf_pop]
    refine trans_of (List.SublistForall₂ (Kept template event)) carries.kept ?_
    refine trans_of (List.SublistForall₂ (Kept template event)) sparedThird ?_
    refine trans_of (List.SublistForall₂ (Kept template event)) (dedupHooks_spares fourth) ?_
    exact trans_of (List.SublistForall₂ (Kept template event)) (purgeRead_spares fifth)
      (sublistForall₂_operatorHooks _)

def laptop : Host where
  configRoot := ["home", "me", ".claude"]
  head _ := none

def stopTemplate (command : String) : List TemplateEntry :=
  [⟨"Stop", none, [⟨[("command", .str command), ("timeout", .int 60)], command, rfl⟩]⟩]

def configured : Document where
  fields := [("statusLine", .str "line.sh"), ("hooks", .obj [
    ("PostToolUse",
      .arr
      [.obj [("matcher", .str "Read"), ("hooks", .arr [.obj [("command", .str "guard.sh")]])]]),
    ("Stop", .arr [.obj [("hooks", .arr [.obj [("command", .str "notify.sh")]])]]),
    ("Notification", .obj [("hooks", .arr [.obj [("command", .str "ring.sh")]])]),
    ("SessionEnd", .arr [.obj [("hooks", .obj [("command", .str "log.sh")])]])])]
  unique := by decide +kernel

theorem configured_planned :
    (plan laptop .user (stopTemplate "notify.sh") configured.fields).isSome = true := by
  decide +kernel

theorem plan_keeps_configured :
    ∃ written, plan laptop .user (stopTemplate "notify.sh") configured.fields = some written ∧
    ∀ event, List.SublistForall₂ (Kept (stopTemplate "notify.sh") event)
      (sparedAt laptop (stopTemplate "notify.sh") configured.fields event)
        (hooksAt laptop written event) := by
  obtain ⟨written, planned⟩ := Option.isSome_iff_exists.mp configured_planned
  exact ⟨written, planned,
    (plan_keeps laptop (stopTemplate "notify.sh") configured written planned).2⟩

/-- The status line goes, as does the guard on Read, the notification is given the template's
timeout, and of what is no list the keys are left. -/
theorem configured_changed :
    ∃ written, plan laptop .user (stopTemplate "notify.sh") configured.fields = some written ∧
    Dict.get written "statusLine" ≠ Dict.get configured.fields "statusLine" ∧
    (∀ event ∈ ["PostToolUse", "Stop"],
      ¬(hooksAt laptop configured.fields event).Sublist (hooksAt laptop written event)) ∧
    ∀ event ∈ ["Notification", "SessionEnd"],
      Dict.get (sectionOf written) event ≠ Dict.get (sectionOf configured.fields) event := by
  refine ⟨(plan laptop .user (stopTemplate "notify.sh") configured.fields).get configured_planned,
    (Option.some_get _).symm, ?_, ?_, ?_⟩
  · decide +kernel
  · decide +kernel
  · decide +kernel

end DreamStudio.Settings
