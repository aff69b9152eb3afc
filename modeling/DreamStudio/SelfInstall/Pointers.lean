import DreamStudio.SelfInstall.Home

namespace DreamStudio.SelfInstall

open Library

namespace Home

/-- `installed-version` names the app. -/
def Names (h : Home) (id : String) : Prop := ∃ c, h.installed = .text c ∧ c.appId = id

structure Sane (h : Home) : Prop where
  live : ∀ id, h.current = some id → (h.appRecord id).isSome = true
  records : ∀ id c, h.appRecord id = some c → c.appId = id
  first : h.current = none → h.previous = .absent

/-- The pointers name what they should. -/
structure Usable (h : Home) : Prop where
  complete : ∀ id, h.current = some id → (h.appRecord id).isSome = true
  installed : ∀ id, h.current = some id → h.Names id
  previous : h.previous = .absent ∨
    ∃ id, h.previous = .text id ∧ (h.appRecord id).isSome = true ∧ h.current ≠ some id

/-- Another app is live. -/
def Moves (h : Home) (id : String) : Prop := ∃ live, h.current = some live ∧ live ≠ id

def Safe (h : Home) (id : String) : Option ActivateFault → Prop
  | some (.previous true) => ¬h.Moves id
  | some (.switch .removeStaged) => h.staged = none ∨ ¬h.Moves id
  | some (.switch _) => ¬h.Moves id
  | some .stateDir => h.Names id
  | some (.installedVersion false) => h.Names id
  | some (.installedVersion true) => False
  | _ => True

def Breaks (h : Home) (id : String) : Option BuildFault → Prop
  | none => False
  | some (.removal _ _) => (h.apps id).isSome = true
  | some _ => True

end Home

def Install.Reaches (i : Install) (h : Home) : Prop :=
  i.refusal = none ∧ i.prepared = true ∧
    ((h.appRecord i.commit.appId).isSome = true ∨ ¬h.Breaks i.commit.appId i.build)

def Rollback.Reaches (r : Rollback) (h : Home) (id : String) : Prop :=
  r.refusal = none ∧ r.prepared = true ∧ h.previous = .text id ∧ isAppId id = true ∧
    (h.appRecord id).isSome = true

def Home.Harmless (h : Home) : Run → Prop
  | .install i => i.Reaches h → h.Safe i.commit.appId i.activation
  | .rollback r => ∀ id, r.Reaches h id → h.Safe id r.activation

namespace Home

variable {h h' : Home} {id : String} {c : Commit}

section Build

structure Builds (h h' : Home) : Prop where
  current : h'.current = h.current
  staged : h'.staged = h.staged
  previous : h'.previous = h.previous
  installed : h'.installed = h.installed
  kept : ∀ id c, h.appRecord id = some c → h'.appRecord id = some c
  fresh : ∀ id c, h'.appRecord id = some c → h.appRecord id = some c ∨ c.appId = id

theorem Builds.refl (h : Home) : h.Builds h :=
  ⟨rfl, rfl, rfl, rfl, fun _ _ => id, fun _ _ => Or.inl⟩

theorem appRecord_setApp (h : Home) (id other : String) (app : Option App) :
    (h.setApp id app).appRecord other =
    if other = id then app.bind fun app => if app.python then app.record else none else
      h.appRecord other := by
  change (Function.update h.apps id app other).bind _ = _
  by_cases same : other = id
  · rw [if_pos same, same, Function.update_self]
  · rw [if_neg same, Function.update_of_ne same]
    rfl

theorem builds_setApp (incomplete : h.appRecord id = none) {app : Option App}
    (own : ∀ c, (app.bind fun app => if app.python then app.record else none) = some c →
      c.appId = id) :
    h.Builds (h.setApp id app) where
  current := rfl
  staged := rfl
  previous := rfl
  installed := rfl
  kept other c held := by
    rw [appRecord_setApp, if_neg]
    · exact held
    · rintro rfl
      rw [incomplete] at held
      cases held
  fresh other c held := by
    rw [appRecord_setApp] at held
    split at held
    · next same => exact Or.inr (same ▸ own c held)
    · exact Or.inl held

theorem remains_incomplete {app : App} (there : h.apps id = some app)
    (incomplete : h.appRecord id = none) (record python : Bool) :
    (if (remains app record python).python then (remains app record python).record else none) =
      none := by
  simp only [appRecord, there, Option.bind_some] at incomplete
  unfold remains
  cases had : app.python with
  | false => rfl
  | true =>
    simp only [had, if_true] at incomplete
    cases record <;> cases python <;> simp [incomplete]

theorem Sane.not_live (sane : h.Sane) (incomplete : h.appRecord id = none) :
    h.liveAppRefusal id = none := by
  refine if_neg fun live => ?_
  have complete := sane.live id live.2
  rw [incomplete] at complete
  cases complete

theorem buildApp_spec (sane : h.Sane) (incomplete : h.appRecord c.appId = none)
    (fault : Option BuildFault) :
    h.Builds (h.buildApp fault c).1 ∧ ((h.buildApp fault c).2 = true ↔ ¬h.Breaks c.appId fault) ∧
      ((h.buildApp fault c).2 = true → (h.buildApp fault c).1.appRecord c.appId = some c) := by
  have dead : (h.liveAppRefusal c.appId).isSome = false := by rw [sane.not_live incomplete]; rfl
  have gone : h.Builds (h.setApp c.appId none) := builds_setApp incomplete nofun
  have made : h.Builds (h.setApp c.appId (some ⟨some c, true⟩)) := by
    refine builds_setApp incomplete fun c' same => ?_
    cases same
    rfl
  have record : (h.setApp c.appId (some ⟨some c, true⟩)).appRecord c.appId = some c := by
    rw [appRecord_setApp, if_pos rfl]
    rfl
  unfold buildApp Breaks
  rw [dead]
  match fault with
  | none => exact ⟨made, iff_of_true rfl id, fun _ => record⟩
  | some .appRoot => exact ⟨.refl h, iff_of_false nofun fun h => h trivial, nofun⟩
  | some .buildDir => exact ⟨gone, iff_of_false nofun fun h => h trivial, nofun⟩
  | some .inside => exact ⟨gone, iff_of_false nofun fun h => h trivial, nofun⟩
  | some .cleanup => exact ⟨made, iff_of_false nofun fun h => h trivial, nofun⟩
  | some (.removal record' python) =>
    cases there : h.apps c.appId with
    | none => exact ⟨made, iff_of_true rfl nofun, fun _ => record⟩
    | some app =>
      refine ⟨builds_setApp incomplete fun c' same => ?_, iff_of_false nofun fun h => h rfl, nofun⟩
      rw [Option.bind_some, remains_incomplete there incomplete] at same
      cases same

end Build

theorem Builds.sane (builds : h.Builds h') (sane : h.Sane) : h'.Sane where
  live id live := by
    rw [builds.current] at live
    obtain ⟨c, record⟩ := Option.isSome_iff_exists.mp (sane.live id live)
    rw [builds.kept id c record]
    rfl
  records id c record := (builds.fresh id c record).elim (sane.records id c) fun own => own
  first none := by
    rw [builds.current] at none
    rw [builds.previous, sane.first none]

theorem Builds.usable (builds : h.Builds h') (usable : h.Usable) : h'.Usable where
  complete id live := by
    rw [builds.current] at live
    obtain ⟨c, record⟩ := Option.isSome_iff_exists.mp (usable.complete id live)
    rw [builds.kept id c record]
    rfl
  installed id live := by
    rw [builds.current] at live
    rw [Names, builds.installed]
    exact usable.installed id live
  previous := by
    rw [builds.previous, builds.current]
    refine usable.previous.imp_right fun ⟨id, named, complete, other⟩ => ⟨id, named, ?_, other⟩
    obtain ⟨c, record⟩ := Option.isSome_iff_exists.mp complete
    rw [builds.kept id c record]
    rfl

theorem Builds.safe_iff (builds : h.Builds h') (id : String) (fault : Option ActivateFault) :
    h'.Safe id fault ↔ h.Safe id fault := by
  unfold Safe Moves Names
  rw [builds.current, builds.staged, builds.installed]

section Activate

variable {fault : Option ActivateFault}

theorem not_moves_iff : ¬h.Moves id ↔ h.current = none ∨ h.current = some id := by
  unfold Moves
  cases h.current with
  | none => simp
  | some live => simp [eq_comm]

theorem switchCurrent_cases (fault : Option SwitchFault) (id : String) (h : Home) :
    (h.switchCurrent fault id = ({ h with current := some id, staged := none }, true) ∧
        (fault = none ∨ fault = some .removeStaged ∧ h.staged = none)) ∨
      (∃ staged, h.switchCurrent fault id = ({ h with staged := staged }, false) ∧
        (fault = some .makeLink ∨ fault = some .swap ∨ fault = some .removeStaged ∧
          h.staged ≠ none)) := by
  unfold switchCurrent
  match fault with
  | none => exact Or.inl ⟨rfl, Or.inl rfl⟩
  | some .makeLink => exact Or.inr ⟨none, rfl, Or.inl rfl⟩
  | some .swap => exact Or.inr ⟨some id, rfl, Or.inr (Or.inl rfl)⟩
  | some .removeStaged =>
    cases staged : h.staged with
    | none => exact Or.inl ⟨rfl, Or.inr ⟨rfl, rfl⟩⟩
    | some old =>
      refine Or.inr ⟨some old, ?_, Or.inr (Or.inr ⟨rfl, nofun⟩)⟩
      rw [if_pos ⟨rfl, rfl⟩, ← staged]

/-- An app to go back to is recorded where another one is live. -/
def recorded (h : Home) (id : String) : Home :=
  match h.current with
  | none => h
  | some live => if live = id then h else { h with previous := .text live }

theorem recordPrevious_cases (fault : Option ActivateFault) (id : String) (h : Home) :
    (h.recordPrevious fault id = (h.recorded id, true) ∧
        ((∀ truncates, fault ≠ some (.previous truncates)) ∨ ¬h.Moves id)) ∨
      h.Moves id ∧ (fault = some (.previous false) ∧ h.recordPrevious fault id = (h, false) ∨
        fault = some (.previous true) ∧ h.recordPrevious fault id =
          ({ h with previous := .empty }, false)) := by
  unfold recordPrevious recorded
  cases current : h.current with
  | none => exact Or.inl ⟨rfl, Or.inr (not_moves_iff.mpr (Or.inl current))⟩
  | some live =>
    by_cases same : live = id
    · refine Or.inl ⟨?_, Or.inr (not_moves_iff.mpr (Or.inr (same ▸ current)))⟩
      simp only [if_pos same]
    · have moves : h.Moves id := ⟨live, current, same⟩
      simp only [if_neg same]
      match fault with
      | some (.previous true) => exact Or.inr ⟨moves, Or.inr ⟨rfl, rfl⟩⟩
      | some (.previous false) => exact Or.inr ⟨moves, Or.inl ⟨rfl, rfl⟩⟩
      | none | some (.switch _) | some .stateDir | some (.installedVersion _) | some .launcher =>
        exact Or.inl ⟨rfl, Or.inl nofun⟩

theorem recorded_of_not_moves (stays : ¬h.Moves id) : h.recorded id = h := by
  unfold recorded
  rcases not_moves_iff.mp stays with none | live
  · rw [none]
  · rw [live]
    exact if_pos rfl

theorem recorded_of_live {live : String} (current : h.current = some live) (other : live ≠ id) :
    h.recorded id = { h with previous := .text live } := by
  unfold recorded
  rw [current]
  exact if_neg other

theorem recorded_spec (h : Home) (id : String) :
    (h.recorded id).current = h.current ∧ (h.recorded id).staged = h.staged ∧
      (h.recorded id).installed = h.installed ∧
      (∀ other, (h.recorded id).appRecord other = h.appRecord other) ∧
      ((∃ live, h.current = some live ∧ live ≠ id ∧ (h.recorded id).previous = .text live) ∨
        ¬h.Moves id ∧ h.recorded id = h) := by
  by_cases moves : h.Moves id
  · obtain ⟨live, current, other⟩ := moves
    rw [recorded_of_live current other]
    exact ⟨rfl, rfl, rfl, fun _ => rfl, Or.inl ⟨live, current, other, rfl⟩⟩
  · rw [recorded_of_not_moves moves]
    exact ⟨rfl, rfl, rfl, fun _ => rfl, Or.inr ⟨moves, rfl⟩⟩

/-- What `installed-version` holds after the switch. -/
def announced (h : Home) (c : Commit) : Option ActivateFault → Marker Commit
  | some .stateDir => h.installed
  | some (.installedVersion false) => h.installed
  | some (.installedVersion true) => .empty
  | _ => .text c

theorem announced_congr (same : h'.installed = h.installed) (fault : Option ActivateFault) :
    h'.announced c fault = h.announced c fault := by
  unfold announced
  rw [same]

/-- After the switch only `installed-version` is written. -/
theorem announce_spec (fault : Option ActivateFault) (c : Commit) (h : Home) :
    (h.announce fault c).1.current = h.current ∧ (h.announce fault c).1.previous = h.previous ∧
      (∀ other, (h.announce fault c).1.appRecord other = h.appRecord other) ∧
      (h.announce fault c).1.installed = h.announced c fault := by
  match fault with
  | none | some (.previous _) | some (.switch _) | some .stateDir | some (.installedVersion true)
  | some (.installedVersion false) | some .launcher => exact ⟨rfl, rfl, fun _ => rfl, rfl⟩

/-- Where the switch is made, only `installed-version` decides. -/
theorem announced_usable (sane : h.Sane) (usable : h.Usable)
    (complete : (h.appRecord id).isSome = true) {after : Home} (current : after.current = some id)
    (previous : after.previous = (h.recorded id).previous)
    (records : ∀ other, after.appRecord other = h.appRecord other) :
    after.Usable ↔ after.Names id := by
  constructor
  · exact fun usable => usable.installed id current
  · intro names
    refine ⟨fun live same => ?_, fun live same => ?_, ?_⟩
    · rw [current] at same
      rw [← Option.some.inj same, records, complete]
    · rw [current] at same
      exact Option.some.inj same ▸ names
    · rw [current, previous]
      rcases (recorded_spec h id).2.2.2.2 with ⟨live, was, other, text⟩ | ⟨stays, same⟩
      · refine Or.inr ⟨live, text, ?_, fun same => other (Option.some.inj same).symm⟩
        rw [records]
        exact usable.complete live was
      · rw [same]
        rcases not_moves_iff.mp stays with none | live
        · exact Or.inl (sane.first none)
        · refine usable.previous.imp_right fun ⟨back, text, complete, apart⟩ =>
            ⟨back, text, ?_, live ▸ apart⟩
          rw [records]
          exact complete

theorem staged_usable {staged : Option String} :
    ({ h with staged := staged } : Home).Usable ↔ h.Usable :=
  ⟨fun u => ⟨u.complete, u.installed, u.previous⟩, fun u => ⟨u.complete, u.installed, u.previous⟩⟩

theorem staged_sane {staged : Option String} (sane : h.Sane) :
    ({ h with staged := staged } : Home).Sane :=
  ⟨sane.live, sane.records, sane.first⟩

theorem Sane.recorded (sane : h.Sane) (id : String) : (h.recorded id).Sane := by
  obtain ⟨current, -, -, records, previous⟩ := recorded_spec h id
  refine ⟨fun live same => ?_, fun other c same => ?_, fun none => ?_⟩
  · rw [records]
    exact sane.live live (current ▸ same)
  · exact sane.records other c (records other ▸ same)
  · rcases previous with ⟨live, was, -⟩ | ⟨-, same⟩
    · rw [current, was] at none
      cases none
    · rw [same] at none ⊢
      exact sane.first none

theorem not_usable_recorded (moves : h.Moves id) : ¬(h.recorded id).Usable := by
  intro usable
  obtain ⟨current, -, -, -, ⟨live, was, -, text⟩ | ⟨stays, -⟩⟩ := recorded_spec h id
  · rcases usable.previous with absent | ⟨back, named, -, apart⟩
    · rw [text] at absent
      cases absent
    · rw [text] at named
      cases named
      exact apart (current.trans was)
  · exact stays moves

/-- How an activation ends. -/
inductive Ends (h : Home) (id : String) (c : Commit) (fault : Option ActivateFault) : Home → Prop
  | switched {h' : Home} (current : h'.current = some id)
    (previous : h'.previous = (h.recorded id).previous)
    (records : ∀ other, h'.appRecord other = h.appRecord other)
    (installed : h'.installed = h.announced c fault)
    (safe : h.Safe id fault ↔ (∃ c', h.announced c fault = .text c' ∧ c'.appId = id)) :
    h.Ends id c fault h'
  | stayed {staged : Option String} (safe : h.Safe id fault ↔ ¬h.Moves id) :
      h.Ends id c fault { h.recorded id with staged := staged }
  | unwritten (safe : h.Safe id fault) : h.Ends id c fault h
  | emptied (moves : h.Moves id) (harmful : ¬h.Safe id fault) :
    h.Ends id c fault { h with previous := .empty }

theorem safe_iff_announced (own : c.appId = id)
    (kept : (∀ truncates, fault ≠ some (.previous truncates)) ∨ ¬h.Moves id)
    (unhurt : fault.bind (·.inSwitch) = none ∨ fault.bind (·.inSwitch) = some .removeStaged ∧
      h.staged = none) :
    h.Safe id fault ↔ ∃ c', h.announced c fault = .text c' ∧ c'.appId = id := by
  have written : ∃ c', Marker.text c = .text c' ∧ c'.appId = id := ⟨c, rfl, own⟩
  match fault with
  | none | some .launcher | some (.previous false) => exact iff_of_true trivial written
  | some (.previous true) => exact iff_of_true (kept.resolve_left fun no => no true rfl) written
  | some (.switch .removeStaged) => exact iff_of_true (Or.inl (unhurt.resolve_left nofun).2) written
  | some (.switch .makeLink) | some (.switch .swap) =>
    rcases unhurt with no | ⟨no, -⟩
    · cases no
    · cases no
  | some .stateDir | some (.installedVersion false) => exact Iff.rfl
  | some (.installedVersion true) => exact iff_of_false (fun no => no) fun ⟨_, text, _⟩ => nomatch text

theorem safe_iff_not_moves (hurt : fault.bind (·.inSwitch) = some .makeLink ∨
    fault.bind (·.inSwitch) = some .swap ∨
    fault.bind (·.inSwitch) = some .removeStaged ∧ h.staged ≠ none) :
    h.Safe id fault ↔ ¬h.Moves id := by
  match fault with
  | some (.switch .makeLink) | some (.switch .swap) => exact Iff.rfl
  | some (.switch .removeStaged) =>
    rcases hurt with no | no | ⟨-, there⟩
    · cases no
    · cases no
    · exact or_iff_right there
  | none | some (.previous _) | some .stateDir | some (.installedVersion _) | some .launcher =>
    rcases hurt with no | no | ⟨no, -⟩ <;> cases no

theorem activate_ends (own : c.appId = id) (fault : Option ActivateFault) :
    h.Ends id c fault (h.activate fault id c).1 := by
  unfold activate andThen
  rcases recordPrevious_cases fault id h with ⟨went, kept⟩ | ⟨moves, ⟨rfl, left⟩ | ⟨rfl, left⟩⟩
  · rw [went]
    simp only
    obtain ⟨-, staged, installed, records, -⟩ := recorded_spec h id
    rcases switchCurrent_cases (fault.bind (·.inSwitch)) id (h.recorded id) with
      ⟨switched, unhurt⟩ | ⟨staged', left, hurt⟩
    · rw [switched]
      rw [staged] at unhurt
      obtain ⟨current, previous, records', announced⟩ :=
        announce_spec fault c { h.recorded id with current := some id, staged := none }
      refine .switched current previous (fun other => (records' other).trans (records other)) ?_
        (safe_iff_announced own kept unhurt)
      rw [announced]
      exact announced_congr installed fault
    · rw [left]
      rw [staged] at hurt
      exact .stayed (safe_iff_not_moves hurt)
  · rw [left]
    exact .unwritten trivial
  · rw [left]
    exact .emptied moves fun stays => stays moves

theorem Ends.sane (ends : h.Ends id c fault h') (sane : h.Sane)
    (complete : (h.appRecord id).isSome = true) : h'.Sane := by
  cases ends with
  | switched current previous records installed safe =>
    refine ⟨fun live now => ?_, fun other c now => sane.records other c (records other ▸ now),
      fun none => ?_⟩
    · rw [current] at now
      rw [records, ← Option.some.inj now, complete]
    · rw [current] at none
      cases none
  | stayed safe => exact staged_sane (sane.recorded id)
  | unwritten safe => exact sane
  | emptied moves _ =>
    refine ⟨sane.live, sane.records, fun none => ?_⟩
    obtain ⟨live, was, -⟩ := moves
    rw [was] at none
    cases none

theorem Ends.usable_iff (ends : h.Ends id c fault h') (sane : h.Sane) (usable : h.Usable)
    (complete : (h.appRecord id).isSome = true) : h'.Usable ↔ h.Safe id fault := by
  cases ends with
  | switched current previous records installed safe =>
    refine (announced_usable sane usable complete current previous records).trans ?_
    rw [safe, Names, installed]
  | stayed safe =>
    rw [staged_usable, safe]
    by_cases moves : h.Moves id
    · exact iff_of_false (not_usable_recorded moves) fun stays => stays moves
    · rw [recorded_of_not_moves moves]
      exact iff_of_true usable moves
  | unwritten safe => exact iff_of_true usable safe
  | emptied moves harmful =>
    refine iff_of_false (fun usable => ?_) harmful
    rcases usable.previous with absent | ⟨_, text, -⟩
    · cases absent
    · cases text

end Activate

section Runs

variable {i : Install} {r : Rollback}

theorem ofActivation_fst (result : Home × Bool) : (Reply.ofActivation result).1 = result.1 := by
  rcases result with ⟨h, _ | _⟩ <;> rfl

/-- A run of `self_install` leaves the pointers to a build, or activates its app. -/
inductive Installs (h : Home) (i : Install) : Home → Prop
  | stopped {h' : Home} (builds : h.Builds h') (short : ¬i.Reaches h) : h.Installs i h'
  | activated {built h' : Home} (builds : h.Builds built) (reaches : i.Reaches h)
      (complete : (built.appRecord i.commit.appId).isSome = true)
      (ends : built.Ends i.commit.appId i.commit i.activation h') : h.Installs i h'

theorem selfInstall_installs (sane : h.Sane) (i : Install) : h.Installs i (h.selfInstall i).1 := by
  unfold selfInstall
  cases refusal : i.refusal with
  | some error => exact .stopped (.refl h) fun reaches => nomatch refusal ▸ reaches.1
  | none =>
    cases complete : (h.appRecord i.commit.appId).isSome with
    | true =>
      simp only [complete, if_true]
      cases prepared : i.prepared with
      | false => exact .stopped (.refl h) fun reaches => nomatch prepared ▸ reaches.2.1
      | true =>
        rw [if_pos rfl, ofActivation_fst]
        exact .activated (.refl h) ⟨refusal, prepared, Or.inl complete⟩ complete
          (activate_ends rfl _)
    | false =>
      have incomplete := Option.isSome_eq_false_iff.mp complete
      obtain ⟨builds, through, made⟩ :=
        buildApp_spec sane (Option.isNone_iff_eq_none.mp incomplete) i.build
      simp only [complete, Bool.false_eq_true, if_false,
        sane.not_live (Option.isNone_iff_eq_none.mp incomplete)]
      cases build : h.buildApp i.build i.commit with
      | mk built went =>
        rw [build] at builds through made
        cases went with
        | false =>
          refine .stopped builds fun reaches => ?_
          rcases reaches.2.2 with there | unbroken
          · rw [complete] at there
            cases there
          · exact nomatch through.mpr unbroken
        | true =>
          cases prepared : i.prepared with
          | false => exact .stopped builds fun reaches => nomatch prepared ▸ reaches.2.1
          | true =>
            simp only [if_true, ofActivation_fst]
            refine .activated builds ⟨refusal, prepared, Or.inr (through.mp rfl)⟩ ?_
              (activate_ends rfl _)
            rw [made rfl]
            rfl

/-- A run of `rollback` does nothing, or activates the app it goes back to. -/
inductive GoesBack (h : Home) (r : Rollback) : Home → Prop
  | stayed (short : ∀ id, ¬r.Reaches h id) : h.GoesBack r h
  | activated {id : String} {c : Commit} {h' : Home} (reaches : r.Reaches h id)
      (ends : h.Ends id c r.activation h') : h.GoesBack r h'

theorem rollback_goesBack (sane : h.Sane) (r : Rollback) : h.GoesBack r (h.rollback r).1 := by
  unfold rollback
  cases previous : h.previous with
  | absent => exact .stayed fun id reaches => nomatch previous ▸ reaches.2.2.1
  | empty => exact .stayed fun id reaches => nomatch previous ▸ reaches.2.2.1
  | text back =>
    have own {id : String} (reaches : r.Reaches h id) : id = back :=
      (Marker.text.inj (previous.symm.trans reaches.2.2.1)).symm
    cases named : isAppId back with
    | false =>
      simp only [named, Bool.not_false, if_true]
      refine .stayed fun id reaches => ?_
      rw [own reaches] at reaches
      exact nomatch named ▸ reaches.2.2.2.1
    | true =>
      cases record : h.appRecord back with
      | none =>
        simp only [named, record, Bool.not_true, Bool.false_eq_true, if_false]
        refine .stayed fun id reaches => ?_
        rw [own reaches] at reaches
        exact nomatch record ▸ reaches.2.2.2.2
      | some c =>
        cases refusal : r.refusal with
        | some error =>
          simp only [named, record, Bool.not_true, Bool.false_eq_true, if_false]
          exact .stayed fun id reaches => nomatch refusal ▸ reaches.1
        | none =>
          simp only [named, record, Bool.not_true, Bool.false_eq_true, if_false]
          cases prepared : r.prepared with
          | false => exact .stayed fun id reaches => nomatch prepared ▸ reaches.2.1
          | true =>
            rw [if_pos rfl, ofActivation_fst]
            refine .activated ⟨refusal, prepared, previous, named, ?_⟩
              (activate_ends (sane.records back c record) _)
            rw [record]
            rfl

theorem after_sane (sane : h.Sane) : (run : Run) → (h.after run).Sane
  | .install i => by
    change (h.selfInstall i).1.Sane
    cases selfInstall_installs sane i with
    | stopped builds _ => exact builds.sane sane
    | activated builds _ complete ends => exact ends.sane (builds.sane sane) complete
  | .rollback r => by
    change (h.rollback r).1.Sane
    generalize (h.rollback r).1 = h', rollback_goesBack sane r = goes
    cases goes with
    | stayed _ => exact sane
    | activated reaches ends => exact ends.sane sane reaches.2.2.2.2

theorem after_usable_iff (sane : h.Sane) (usable : h.Usable) :
    (run : Run) → ((h.after run).Usable ↔ h.Harmless run)
  | .install i => by
    change (h.selfInstall i).1.Usable ↔ (i.Reaches h → h.Safe i.commit.appId i.activation)
    cases selfInstall_installs sane i with
    | stopped builds short => exact iff_of_true (builds.usable usable) fun reaches => absurd reaches short
    | activated builds reaches complete ends =>
      rw [ends.usable_iff (builds.sane sane) (builds.usable usable) complete, builds.safe_iff]
      exact ⟨fun safe _ => safe, fun safe => safe reaches⟩
  | .rollback r => by
    change (h.rollback r).1.Usable ↔ ∀ id, r.Reaches h id → h.Safe id r.activation
    generalize (h.rollback r).1 = h', rollback_goesBack sane r = goes
    cases goes with
    | stayed short => exact iff_of_true usable fun id reaches => absurd reaches (short id)
    | activated reaches ends =>
      rw [ends.usable_iff sane usable reaches.2.2.2.2]
      refine ⟨fun safe other there => ?_, fun safe => safe _ reaches⟩
      rw [Marker.text.inj (there.2.2.1.symm.trans reaches.2.2.1)]
      exact safe

end Runs

def fresh (path : String) : Home := { path }

theorem fresh_sane (path : String) : (fresh path).Sane := ⟨nofun, nofun, fun _ => rfl⟩

theorem fresh_usable (path : String) : (fresh path).Usable := ⟨nofun, nofun, Or.inl rfl⟩

end Home

/-- In any sequence of runs on one home the pointers stay right exactly if no run activates an app
and fails where that is not safe. -/
theorem pointers_iff (path : String) (runs : List Run) :
    (∀ x ∈ machine.transitions (.fresh path) runs, x.after.Usable) ↔
      ∀ x ∈ machine.transitions (.fresh path) runs, x.before.Harmless x.label := by
  refine machine.forall_after_iff_forall_guard (J := Home.Sane) (P := Home.Usable)
    (C := Home.Harmless) ?_ ?_
    (Home.fresh_sane path) (Home.fresh_usable path) runs
  · rintro h run _ sane ⟨⟩
    exact Home.after_sane sane run
  · rintro h run _ sane usable ⟨⟩
    exact Home.after_usable_iff sane usable run

/-- A link that cannot be replaced leaves the live app recorded as the one to go back to. -/
theorem failed_swap_unusable :
    ¬∀ (path : String) (runs : List Run), ∀ x ∈ machine.transitions (.fresh path) runs,
      x.after.Usable := by
  intro kept
  let older : Run := .install { commit := ⟨"1.0.0", "0123456789"⟩ }
  let newer : Run := .install { commit := ⟨"1.1.0", "abcdef0123"⟩, activation := some (.switch .swap) }
  let h := ((Home.fresh "/home/me/.ds").after older).after newer
  have usable : h.Usable :=
    kept "/home/me/.ds" [older, newer] ⟨_, newer, h⟩ (List.mem_cons_of_mem _ List.mem_cons_self)
  have live : h.current = some "1.0.0-0123456789" := by decide +kernel
  have back : h.previous = .text "1.0.0-0123456789" := by decide +kernel
  rcases usable.previous with absent | ⟨id, named, -, apart⟩
  · rw [back] at absent
    cases absent
  · rw [back] at named
    cases named
    exact apart live

end DreamStudio.SelfInstall
