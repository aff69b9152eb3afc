import DreamStudio.Review.Trail

namespace DreamStudio.Review

open Library

def isSeatKey (key : String) : Bool := startsWith key "seat:"

/-- No reviewer is named like the key of a seat. -/
def Request.Named (q : Request) : Prop :=
  ∀ slot ∈ q.assignments, ∀ r ∈ slot.reviewer, isSeatKey r = false

instance (q : Request) : Decidable q.Named :=
  inferInstanceAs (Decidable (∀ slot ∈ q.assignments, ∀ r ∈ slot.reviewer, isSeatKey r = false))

/-- The slot is that of the reviewer, or of the seat without one, that the owner key stands for. -/
def Slot.HeldBy (slot : Slot) (key : String) : Prop :=
  if isSeatKey key then slot.reviewer.getD "" = "" ∧ "seat:" ++ slot.seat.getD "None" = key
  else slot.reviewer = some key

structure Keyed (slots : Slots) : Prop where
  unique : (Dict.keys slots).Nodup
  held : ∀ item ∈ slots, item.2.HeldBy item.1

def Assigned (slots : Slots) (key lane : String) : Prop :=
  ∃ slot, Dict.get slots key = some slot ∧ lane ∈ slot.lanes

section Slots

theorem isSeatKey_seat (seat : String) : isSeatKey ("seat:" ++ seat) = true :=
  startsWith_append "seat:" seat

theorem heldBy_ownerKey {slot : Slot} (named : ∀ r, slot.reviewer = some r → isSeatKey r = false) :
    slot.HeldBy (ownerKey slot.reviewer slot.seat) := by
  unfold Slot.HeldBy ownerKey
  split
  next r whose =>
    split
    next someone => rw [if_neg (by simp [named r whose]), whose]
    next nobody =>
      rw [if_pos (isSeatKey_seat _)]
      exact ⟨by simpa [whose] using nobody, rfl⟩
  next whose =>
    rw [if_pos (isSeatKey_seat _)]
    exact ⟨by simp [whose], rfl⟩

theorem heldBy_ownerSlot (key : String) : (ownerSlot key).HeldBy key := by
  unfold Slot.HeldBy ownerSlot isSeatKey
  split
  next seat => exact ⟨rfl, append_removePrefix seat⟩
  next => rfl

theorem Keyed.set {slots : Slots} (keyed : Keyed slots) {key : String} {slot : Slot}
    (held : slot.HeldBy key) : Keyed (Dict.set slots key slot) where
  unique := Dict.keys_set_nodup keyed.unique key slot
  held item hitem := by
    rcases Dict.mem_set hitem with hitem | rfl
    · exact keyed.held item hitem
    · exact held

theorem keyed_requestedSlots {assignments : List Slot}
    (named : ∀ slot ∈ assignments, ∀ r, slot.reviewer = some r → isSeatKey r = false) :
    Keyed (requestedSlots assignments) := by
  unfold requestedSlots
  have start : Keyed [] := ⟨List.nodup_nil, fun _ h => absurd h List.not_mem_nil⟩
  generalize ([] : Slots) = slots at start ⊢
  induction assignments generalizing slots with
  | nil => exact start
  | cons slot rest ih =>
    obtain ⟨here, later⟩ := List.forall_mem_cons.mp named
    have held : Slot.HeldBy ⟨slot.reviewer, slot.seat, sortedSet slot.lanes, none⟩
        (ownerKey slot.reviewer slot.seat) := heldBy_ownerKey here
    exact ih later _ (start.set held)

section Carry

variable {fresh : Slot} {key lane : String} {state : Slots × List String}

theorem keyed_carry (held : fresh.HeldBy key) (keyed : Keyed state.1) :
    Keyed (carry fresh key lane state).1 := by
  have slot : ((Dict.get state.1 key).getD fresh).HeldBy key := by
    cases found : Dict.get state.1 key with
    | none => exact held
    | some slot => exact keyed.held _ (Dict.mem_of_get found)
  unfold carry
  simp only
  split
  · exact keyed.set slot
  · exact keyed.set slot

theorem assigned_carry : Assigned (carry fresh key lane state).1 key lane := by
  unfold carry
  simp only
  split
  next => exact ⟨_, Dict.get_set_self .., by simp [List.mem_insertionSort]⟩
  next already => exact ⟨_, Dict.get_set_self .., not_not.mp already⟩

theorem Assigned.carry {k l : String} (h : Assigned state.1 k l) :
    Assigned (carry fresh key lane state).1 k l := by
  obtain ⟨slot, found, holds⟩ := h
  by_cases same : k = key
  · subst same
    unfold Review.carry
    simp only [found, Option.getD_some]
    split
    · exact ⟨_, Dict.get_set_self .., by simp [List.mem_insertionSort, holds]⟩
    · exact ⟨_, Dict.get_set_self .., holds⟩
  · refine ⟨slot, ?_, holds⟩
    unfold Review.carry
    simp only
    split <;> rw [Dict.get_set_of_ne _ _ same, found]

end Carry

theorem carryFindings_spec {findings : List (String × Standing)}
    (named : ∀ f ∈ findings, f.1 ≠ "" ∧ isSeatKey f.1 = false) {state : Slots × List String}
    (keyed : Keyed state.1) :
    Keyed (carryFindings findings state).1 ∧
      (∀ k l, Assigned state.1 k l → Assigned (carryFindings findings state).1 k l) ∧
      ∀ f ∈ findings, Assigned (carryFindings findings state).1 f.1 f.2.lane := by
  unfold carryFindings
  induction findings generalizing state with
  | nil => exact ⟨keyed, fun _ _ h => h, by simp⟩
  | cons f findings ih =>
    obtain ⟨⟨someone, here⟩, later⟩ := List.forall_mem_cons.mp named
    have key : ownerKey (some f.1) none = f.1 := by simp [ownerKey, someone]
    have held : ({ reviewer := some f.1, seat := none, lanes := [] } : Slot).HeldBy f.1 := by
      simp [Slot.HeldBy, here]
    rw [List.foldl_cons, key]
    have next : Keyed (carry _ f.1 f.2.lane state).1 := keyed_carry held keyed
    obtain ⟨keyed', kept, carried⟩ := ih later next
    refine ⟨keyed', fun k l h => kept k l h.carry, List.forall_mem_cons.mpr ⟨?_, carried⟩⟩
    exact kept _ _ assigned_carry

theorem carryReferee_ok {awaiting : List Filed} {owned : Dict String (List String)}
    {state state' : Slots × List String} (h : carryReferee awaiting owned state = .ok state')
    (keyed : Keyed state.1) :
    Keyed state'.1 ∧ (∀ k l, Assigned state.1 k l → Assigned state'.1 k l) ∧
      (awaiting ≠ [] → ∃ referee, refereeOwner owned = some referee ∧
        Assigned state'.1 referee refereeLane) := by
  unfold carryReferee at h
  split at h
  next none =>
    cases h
    exact ⟨keyed, fun _ _ h => h, fun some => absurd none some⟩
  next =>
    split at h
    · cases h
    next referee owner =>
      cases h
      exact ⟨keyed_carry (heldBy_ownerSlot referee) keyed, fun _ _ h => h.carry,
        fun _ => ⟨referee, owner, assigned_carry⟩⟩

def Asks (assignments : List Slot) (key lane : String) : Prop :=
  ∃ slot ∈ assignments, slot.HeldBy key ∧ lane ∈ slot.lanes

theorem pinModel_keeps (models : Dict String String) (slot : Slot) :
    (pinModel models slot).reviewer = slot.reviewer ∧ (pinModel models slot).seat = slot.seat ∧
      (pinModel models slot).lanes = slot.lanes := by
  unfold pinModel
  split
  · split
    · split <;> exact ⟨rfl, rfl, rfl⟩
    · exact ⟨rfl, rfl, rfl⟩
  · exact ⟨rfl, rfl, rfl⟩

@[simp] theorem heldBy_pinModel (models : Dict String String) (slot : Slot) (key : String) :
    (pinModel models slot).HeldBy key ↔ slot.HeldBy key := by
  obtain ⟨reviewer, seat, -⟩ := pinModel_keeps models slot
  rw [Slot.HeldBy, Slot.HeldBy, reviewer, seat]

theorem Slot.HeldBy.reviewer {slot : Slot} {key r : String} (held : slot.HeldBy key)
    (whose : slot.reviewer = some r) : isSeatKey r = false ∧ (r ≠ "" → r = key) := by
  unfold Slot.HeldBy at held
  split at held
  · rw [whose] at held
    have nobody : r = "" := held.1
    subst nobody
    exact ⟨rfl, fun someone => absurd rfl someone⟩
  next reviewer =>
    rw [whose] at held
    cases held
    exact ⟨by simpa using reviewer, fun _ => rfl⟩

section Arrange

variable {models : Dict String String} {slots : Slots}

theorem mem_arrange {slot : Slot} :
    slot ∈ arrange models slots ↔ ∃ item ∈ slots, pinModel models item.2 = slot := by
  simp [arrange, List.mem_insertionSort]

theorem Assigned.asks {key lane : String} (keyed : Keyed slots) (h : Assigned slots key lane) :
    Asks (arrange models slots) key lane := by
  obtain ⟨slot, found, holds⟩ := h
  have item := Dict.mem_of_get found
  refine ⟨_, mem_arrange.mpr ⟨_, item, rfl⟩, (heldBy_pinModel ..).mpr (keyed.held _ item), ?_⟩
  rw [(pinModel_keeps ..).2.2]
  exact holds

theorem Keyed.reviewer {slot : Slot} {r : String} (keyed : Keyed slots)
    (h : slot ∈ arrange models slots) (whose : slot.reviewer = some r) : isSeatKey r = false := by
  obtain ⟨item, hitem, rfl⟩ := mem_arrange.mp h
  rw [(pinModel_keeps ..).1] at whose
  exact ((keyed.held item hitem).reviewer whose).1

theorem Keyed.one {slot slot' : Slot} {r : String} (keyed : Keyed slots) (someone : r ≠ "")
    (h : slot ∈ arrange models slots) (whose : slot.reviewer = some r)
    (h' : slot' ∈ arrange models slots) (whose' : slot'.reviewer = some r) : slot = slot' := by
  obtain ⟨item, hitem, rfl⟩ := mem_arrange.mp h
  obtain ⟨item', hitem', rfl⟩ := mem_arrange.mp h'
  rw [(pinModel_keeps ..).1] at whose whose'
  have key := ((keyed.held item hitem).reviewer whose).2 someone
  have key' := ((keyed.held item' hitem').reviewer whose').2 someone
  rw [List.inj_on_of_nodup_map keyed.unique hitem hitem' (key.symm.trans key')]

end Arrange

theorem mem_dispatchedLanes {d : Dispatch} {r lane : String} (asks : Asks d.assignments r lane)
    (reviewer : isSeatKey r = false)
    (one : ∀ slot ∈ d.assignments, ∀ slot' ∈ d.assignments, slot.reviewer = some r →
      slot'.reviewer = some r → slot = slot') : lane ∈ dispatchedLanes (some d) r := by
  obtain ⟨slot, hslot, held, holds⟩ := asks
  have whose : slot.reviewer = some r := by simpa [Slot.HeldBy, reviewer] using held
  unfold dispatchedLanes
  cases found : d.assignments.find? fun slot => slot.reviewer = some r with
  | none => exact absurd whose (by simpa using List.find?_eq_none.mp found slot hslot)
  | some slot' =>
    have whose' : slot'.reviewer = some r := by simpa using List.find?_some found
    have same := one slot hslot slot' (List.mem_of_find?_eq_some found) whose whose'
    simpa [found, ← same] using holds

end Slots

section Rounds

variable {env : Env} {l l' : Ledger} {q : Request} {assignments : List Slot} {carried : List String}

/-- No reviewer on record, and none asked, is nameless or named like a seat. -/
structure Ledger.Named (l : Ledger) : Prop where
  recorded : ∀ r, l.history r ≠ [] → r ≠ "" ∧ isSeatKey r = false
  asked : ∀ d, l.dispatch = some d → ∀ slot ∈ d.assignments, ∀ r, slot.reviewer = some r →
    isSeatKey r = false
  issued : ∀ d, l.dispatch = some d → Dict.get d.credentialHashes "" = none

theorem Ledger.Named.findings (named : l.Named) :
    ∀ f ∈ openFindings l, f.1 ≠ "" ∧ isSeatKey f.1 = false := by
  intro f hf
  refine named.recorded f.1 fun none => ?_
  have stands := (mem_openFindings_iff.mp hf).1
  rw [none] at stands
  cases stands

/-- What a resolved round asks. -/
structure Carries (l : Ledger) (q : Request) (d : Dispatch) : Prop where
  reviewers : ∀ slot ∈ d.assignments, ∀ r, slot.reviewer = some r → isSeatKey r = false
  findings : ∀ f ∈ openFindings l, f.2.lane ∈ dispatchedLanes (some d) f.1
  referee : awaitingReferee l ≠ [] → ∃ referee, refereeOwner q.owned = some referee ∧
    Asks d.assignments referee refereeLane

theorem resolveRoundContent_ok (ledger : l.Named) (named : q.Named)
    (h : resolveRoundContent l q.assignments q.owned q.models = .ok (assignments, carried))
    {d : Dispatch} (same : d.assignments = assignments) : Carries l q d := by
  unfold resolveRoundContent at h
  obtain ⟨⟨slots, lanes⟩, referred, h⟩ := bind_eq_ok.mp h
  cases h
  have start : Keyed (requestedSlots q.assignments, ([] : List String)).1 :=
    keyed_requestedSlots named
  obtain ⟨keyed, -, findings⟩ := carryFindings_spec ledger.findings start
  obtain ⟨keyed, kept, referee⟩ := carryReferee_ok referred keyed
  constructor
  · rw [same]
    exact fun slot hslot r whose => keyed.reviewer hslot whose
  · intro f hf
    obtain ⟨someone, reviewer⟩ := ledger.findings f hf
    refine mem_dispatchedLanes ?_ reviewer ?_
    · rw [same]
      exact (kept _ _ (findings f hf)).asks keyed
    · rw [same]
      exact fun slot hslot slot' hslot' whose whose' =>
        keyed.one someone hslot whose hslot' whose'
  · intro awaits
    obtain ⟨key, owner, assigned⟩ := referee awaits
    exact ⟨key, owner, same ▸ assigned.asks keyed⟩

theorem recordDispatch_carries (ledger : l.Named) (named : q.Named) {response : DispatchResponse}
    (h : recordDispatch env l q = .ok (response, l')) :
    l'.docs = l.docs ∧ ∃ d, l'.dispatch = some d ∧ Carries l q d := by
  obtain ⟨assignments, carried, resolves, ⟨prior, standing, repeats, -, rfl⟩ | ⟨-, rfl⟩⟩ :=
    recordDispatch_ok h
  · have same : prior.assignments = assignments := by
      simp only [Request.repeats, Bool.and_eq_true, decide_eq_true_eq] at repeats
      exact repeats.1.2
    exact ⟨rfl, prior, standing, resolveRoundContent_ok ledger named resolves.content same⟩
  · exact ⟨rfl, _, rfl, resolveRoundContent_ok ledger named resolves.content rfl⟩

theorem recordDispatch_unowned (awaits : awaitingReferee l ≠ [])
    (unowned : refereeOwner q.owned = none) :
    ∃ err, recordDispatch env l q = .error err := by
  cases outcome : recordDispatch env l q with
  | error err => exact ⟨err, rfl⟩
  | ok result =>
    obtain ⟨assignments, carried, resolves, -⟩ := recordDispatch_ok outcome
    have content := resolves.content
    unfold resolveRoundContent carryReferee at content
    simp [awaits, unowned, bind, Except.bind] at content

end Rounds

section Steps

variable {env : Env} {t u : Trail} {a : Action}

def Action.Named : Action → Prop
  | .dispatch q => q.Named
  | .record _ => True

instance : (a : Action) → Decidable a.Named
  | .dispatch q => inferInstanceAs (Decidable q.Named)
  | .record _ => inferInstanceAs (Decidable True)

theorem get_issueCredentials_empty (token : String → String) (assignments : List Slot) :
    Dict.get (issueCredentials token assignments) "" = none := by
  unfold issueCredentials
  apply List.foldlRecOn (motive := fun credentials => Dict.get credentials "" = none)
  · rfl
  · intro credentials none slot _
    split
    · split
      next someone => rw [Dict.get_set_of_ne _ _ (Ne.symm someone), none]
      next => exact none
    · exact none

theorem named_step (ledger : t.ledger.Named) (named : a.Named)
    (h : (reviews env).step t a = some u) : u.ledger.Named := by
  cases step_cases h with
  | same => exact ledger
  | @opened q assignments carried resolves =>
    have carries := resolveRoundContent_ok ledger named resolves.content
      (d := openRound env t.ledger q assignments carried) rfl
    refine ⟨ledger.recorded, ?_, ?_⟩
    · rintro _ ⟨⟩
      exact carries.reviewers
    · rintro _ ⟨⟩
      unfold openRound
      rw [Dict.get_map_values, get_issueCredentials_empty]
      rfl
  | @added c p s prepared _ _ =>
    have admitted := prepare_ok prepared
    refine ⟨fun r answered => ?_, ledger.asked, ledger.issued⟩
    rw [history_write] at answered
    split at answered
    next whose =>
      subst whose
      refine ⟨?_, ?_⟩
      · intro nobody
        have hash := admitted.credential
        rw [nobody, ledger.issued _ admitted.dispatch] at hash
        cases hash
      · have asked := admitted.asked
        rw [admitted.assigned, dispatchedLanes] at asked
        cases found : p.dispatch.assignments.find? fun slot => slot.reviewer = some c.reviewer with
        | none => simp [found] at asked
        | some slot =>
          exact ledger.asked _ admitted.dispatch slot (List.mem_of_find?_eq_some found) _
            (by simpa using List.find?_some found)
    next => exact ledger.recorded r answered

theorem filed_step (h : (reviews env).step t a = some u) :
    ∀ f ∈ t.ledger.filed, f ∈ u.ledger.filed := by
  cases step_cases h with
  | same => exact fun _ h => h
  | opened => exact fun _ h => h
  | @added c p s =>
    intro f hf
    obtain ⟨x, hx, round, hentry⟩ := mem_filed_iff.mp hf
    refine mem_filed_iff.mpr ⟨x, ?_, round, hentry⟩
    rw [history_write]
    split
    next whose => exact List.mem_append_left _ (whose ▸ hx)
    next => exact hx

end Steps

section Runs

variable {env : Env} {project : Option String} {ls ms : List Action} {s t : Trail}

theorem named_run (named : ∀ a ∈ ls, a.Named)
    (reach : (reviews env).run (.start project) ls = some t) :
    t.ledger.Named := by
  refine (reviews env).run_invariant_of_guarded (J := fun t => t.ledger.Named)
    (G := fun _ a _ => a.Named) (fun _ _ _ ledger named step => named_step ledger named step) ?_
    (fun x hx => named _ ((reviews env).label_mem_of_mem_transitions hx)) reach
  exact ⟨fun _ some => absurd rfl some, fun _ h => (nomatch h), fun _ h => (nomatch h)⟩

/-- In a ledger where no reviewer is named like a seat, a dispatch that returns leaves every open
finding's lane with the reviewer that found it; and a replacement filed in a round is waited for,
the review blocking, every dispatch that returns asking the referee's lane of its owner, and none
returning where it has no owner, until a pass on that lane is filed in a later round. -/
theorem holds_never_lapse (named : ∀ a ∈ ls, a.Named) (named' : ∀ a ∈ ms, a.Named)
    (reach : (reviews env).run (.start project) ls = some s)
    (reach' : (reviews env).run s ms = some t) :
    (∀ q : Request, q.Named → ∀ response l, recordDispatch env t.ledger q = .ok (response, l) →
      ∀ f ∈ openFindings l, f.2.lane ∈ dispatchedLanes l.dispatch f.1) ∧
    ∀ f ∈ s.ledger.filed, f.isReplacement = true →
      (∃ g ∈ t.ledger.filed, g.isRefereePass = true ∧ f.round < g.round) ∨
      (reviewStatus t.ledger).blocking = true ∧
        (∀ q : Request, q.Named → ∀ response l, recordDispatch env t.ledger q = .ok (response, l) →
          ∃ d owner, l.dispatch = some d ∧ refereeOwner q.owned = some owner ∧
            Asks d.assignments owner refereeLane) ∧
        ∀ q : Request, refereeOwner q.owned = none →
          (∃ err, recordDispatch env t.ledger q = .error err) ∧ dispatchStep env t q = t := by
  have ledger : t.ledger.Named := by
    have whole : (reviews env).run (.start project) (ls ++ ms) = some t := by
      rw [Machine.run_append, reach]
      exact reach'
    exact named_run (fun a ha => (List.mem_append.mp ha).elim (named a) (named' a)) whole
  refine ⟨fun q named response l returned f hf => ?_, fun f hf replaced => ?_⟩
  · obtain ⟨docs, d, standing, carries⟩ := recordDispatch_carries ledger named returned
    have same : openFindings l = openFindings t.ledger := by
      rw [openFindings, recordedAnswers, docs]
      rfl
    rw [standing]
    exact carries.findings f (same ▸ hf)
  · have filed : f ∈ t.ledger.filed :=
      ((reviews env).rel_of_mem_transitions
        (R := fun s t => ∀ f ∈ s.ledger.filed, f ∈ t.ledger.filed)
        (fun _ _ h => h) (fun _ _ _ h h' f hf => h' f (h f hf))
        (fun _ _ _ step => filed_step step) reach').1 f hf
    by_cases released : ∃ g ∈ t.ledger.filed, g.isRefereePass = true ∧ f.round < g.round
    · exact Or.inl released
    · refine Or.inr ?_
      have awaits : awaitingReferee t.ledger ≠ [] := by
        refine List.ne_nil_of_mem (a := f) (mem_awaitingReferee_iff.mpr ⟨filed, replaced, ?_⟩)
        exact fun g hg passes => not_lt.mp fun later => released ⟨g, hg, passes, later⟩
      refine ⟨blocking_of_awaitingReferee awaits, fun q named response l returned => ?_,
        fun q unowned => ?_⟩
      · obtain ⟨-, d, standing, carries⟩ := recordDispatch_carries ledger named returned
        obtain ⟨owner, owns, asks⟩ := carries.referee awaits
        exact ⟨d, owner, standing, owns, asks⟩
      · obtain ⟨err, raised⟩ : ∃ err, recordDispatch env t.ledger q = .error err :=
          recordDispatch_unowned awaits unowned
        refine ⟨⟨err, raised⟩, ?_⟩
        unfold dispatchStep
        rw [raised]

def replacedRun : List Action :=
  let lanes := [("ada", ["ui"]), ("ref", ["evidence-referee"])]
  let runner : String → String → Run := fun image _ =>
    { exitCode := some (if image = "lane:a1" then 1 else 0) }
  [
    dispatchTo "a1" lanes, recordBy "ada" "a1/ada" runner [answerOn "ui" "finding" "pytest" 1],
    dispatchTo "b2" lanes,
    recordBy "ada" "b2/ada" runner [answerOn "ui" "pass" "pytest" 0 "pytest new"]]

theorem holds_never_lapse_replacedRun :
    ∃ t, (reviews sampleEnv).run (.start (some "p")) replacedRun = some t ∧
      (reviewStatus t.ledger).blocking = true ∧
      ∀ q : Request, refereeOwner q.owned = none → dispatchStep sampleEnv t q = t := by
  have reach : (reviews sampleEnv).run (.start (some "p")) replacedRun = some _ := rfl
  refine ⟨_, reach, ?_⟩
  obtain ⟨-, held⟩ := holds_never_lapse (by decide) (fun _ h => absurd h List.not_mem_nil) reach
    (Machine.run_nil _ _)
  have filed : ((reviews sampleEnv).run (.start (some "p")) replacedRun).any
      (·.ledger.filed.any Filed.isReplacement) = true := by decide
  obtain ⟨f, hf, replaced⟩ := List.any_eq_true.mp filed
  rcases held f hf replaced with ⟨g, hg, passes, -⟩ | ⟨blocking, -, unowned⟩
  · exact absurd (List.any_eq_true.mpr ⟨g, hg, passes⟩) (by decide)
  · exact ⟨blocking, fun q h => (unowned q h).2⟩

def seatNamedRun : List Action := [
  dispatchTo "a1" [("seat:ops", ["api"])],
  recordBy "seat:ops" "a1/seat:ops" (fun _ _ => { exitCode := some 1 })
    [answerOn "api" "finding" "pytest" 1]]

/-- The next dispatch to that seat leaves its reviewer without the lane. -/
theorem seat_named_finding_dropped :
    ∃ t, (reviews sampleEnv).run (.start (some "p")) seatNamedRun = some t ∧
      ∃ q response l, recordDispatch sampleEnv t.ledger q = .ok (response, l) ∧
        ∃ f ∈ openFindings l, f.2.lane ∉ dispatchedLanes l.dispatch f.1 := by
  let q : Request := {
    sha := "b2", image := "lane:b2", changeSet := .arr [], models := [], token := ("b2/" ++ ·)
    assignments := [{ reviewer := none, seat := some "ops", lanes := ["api"] }]
    owned := [("seat:ops", ["api"])], now := "" }
  exact ⟨_, rfl, q, _, _, rfl, by decide⟩

end Runs

end DreamStudio.Review
