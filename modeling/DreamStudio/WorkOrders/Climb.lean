import DreamStudio.WorkOrders.Ladder

namespace DreamStudio.WorkOrders.Ladder

open Library

variable {int : ParseInt} {w : String} {s t : System}

namespace Authority

/-- The row of a work order; one without a row counts as a blank one. -/
def row (db : Authority) (w : String) : Escalation := (db.readEscalation w).getD {}

theorem row_set (db : Authority) (v : String) (e : Escalation) (w : String) :
    row { db with escalations := db.escalations.set v e } w = if w = v then e else db.row w := by
  simp only [row, readEscalation, Dict.get_set]
  split <;> rfl

theorem row_registerRetry (db : Authority) (v : String) (environ : Option String) (w : String) :
    (db.registerRetry int v environ).1.row w =
      if w = v then { db.row v with retryCount := (db.row v).retryCount + 1 } else db.row w :=
  row_set db v _ w

theorem row_markEscalated (db : Authority) (v reason executor w : String) :
    (db.markEscalated v reason executor).row w =
      if w = v then
        { db.row v with
          escalationLevel := (db.row v).escalationLevel + 1
          designatedExecutor := some executor
          lastReason := some reason }
      else db.row w :=
  row_set db v _ w

theorem resolveExecutor_eq (db : Authority) (w default : String) :
    db.resolveExecutor w default =
      (((db.row w).designatedExecutor).filter (· ≠ "")).getD default := by
  cases h : db.readEscalation w <;> simp [resolveExecutor, row, h]

theorem get_recordEscalationArtifact (db : Authority) (v instanceKey reason now : String)
    (k : String × String) (other : k ≠ (v, instanceKey)) :
    (db.recordEscalationArtifact v instanceKey reason now).artifacts.get k = db.artifacts.get k :=
  Dict.get_set_of_ne _ _ other

theorem get_resolveEscalation (db : Authority) {v : String} (instanceKey : Option String)
    (now note : String) {k : String × String} (other : k.1 ≠ v) :
    (db.resolveEscalation v instanceKey now note).1.artifacts.get k = db.artifacts.get k := by
  apply List.foldlRecOn (motive := fun found => Dict.get found k = db.artifacts.get k)
  · rfl
  · intro found same r _
    rw [Dict.get_set_of_ne _ _ (fun h => other (congrArg Prod.fst h))]
    exact same

/-- An unresolved escalation of the work order is listed for the operator. -/
def Open (db : Authority) (w : String) : Prop :=
  ∃ listed ∈ db.listEscalations, listed.workOrderId = .str w

def OpenAt (db : Authority) (w instanceKey : String) : Prop :=
  ∃ a, db.artifacts.get (w, instanceKey) = some a ∧
    isUnresolved (parseEscalationArtifact w instanceKey a).status = true ∧
      (parseEscalationArtifact w instanceKey a).workOrderId = .str w

theorem OpenAt.open {db : Authority} {instanceKey : String} (h : db.OpenAt w instanceKey) :
    db.Open w := by
  obtain ⟨a, found, unresolved, names⟩ := h
  refine ⟨parseEscalationArtifact w instanceKey a, ?_, names⟩
  simp only [listEscalations, Bool.false_or, List.mem_filter, List.mem_map, List.mem_mergeSort]
  exact ⟨⟨((w, instanceKey), a), Dict.mem_of_get found, rfl⟩, unresolved⟩

theorem openAt_recorded (db : Authority) (named : w ≠ "") (instanceKey reason now : String) :
    (db.recordEscalationArtifact w instanceKey reason now).OpenAt w instanceKey := by
  refine ⟨_, Dict.get_set_self _ _ _, ?_, ?_⟩
  · simp [parseEscalationArtifact, Artifact.fields, Json.lookup, Json.or, isUnresolved]
  · simp [parseEscalationArtifact, Artifact.fields, Json.lookup, Json.or, named]

theorem OpenAt.recorded {db : Authority} {instanceKey : String} (h : db.OpenAt w instanceKey)
    (named : w ≠ "") (v other reason now : String) :
    (db.recordEscalationArtifact v other reason now).OpenAt w instanceKey := by
  by_cases same : (w, instanceKey) = (v, other)
  · cases same
    exact openAt_recorded db named _ reason now
  · obtain ⟨a, found, rest⟩ := h
    exact ⟨a, (get_recordEscalationArtifact db v other reason now _ same).trans found, rest⟩

theorem OpenAt.resolved {db : Authority} {instanceKey v : String} (h : db.OpenAt w instanceKey)
    (other : v ≠ w) (keyed : Option String) (now note : String) :
    (db.resolveEscalation v keyed now note).1.OpenAt w instanceKey := by
  obtain ⟨a, found, rest⟩ := h
  exact ⟨a, (get_resolveEscalation db keyed now note other.symm).trans found, rest⟩

end Authority

theorem proceed_cases {e f : Evaluator} {goes : Bool} {now : String} {db db' : Authority}
    (h : e.proceed goes now db = some (f, db')) :
    (e.place = .reopening ∧ goes = true ∧ f = { e with place := .marking } ∧
      db' = db.reopenWorkOrder e.workOrderId) ∨
    (e.place = .marking ∧ goes = true ∧ f = { e with place := .recording "outcome" e.reason } ∧
      db' = db.markEscalated e.workOrderId e.reason) ∨
    (∃ instanceKey reason, e.place = .recording instanceKey reason ∧ goes = true ∧
      f = { e with place := .done } ∧
      db' = db.recordEscalationArtifact e.workOrderId instanceKey reason now) ∨
    (goes = false ∧ f = { e with place := .done } ∧ db' = db) := by
  unfold Evaluator.proceed at h
  cases place : e.place with
  | reopening =>
    cases goes <;> simp only [place, Option.some.injEq, Bool.false_eq_true, if_false, if_true,
      Prod.mk.injEq] at h
    · exact .inr (.inr (.inr ⟨rfl, h.1.symm, h.2.symm⟩))
    · exact .inl ⟨rfl, rfl, h.1.symm, h.2.symm⟩
  | marking =>
    cases goes <;> simp only [place, Option.some.injEq, Bool.false_eq_true, if_false, if_true,
      Prod.mk.injEq] at h
    · exact .inr (.inr (.inr ⟨rfl, h.1.symm, h.2.symm⟩))
    · exact .inr (.inl ⟨rfl, rfl, h.1.symm, h.2.symm⟩)
  | recording instanceKey reason =>
    cases goes <;> simp only [place, Option.some.injEq, Bool.false_eq_true, if_false, if_true,
      Prod.mk.injEq] at h
    · exact .inr (.inr (.inr ⟨rfl, h.1.symm, h.2.symm⟩))
    · exact .inr (.inr (.inl ⟨instanceKey, reason, rfl, rfl, h.1.symm, h.2.symm⟩))
  | done => simp [place] at h

theorem proceed_eq_some {i : Nat} {goes : Bool} {now : String}
    (h : step int s (.proceed i goes now) = some t) :
    ∃ e f db, s.inFlight[i]? = some e ∧ e.proceed goes now s.authority = some (f, db) ∧
      t = ⟨db, s.inFlight.set i f⟩ := by
  obtain ⟨e, here, moved⟩ := Option.bind_eq_some_iff.mp h
  obtain ⟨⟨f, db⟩, proceeded, rfl⟩ := Option.map_eq_some_iff.mp moved
  exact ⟨e, f, db, here, proceeded, rfl⟩

theorem evaluate_eq_some {v : String} {failures : List String} {environ : Option String}
    (h : step int s (.evaluate v failures environ true) = some t) :
    t.authority = (s.authority.registerRetry int v environ).1 ∧
      t.inFlight = s.inFlight ++ [⟨v, failureReason failures,
        (s.authority.registerRetry int v environ).2.place (failureReason failures)⟩] := by
  cases h
  exact ⟨rfl, rfl⟩

section Serial

variable {db : Authority} {flights : List Evaluator}

/-- The run ends with this authority and calls that are done behind the ones in flight. -/
def Ends (int : ParseInt) (s : System) (acts : List Act) (db : Authority) : Prop :=
  ∃ more, (ladder int).run s acts = some ⟨db, s.inFlight ++ more⟩ ∧ ∀ e ∈ more, e.place = .done

theorem reopenAndEscalate_ends (int : ParseInt) (db : Authority)
    (flights : List Evaluator) (w : String) (failures : List String) (environ : Option String)
    (now : String) (goes : Goes) :
    ∃ acts, Ends int ⟨db, flights⟩ acts
      (reopenAndEscalate int db w failures environ now goes).1 := by
  obtain ⟨registers, reopens, marks, records⟩ := goes
  let last := flights.length
  cases registers with
  | false =>
    exact ⟨[.evaluate w failures environ false], [], by simp [ladder, step, reopenAndEscalate],
      List.forall_mem_nil _⟩
  | true =>
    cases capped : (db.registerRetry int w environ).2.capped with
    | true =>
      refine ⟨[.evaluate w failures environ true, .proceed last records now],
        [⟨w, failureReason failures, .done⟩], ?_, by simp⟩
      cases records <;>
        simp [ladder, step, reopenAndEscalate, Authority.Retry.place, capped, last,
          Evaluator.proceed]
    | false =>
      have place : (db.registerRetry int w environ).2.place (failureReason failures) =
          .reopening := by simp [Authority.Retry.place, capped]
      refine ⟨.evaluate w failures environ true :: .proceed last reopens now ::
        (if reopens then .proceed last marks now ::
          (if marks then [.proceed last records now] else []) else []),
        [⟨w, failureReason failures, .done⟩], ?_, by simp⟩
      cases reopens <;> cases marks <;> cases records <;>
        simp [ladder, step, reopenAndEscalate, place, capped, last, Evaluator.proceed]

theorem runOutcomeEval_ends (p : Pass) :
    ∃ acts, Ends int ⟨db, flights⟩ acts (runOutcomeEval int p db).1 := by
  unfold runOutcomeEval
  generalize db.outcomeRows p.cutoff = rows
  generalize ([] : List Outcome) = outcomes
  induction rows generalizing db flights outcomes with
  | nil => exact ⟨[], [], by simp, List.forall_mem_nil _⟩
  | cons w rows ih =>
    rw [List.foldl_cons, Pass.visit]
    split
    · obtain ⟨acts, more, ran, done⟩ :=
        reopenAndEscalate_ends int db flights w (p.failures db w) p.environ p.now (p.goes w)
      obtain ⟨acts', more', ran', done'⟩ := @ih _ (flights ++ more) _
      refine ⟨acts ++ acts', more ++ more', ?_, ?_⟩
      · rw [Machine.run_append, ran, Option.bind_some, ran', List.append_assoc]
      · exact List.forall_mem_append.mpr ⟨done, done'⟩
    · exact ih _

end Serial

section Cap

def allowance (c : Int) (w : String) (s : System) : Nat :=
  ((c - 1).toNat - (s.authority.row w).retryCount) +
    s.inFlight.countP fun e => e.workOrderId = w && e.place = .reopening

def reopens (w : String) (x : Machine.Transition System Act) : Bool :=
  match x.label with
  | .proceed i goes _ =>
    goes && (x.before.inFlight[i]?).any fun e => e.workOrderId = w && e.place = .reopening
  | _ => false

/-- An evaluation of the work order reads a cap of at most `c`. -/
def ReadsAtMost (int : ParseInt) (c : Int) (w : String) (s : System) : Act → Prop
  | .evaluate v _ environ _ => v = w → getRetryCap int environ s.authority.config ≤ c
  | _ => True

theorem retryCount_proceed {e f : Evaluator} {goes : Bool} {now : String} {db db' : Authority}
    (h : e.proceed goes now db = some (f, db')) (w : String) :
    (db'.row w).retryCount = (db.row w).retryCount := by
  obtain ⟨-, -, -, rfl⟩ | ⟨-, -, -, rfl⟩ | ⟨_, _, -, -, -, rfl⟩ | ⟨-, -, rfl⟩ := proceed_cases h
  · rfl
  · rw [Authority.row_markEscalated]
    split
    next same => rw [same]
    next => rfl
  · rfl
  · rfl

theorem allowance_evaluate {c : Int} {v : String} {failures : List String}
    {environ : Option String} {goes : Bool}
    (reads : v = w → getRetryCap int environ s.authority.config ≤ c)
    (h : step int s (.evaluate v failures environ goes) = some t) :
    allowance c w t ≤ allowance c w s := by
  cases goes with
  | false =>
    cases h
    exact Nat.le_refl _
  | true =>
    obtain ⟨authority, inFlight⟩ := evaluate_eq_some h
    rw [allowance, authority, inFlight, Authority.row_registerRetry, List.countP_append,
      List.countP_singleton, allowance]
    by_cases same : w = v
    · subst same
      have reads := reads rfl
      -- the retry is counted either way, and the call may reopen only below the cap
      have granted : ((s.authority.registerRetry int w environ).2.place (failureReason failures) =
          .reopening) → (s.authority.row w).retryCount + 1 < c := by
        intro reopening
        have below : ¬getRetryCap int environ s.authority.config ≤
            ((s.authority.row w).retryCount + 1 : Nat) := by
          intro capped
          simp [Authority.Retry.place, Authority.registerRetry, Authority.row] at reopening capped
          omega
        omega
      rw [if_pos rfl]
      split
      next here =>
        simp only [decide_true, Bool.true_and, decide_eq_true_eq] at here
        have := granted here
        simp only
        omega
      next => simp only; omega
    · rw [if_neg same, if_neg (by simp [Ne.symm same])]
      exact Nat.le_refl _

theorem allowance_proceed {c : Int} {i : Nat} {goes : Bool} {now : String}
    (h : step int s (.proceed i goes now) = some t) :
    (if reopens w ⟨s, .proceed i goes now, t⟩ then 1 else 0) + allowance c w t ≤
      allowance c w s := by
  obtain ⟨e, f, db, here, proceeded, rfl⟩ := proceed_eq_some h
  obtain ⟨inside, rfl⟩ := List.getElem?_eq_some_iff.mp here
  have counts := retryCount_proceed proceeded w
  have place : f.place ≠ .reopening := by
    obtain ⟨-, -, rfl, -⟩ | ⟨-, -, rfl, -⟩ | ⟨_, _, -, -, rfl, -⟩ | ⟨-, rfl, -⟩ :=
      proceed_cases proceeded <;> simp
  simp only [allowance, counts, reopens, here, Option.any_some, List.countP_set inside, place,
    decide_false, Bool.and_false]
  cases held : (decide (s.inFlight[i].workOrderId = w) &&
    decide (s.inFlight[i].place = Place.reopening)) with
  | false => simp
  | true =>
    have some_held : 0 < s.inFlight.countP fun e => e.workOrderId = w && e.place = .reopening :=
      List.countP_pos_iff.mpr ⟨_, List.getElem_mem inside, held⟩
    cases goes <;> simp only [Bool.false_and, Bool.true_and, if_true, Bool.false_eq_true, if_false]
      <;>
      omega

theorem allowance_step {c : Int} {l : Act} (reads : ReadsAtMost int c w s l)
    (h : step int s l = some t) :
    (if reopens w ⟨s, l, t⟩ then 1 else 0) + allowance c w t ≤ allowance c w s := by
  cases l with
  | evaluate v failures environ goes => simpa [reopens] using allowance_evaluate reads h
  | proceed i goes now => exact allowance_proceed h
  | resolve v instanceKey now note =>
    cases h
    simp [reopens, allowance, Authority.row, Authority.readEscalation, Authority.resolveEscalation]
  | configure value =>
    cases h
    simp [reopens, allowance, Authority.row, Authority.readEscalation]
  | rewrite workOrders =>
    cases h
    simp [reopens, allowance, Authority.row, Authority.readEscalation]

/-- However many evaluators, operators and other commands run, in whatever order and whichever of
their writes fail: a work order is reopened fewer times than the cap they read. A pass of
`run_outcome_eval` is such a run. -/
theorem reopened_le_cap {c : Int} (idle : s.inFlight = []) :
    (∀ (ls : List Act) (t : System),
      (∀ x ∈ (ladder int).transitions s ls, ReadsAtMost int c w x.before x.label) →
      (ladder int).run s ls = some t →
      (ladder int).tally (reopens w) s ls ≤ (c - 1).toNat - (s.authority.row w).retryCount) ∧
    ∀ p : Pass, ∃ acts, Ends int s acts (runOutcomeEval int p s.authority).1 := by
  refine ⟨fun ls t reads reach => ?_, fun p => runOutcomeEval_ends p⟩
  have bound := (ladder int).tally_add_le (allowance c w)
    (fun s l t => allowance_step) reads reach
  simp only [allowance, idle, List.countP_nil] at bound
  omega

def regressed : System :=
  ⟨{ workOrders := [⟨"wo-1", .closed, some "SELECT 1", some "2026-09-24"⟩] }, []⟩

def oneRound : List Act :=
  [.evaluate "wo-1" ["originating_symptom persists"] none true, .proceed 0 true "10:00",
    .proceed 0 true "10:01", .proceed 0 true "10:02"]

def noInt : ParseInt := fun _ => none

def settled : System := ((ladder noInt).run regressed oneRound).getD regressed

theorem reopened_le_cap_oneRound :
    (ladder noInt).tally (reopens "wo-1") regressed oneRound ≤ (3 - 1 : Int).toNat - 0 :=
  (@reopened_le_cap noInt "wo-1" regressed 3 rfl).1 oneRound settled
    (by simp [ladder, step, regressed, oneRound, ReadsAtMost, getRetryCap, defaultRetryCap,
      Authority.registerRetry, Evaluator.proceed, Machine.transitions, Authority.Retry.place,
      Authority.readEscalation]) rfl

end Cap

section Listed

/-- The writes that the calls for the work order make go through, and no operator resolves it. -/
def Undisturbed (w : String) (s : System) : Act → Prop
  | .proceed i goes _ => ∀ e, s.inFlight[i]? = some e → e.workOrderId = w → goes = true
  | .resolve v _ _ _ => v ≠ w
  | _ => True

def Pursued (w : String) (s : System) : Prop :=
  (∃ e ∈ s.inFlight, e.workOrderId = w ∧ e.place ≠ .done) ∨
    ∃ instanceKey, s.authority.OpenAt w instanceKey

theorem openAt_proceed {e f : Evaluator} {goes : Bool} {now instanceKey : String}
    {db db' : Authority} (named : w ≠ "") (h : e.proceed goes now db = some (f, db'))
    (held : db.OpenAt w instanceKey) : db'.OpenAt w instanceKey := by
  obtain ⟨-, -, -, rfl⟩ | ⟨-, -, -, rfl⟩ | ⟨_, _, -, -, -, rfl⟩ | ⟨-, -, rfl⟩ := proceed_cases h
  · exact held
  · exact held
  · exact held.recorded named _ _ _ _
  · exact held

/-- The step lemma: a call goes on to its record, and a record stays. -/
theorem pursued_step (named : w ≠ "") {l : Act} (pursued : Pursued w s)
    (undisturbed : Undisturbed w s l) (h : step int s l = some t) : Pursued w t := by
  cases l with
  | evaluate v failures environ goes =>
    cases goes with
    | false => cases h; exact pursued
    | true =>
      obtain ⟨authority, inFlight⟩ := evaluate_eq_some h
      rw [Pursued, authority, inFlight]
      refine pursued.imp_left fun inFlight => ?_
      obtain ⟨e, mem, rest⟩ := inFlight
      exact ⟨e, List.mem_append_left _ mem, rest⟩
  | proceed i goes now =>
    obtain ⟨e, f, db, here, proceeded, rfl⟩ := proceed_eq_some h
    obtain ⟨inside, rfl⟩ := List.getElem?_eq_some_iff.mp here
    cases pursued with
    | inr held =>
      obtain ⟨instanceKey, held⟩ := held
      exact .inr ⟨instanceKey, openAt_proceed named proceeded held⟩
    | inl flying =>
      obtain ⟨e, mem, mine, unfinished⟩ := flying
      obtain ⟨j, inside', rfl⟩ := List.getElem_of_mem mem
      by_cases other : i = j
      · subst other
        have goes := undisturbed _ here mine
        subst goes
        have moved : f ∈ s.inFlight.set i f := List.mem_set inside f
        obtain ⟨-, -, rfl, -⟩ | ⟨-, -, rfl, -⟩ | ⟨key, reason, -, -, rfl, rfl⟩ | ⟨no, -⟩ :=
          proceed_cases proceeded
        · exact .inl ⟨_, moved, mine, by simp⟩
        · exact .inl ⟨_, moved, mine, by simp⟩
        · rw [mine]
          exact .inr ⟨key, Authority.openAt_recorded _ named key reason now⟩
        · cases no
      · refine .inl ⟨s.inFlight[j], ?_, mine, unfinished⟩
        rw [← List.getElem_set_ne other (by simpa using inside')]
        exact List.getElem_mem _
  | resolve v instanceKey now note =>
    cases h
    refine pursued.imp_right fun listed => ?_
    obtain ⟨key, held⟩ := listed
    exact ⟨key, held.resolved undisturbed instanceKey now note⟩
  | configure value =>
    cases h
    exact pursued
  | rewrite workOrders =>
    cases h
    exact pursued

/-- A counted failure is never dropped: at the end of the run its call is still to write, or the
work order is on the operator's list. -/
theorem counted_is_listed (named : w ≠ "") {failures : List String} {environ : Option String}
    {ls : List Act} {x : Machine.Transition System Act}
    (undisturbed : ∀ x ∈ (ladder int).transitions s ls, Undisturbed w x.before x.label)
    (reach : (ladder int).run s ls = some t) (taken : x ∈ (ladder int).transitions s ls)
    (counted : x.label = .evaluate w failures environ true) :
    (∃ e ∈ t.inFlight, e.workOrderId = w ∧ e.place ≠ .done) ∨ t.authority.Open w := by
  have stepped := (ladder int).step_of_mem_transitions taken
  rw [counted] at stepped
  obtain ⟨-, inFlight⟩ := evaluate_eq_some stepped
  have there : Pursued w x.after := by
    refine .inl ⟨_, inFlight ▸ List.mem_append_right _ List.mem_cons_self, rfl, ?_⟩
    simp only [Authority.Retry.place]
    split <;> simp
  have ended := (ladder int).of_mem_transitions (P := Pursued w) (G := Undisturbed w)
    (fun s l t pursued undisturbed h => pursued_step named pursued undisturbed h) undisturbed reach
    taken there
  refine ended.imp_right fun listed => ?_
  obtain ⟨_, held⟩ := listed
  exact held.open

theorem counted_is_listed_oneRound :
    (∃ e ∈ settled.inFlight, e.workOrderId = "wo-1" ∧ e.place ≠ .done) ∨
      settled.authority.Open "wo-1" :=
  @counted_is_listed noInt "wo-1" regressed settled (by decide) ["originating_symptom persists"]
    none oneRound ⟨regressed, _, _⟩ (by
      simp [ladder, step, regressed, oneRound, Undisturbed, getRetryCap, defaultRetryCap,
        Authority.registerRetry, Evaluator.proceed, Machine.transitions, Authority.Retry.place,
        Authority.readEscalation]) rfl List.mem_cons_self rfl

end Listed

section Account

def counts (w : String) (x : Machine.Transition System Act) : Bool :=
  match x.label with
  | .evaluate v _ _ goes => goes && v = w
  | _ => false

def marks (w : String) (x : Machine.Transition System Act) : Bool :=
  match x.label with
  | .proceed i goes _ =>
    goes && (x.before.inFlight[i]?).any fun e => e.workOrderId = w && e.place = .marking
  | _ => false

theorem row_step {l : Act} (h : step int s l = some t) :
    (t.authority.row w).retryCount =
      (s.authority.row w).retryCount + (if counts w ⟨s, l, t⟩ then 1 else 0) ∧
    (t.authority.row w).escalationLevel =
      (s.authority.row w).escalationLevel + (if marks w ⟨s, l, t⟩ then 1 else 0) ∧
    (t.authority.row w).designatedExecutor =
      if marks w ⟨s, l, t⟩ then some escalationExecutor
      else (s.authority.row w).designatedExecutor := by
  cases l with
  | evaluate v failures environ goes =>
    cases goes with
    | false =>
      cases h
      simp [counts, marks]
    | true =>
      rw [(evaluate_eq_some h).1, Authority.row_registerRetry]
      by_cases same : w = v
      · simp [counts, marks, same]
      · simp [counts, marks, same, Ne.symm same]
  | proceed i goes now =>
    obtain ⟨e, f, db, here, proceeded, rfl⟩ := proceed_eq_some h
    obtain ⟨place, rfl, rfl, rfl⟩ | ⟨place, rfl, rfl, rfl⟩ | ⟨_, _, place, rfl, rfl, rfl⟩ |
      ⟨rfl, rfl, rfl⟩ := proceed_cases proceeded
    · simp [counts, marks, here, place, Authority.reopenWorkOrder, Authority.row,
        Authority.readEscalation]
    · rw [Authority.row_markEscalated]
      by_cases same : w = e.workOrderId
      · subst same
        simp [counts, marks, here, place]
      · simp [counts, marks, here, place, same, Ne.symm same]
    · simp [counts, marks, here, place, Authority.recordEscalationArtifact, Authority.row,
        Authority.readEscalation]
    · simp [counts, marks]
  | resolve v instanceKey now note =>
    cases h
    exact ⟨rfl, rfl, rfl⟩
  | configure value =>
    cases h
    exact ⟨rfl, rfl, rfl⟩
  | rewrite workOrders =>
    cases h
    exact ⟨rfl, rfl, rfl⟩

/-- The books of a run: the retry count has grown by the failures that were counted, the level by
the marks, and a work order with a mark goes to the escalation executor for good. -/
theorem ladder_account (default : String) {ls : List Act} (reach : (ladder int).run s ls = some t) :
    (t.authority.row w).retryCount =
      (s.authority.row w).retryCount + (ladder int).tally (counts w) s ls ∧
    (t.authority.row w).escalationLevel =
      (s.authority.row w).escalationLevel + (ladder int).tally (marks w) s ls ∧
    t.authority.resolveExecutor w default =
      if (ladder int).tally (marks w) s ls = 0 then s.authority.resolveExecutor w default
      else escalationExecutor := by
  refine ⟨(ladder int).add_tally_eq (fun s => (s.authority.row w).retryCount)
    (fun s l t h => (row_step h).1) reach,
    (ladder int).add_tally_eq (fun s => (s.authority.row w).escalationLevel)
    (fun s l t h => (row_step h).2.1) reach, ?_⟩
  rw [Authority.resolveExecutor_eq, Authority.resolveExecutor_eq]
  split
  next unmarked =>
    have same := (ladder int).run_invariant_of_guarded
      (J := fun u => (u.authority.row w).designatedExecutor =
        (s.authority.row w).designatedExecutor)
      (G := fun u l v => ¬marks w ⟨u, l, v⟩ = true)
      (fun u l v held unmarked h => by rw [(row_step h).2.2, if_neg unmarked, held]) rfl
      ((ladder int).tally_eq_zero.mp unmarked) reach
    rw [same]
  next marked =>
    rw [(ladder int).tally_eq_zero] at marked
    simp only [not_forall, not_not] at marked
    obtain ⟨x, taken, marked⟩ := marked
    have there : (x.after.authority.row w).designatedExecutor = some escalationExecutor := by
      rw [(row_step ((ladder int).step_of_mem_transitions taken)).2.2, if_pos marked]
    have ended := (ladder int).of_mem_transitions
      (P := fun u => (u.authority.row w).designatedExecutor = some escalationExecutor)
      (G := fun _ _ => True)
      (fun u l v held _ h => by rw [(row_step h).2.2, held]; split <;> rfl) (fun _ _ => trivial)
      reach taken there
    rw [ended]
    rfl

theorem ladder_account_oneRound :
    (settled.authority.row "wo-1").retryCount = 0 + 1 ∧
      (settled.authority.row "wo-1").escalationLevel = 0 + 1 ∧
      settled.authority.resolveExecutor "wo-1" "sonnet" = "opus" :=
  @ladder_account noInt "wo-1" regressed settled "sonnet" oneRound rfl

end Account

end DreamStudio.WorkOrders.Ladder
