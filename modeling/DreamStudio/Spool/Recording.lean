import DreamStudio.Spool.Accounting

namespace DreamStudio.Spool

open Library

/-- The value is not stored as NULL. -/
def present : Json → Bool
  | .null => false
  | .float .nan => false
  | _ => true

/-- The event id of an envelope, as the column stores it. -/
def eventId (envelope : Fields) : Text := (bindText (Json.lookup envelope "event_id")).toOption.join

def rawComplete (envelope : Fields) : Bool :=
  present (Json.lookup envelope "event_type") && present (Json.lookup envelope "timestamp") &&
    present (Json.lookupD envelope "schema_version" (.int 1))

def canonicalComplete (envelope : Fields) : Bool :=
  present (Json.lookupD envelope "event_type" (.str "")) &&
    present (Json.lookup envelope "timestamp") &&
    present (Json.lookupD envelope "schema_version" (.int 1)) &&
    present (Json.lookupD envelope "severity" (.str "info"))

def Env.routes (env : Env) (envelope : Fields) : List Destination :=
  (env.getRoutes (Json.lookupD envelope "event_type" (.str ""))).toOption.getD []

theorem bindParam_ok {v : Json} {text : Text} (h : bindParam v = .ok text) :
    text = (bindText v).toOption.join ∧ text.isSome = present v := by
  unfold bindParam at h
  split at h <;> cases h
  next bound =>
    refine ⟨by simp [bound, Except.toOption], ?_⟩
    unfold bindText at bound
    split at bound
    case h_3 =>
      split at bound <;> cases bound
      rfl
    all_goals first | cases bound; rfl | cases bound

section Rows

variable {env : Env} {fault : Option Raised} {now : Nat} {envelope : Fields}

theorem rawRow_ok {row : RawRow} (h : env.rawRow fault now envelope = .ok row) :
    row.eventId = eventId envelope ∧ row.admitted = rawComplete envelope := by
  unfold Env.rawRow at h
  cases fault with
  | some e => simp [bind_eq_ok, throw, throwThe, MonadExceptOf.throw] at h
  | none =>
    simp only [bind_eq_ok, pure_eq_ok] at h
    obtain ⟨_, _, _, id, _, type, _, time, _, version, _, _, _, _, _, _, _, _, _, _, _,
        _, _, _, _, _,
      _, _, _, _, rfl⟩ := h
    refine ⟨(bindParam_ok id).1, ?_⟩
    unfold RawRow.admitted rawComplete
    rw [(bindParam_ok type).2, (bindParam_ok time).2, (bindParam_ok version).2]

theorem businessRow_ok {row : BusinessRow} (h : env.businessRow now envelope = .ok row) :
    row.eventId = eventId envelope ∧ row.admitted = canonicalComplete envelope := by
  unfold Env.businessRow at h
  simp only [bind_eq_ok, pure_eq_ok] at h
  obtain ⟨_, _, _, _, _, id, _, type, _, time, _, version, _, _, _, _, _, _, _, _, _, severity,
    rfl⟩ := h
  refine ⟨(bindParam_ok id).1, ?_⟩
  unfold BusinessRow.admitted canonicalComplete
  rw [(bindParam_ok type).2, (bindParam_ok time).2, (bindParam_ok version).2,
    (bindParam_ok severity).2]

theorem aiRow_ok {row : AiRow} (h : env.aiRow now envelope = .ok row) :
    row.eventId = eventId envelope ∧ row.admitted = canonicalComplete envelope := by
  unfold Env.aiRow at h
  simp only [bind_eq_ok, pure_eq_ok] at h
  obtain ⟨_, _, _, _, _, id, _, type, _, time, _, version, _, _, _, _, _, _, _, _, _, _, _, _, _,
    severity, _, _, rfl⟩ := h
  refine ⟨(bindParam_ok id).1, ?_⟩
  unfold AiRow.admitted canonicalComplete
  rw [(bindParam_ok type).2, (bindParam_ok time).2, (bindParam_ok version).2,
    (bindParam_ok severity).2]

theorem routed_ok {ρ : Type} {destination : Destination} {routes : List Destination}
    {row : Except Raised ρ} {found : Option ρ} (h : routed destination routes row = .ok found) :
    destination ∈ routes ∧ (∃ r, row = .ok r ∧ found = some r) ∨
      destination ∉ routes ∧ found = none := by
  unfold routed at h
  split at h
  next routed =>
    cases row with
    | error e => cases h
    | ok r =>
      cases h
      exact Or.inl ⟨routed, r, rfl, rfl⟩
  next other =>
    cases h
    exact Or.inr ⟨other, rfl⟩

theorem canonicalRows_ok {rows : Option BusinessRow × Option AiRow}
    (h : env.canonicalRows fault now envelope = .ok rows) :
    routed .business (env.routes envelope) (env.businessRow now envelope) = .ok rows.1 ∧
      routed .ai (env.routes envelope) (env.aiRow now envelope) = .ok rows.2 := by
  unfold Env.canonicalRows at h
  obtain ⟨routes, hroutes, h⟩ := bind_eq_ok.mp h
  have same : env.routes envelope = routes := by simp [Env.routes, hroutes, Except.toOption]
  rw [same]
  split at h
  next empty =>
    cases h
    simp [routed, empty]
  next =>
    cases fault with
    | some e => cases h
    | none =>
      obtain ⟨business, hbusiness, h⟩ := bind_eq_ok.mp h
      obtain ⟨ai, hai, h⟩ := bind_eq_ok.mp h
      cases h
      exact ⟨hbusiness, hai⟩

end Rows

def Database.Records (env : Env) (db : Database) (envelope : Fields) : Prop :=
  Table.Holds RawRow.eventId db.raw (eventId envelope) ∧
    (.business ∈ env.routes envelope →
      Table.Holds BusinessRow.eventId db.business (eventId envelope)) ∧
    (.ai ∈ env.routes envelope → Table.Holds AiRow.eventId db.ai (eventId envelope))

instance (env : Env) (db : Database) (envelope : Fields) : Decidable (db.Records env envelope) :=
  inferInstanceAs (Decidable (_ ∧ (_ → _) ∧ (_ → _)))

/-- The event has an id, and each table it belongs to holds that id already or finds a value for all
of its NOT NULL columns. -/
def Database.Recordable (env : Env) (db : Database) (envelope : Fields) : Prop :=
  eventId envelope ≠ none ∧
    (Table.Holds RawRow.eventId db.raw (eventId envelope) ∨ rawComplete envelope = true) ∧
    (.business ∈ env.routes envelope →
      Table.Holds BusinessRow.eventId db.business (eventId envelope) ∨
        canonicalComplete envelope = true) ∧
    (.ai ∈ env.routes envelope →
      Table.Holds AiRow.eventId db.ai (eventId envelope) ∨ canonicalComplete envelope = true)

/-- No table has two rows of one event id. -/
structure Database.Keyed (db : Database) : Prop where
  raw : Table.Unique RawRow.eventId db.raw
  business : Table.Unique BusinessRow.eventId db.business
  ai : Table.Unique AiRow.eventId db.ai

structure Database.Grown (db db' : Database) : Prop where
  raw : db.raw ⊆ db'.raw
  business : db.business ⊆ db'.business
  ai : db.ai ⊆ db'.ai
  keyed : db.Keyed → db'.Keyed

namespace Database

variable {env : Env} {db db' : Database} {envelope : Fields}

theorem Grown.refl (db : Database) : db.Grown db :=
  ⟨List.Subset.refl _, List.Subset.refl _, List.Subset.refl _, id⟩

theorem Grown.trans {db'' : Database} (h : db.Grown db') (h' : db'.Grown db'') : db.Grown db'' :=
  ⟨fun _ hr => h'.raw (h.raw hr), fun _ hr => h'.business (h.business hr), fun _ hr =>
    h'.ai (h.ai hr),
    fun k => h'.keyed (h.keyed k)⟩

theorem grown_insertRaw (db : Database) (row : RawRow) : db.Grown (db.insertRaw row) where
  raw := Table.subset_insertOrIgnore _ _ _
  business := List.Subset.refl _
  ai := List.Subset.refl _
  keyed := fun h => ⟨Table.insertOrIgnore_unique h.raw row, h.business, h.ai⟩

theorem grown_insertCanonical (db : Database) (rows : Option BusinessRow × Option AiRow) :
    db.Grown (db.insertCanonical rows) := by
  obtain ⟨business, ai⟩ := rows
  exact {
    raw := List.Subset.refl _
    business := by
      cases business with
      | none => exact List.Subset.refl _
      | some row => exact Table.subset_insertOrIgnore _ _ _
    ai := by
      cases ai with
      | none => exact List.Subset.refl _
      | some row => exact Table.subset_insertOrIgnore _ _ _
    keyed := fun h => {
      raw := h.raw
      business := by
        cases business with
        | none => exact h.business
        | some row => exact Table.insertOrIgnore_unique h.business row
      ai := by
        cases ai with
        | none => exact h.ai
        | some row => exact Table.insertOrIgnore_unique h.ai row } }

theorem Records.grown (h : db.Records env envelope) (grown : db.Grown db') :
    db'.Records env envelope :=
  ⟨h.1.mono grown.raw, fun routed => (h.2.1 routed).mono grown.business,
    fun routed => (h.2.2 routed).mono grown.ai⟩

theorem holds_routed_iff {ρ : Type} {key : ρ → Text} {admitted : ρ → Bool} (rows : List ρ)
    {destination : Destination} {routes : List Destination} {row : Except Raised ρ}
    {found : Option ρ} (h : routed destination routes row = .ok found) {id : Text} {complete : Bool}
    (spec : ∀ r, row = .ok r → key r = id ∧ admitted r = complete) :
    (destination ∈ routes →
        Table.Holds key (found.elim rows (Table.insertOrIgnore key admitted rows)) id) ↔
      (destination ∈ routes → id ≠ none ∧ (Table.Holds key rows id ∨ complete = true)) := by
  refine forall_congr' fun routed => ?_
  rcases routed_ok h with ⟨-, r, ok, rfl⟩ | ⟨other, -⟩
  · obtain ⟨rfl, rfl⟩ := spec r ok
    exact Table.holds_insertOrIgnore
  · exact absurd routed other

theorem records_iff {fault fault' : Option Raised} {now : Nat} {row : RawRow}
    {rows : Option BusinessRow × Option AiRow} (hraw : env.rawRow fault now envelope = .ok row)
    (hrows : env.canonicalRows fault' now envelope = .ok rows) :
    ((db.insertRaw row).insertCanonical rows).Records env envelope ↔
      db.Recordable env envelope := by
  obtain ⟨hid, hcomplete⟩ := rawRow_ok hraw
  obtain ⟨hbusiness, hai⟩ := canonicalRows_ok hrows
  have raw : Table.Holds RawRow.eventId (db.insertRaw row).raw (eventId envelope) ↔
      eventId envelope ≠ none ∧ (Table.Holds RawRow.eventId db.raw (eventId envelope) ∨
        rawComplete envelope = true) := by
    rw [← hid, ← hcomplete]
    exact Table.holds_insertOrIgnore
  have business := holds_routed_iff db.business hbusiness fun r => businessRow_ok
  have ai := holds_routed_iff db.ai hai fun r => aiRow_ok
  unfold Records Recordable
  refine (and_congr raw (and_congr business ai)).trans ?_
  constructor
  · rintro ⟨⟨some, held⟩, business, ai⟩
    exact ⟨some, held, fun r => (business r).2, fun r => (ai r).2⟩
  · rintro ⟨some, held, business, ai⟩
    exact ⟨⟨some, held⟩, fun r => ⟨some, business r⟩, fun r => ⟨some, ai r⟩⟩

end Database

def Turn.completes (env : Env) (t : Turn) (content : Loaded) : Option Fields :=
  match t.claim, t.reads content with
  | none, .value (.obj envelope) =>
    match check (.obj envelope), env.rawRow t.raw t.now envelope,
      env.canonicalRows t.dual t.now envelope, t.finish with
    | .ok none, .ok _, .ok _, none => some envelope
    | _, _, _, _ => none
  | _, _ => none

namespace Root

variable {s : Root} {t : Turn} {name : String} {env : Env}

/-- What a turn without a file in spool/ does: nothing but count it. -/
theorem ingestFile_of_absent (gone : s.files.any (·.at .spool name) = false) (env : Env)
    (t : Turn) : (s.ingestFile env t name).files = s.files ∧
      (s.ingestFile env t name).db = s.db ∧ (s.ingestFile env t name).log = s.log := by
  have raises : ∃ e, processOne env t s name = (s, some e) := by
    unfold processOne replace
    cases t.claim with
    | some e => exact ⟨_, rfl⟩
    | none => exact ⟨.fileNotFound "No such file or directory", by simp [gone, OsError.raised]⟩
  obtain ⟨e, raises⟩ := raises
  unfold ingestFile
  rw [raises]
  exact ⟨settle_files_of_absent gone (some e), (settle_rest t name (s, some e)).2⟩

theorem writeEvent_cases (here : s.files.any (·.at .processing name) = true) (envelope : Fields) :
    (∃ row rows, env.rawRow t.raw t.now envelope = .ok row ∧
        env.canonicalRows t.dual t.now envelope = .ok rows ∧ t.finish = none ∧
        (s.writeEvent env t name envelope).1.db = (s.db.insertRaw row).insertCanonical rows ∧
        (s.writeEvent env t name envelope).1.log = envelope :: s.log) ∨
      ((∀ row rows, env.rawRow t.raw t.now envelope = .ok row →
          env.canonicalRows t.dual t.now envelope = .ok rows → t.finish ≠ none) ∧
        s.db.Grown (s.writeEvent env t name envelope).1.db ∧
        (s.writeEvent env t name envelope).1.log = s.log) := by
  unfold writeEvent Env.writeToRawSqlite
  cases raw : env.rawRow t.raw t.now envelope with
  | error e =>
    refine Or.inr ⟨(fun _ _ h => nomatch h), ?_⟩
    simp only [Functor.map, Except.map]
    split <;> exact ⟨.refl _, rfl⟩
  | ok row =>
    simp only [Functor.map, Except.map]
    unfold Env.writeToDualCanonical
    cases canonical : env.canonicalRows t.dual t.now envelope with
    | error e => exact Or.inr ⟨(fun _ _ _ h => nomatch h), s.db.grown_insertRaw row, rfl⟩
    | ok rows =>
      simp only [Functor.map, Except.map]
      rw [replace_of_any here]
      cases finish : t.finish with
      | some e =>
        exact Or.inr ⟨fun _ _ _ _ => nofun,
          (s.db.grown_insertRaw row).trans (Database.grown_insertCanonical ..), rfl⟩
      | none => exact Or.inl ⟨row, rows, rfl, rfl, rfl, rfl, rfl⟩

theorem ingestFile_cases (env : Env) (t : Turn) (h : s.WellFormed) {f : SpoolFile}
    (hf : f ∈ s.files) (here : f.at .spool name = true) :
    (∃ envelope row rows, t.completes env f.content = some envelope ∧
        env.rawRow t.raw t.now envelope = .ok row ∧
        env.canonicalRows t.dual t.now envelope = .ok rows ∧
        (s.ingestFile env t name).db = (s.db.insertRaw row).insertCanonical rows ∧
        (s.ingestFile env t name).log = envelope :: s.log) ∨
      (t.completes env f.content = none ∧ s.db.Grown (s.ingestFile env t name).db ∧
        (s.ingestFile env t name).log = s.log) := by
  have present : s.files.any (·.at .spool name) = true := List.any_eq_true.mpr ⟨f, hf, here⟩
  have claimed : (rename s.files name .spool .processing).any (·.at .processing name) = true :=
    rename_any_dst (by decide) present
  unfold ingestFile
  rw [(settle_rest ..).2.1, (settle_rest ..).2.2]
  unfold processOne Turn.completes
  rw [replace_of_any present]
  cases t.claim with
  | some e => exact Or.inr ⟨rfl, .refl _, rfl⟩
  | none =>
    simp only
    unfold processClaimed
    rw [readFile_claimed h.paths hf here]
    cases t.reads f.content with
    | malformed message =>
      obtain ⟨-, db, log⟩ := moveToFailed_rest
        { s with files := rename s.files name .spool .processing } t name .processing
        ("parse_error: " ++ message)
      exact Or.inr ⟨rfl, db.symm ▸ .refl _, log⟩
    | raises message => exact Or.inr ⟨rfl, .refl _, rfl⟩
    | value data =>
      simp only
      cases passes : check data with
      | error e =>
        refine Or.inr ⟨?_, .refl _, rfl⟩
        cases data <;> simp [passes]
      | ok outcome =>
        cases outcome with
        | some reason =>
          obtain ⟨-, db, log⟩ := moveToFailed_rest
            { s with files := rename s.files name .spool .processing } t name .processing reason
          refine Or.inr ⟨?_, db.symm ▸ .refl _, log⟩
          cases data <;> simp [passes]
        | none =>
          cases data with
          | obj envelope =>
            simp only [passes]
            rcases writeEvent_cases (s :=
              { s with files := rename s.files name .spool .processing })
              (t := t) claimed envelope with ⟨row, rows, raw, canonical, finish, db, log⟩ |
              ⟨incomplete, grown, log⟩
            · exact Or.inl ⟨envelope, row, rows, by simp [raw, canonical, finish], raw,
                canonical, db,
                log⟩
            · refine Or.inr ⟨?_, grown, log⟩
              split
              next raw canonical finish => exact absurd finish (incomplete _ _ raw canonical)
              next => rfl
          | _ => exact Or.inr ⟨rfl, .refl _, rfl⟩

end Root

/-- What happens between two turns of the loop: a writer adds a file, or the next turn runs. -/
inductive TurnAction
  | write (name : String) (content : Loaded)
  | turn (name : String) (t : Turn)

def turnMachine (env : Env) : Machine Root TurnAction where
  step s
    | .write name content => some (s.write name content)
    | .turn name t => some (s.ingestFile env t name)

/-- A file the turn moves to processed/ holds an event that can be recorded. -/
def Root.CanRecord (env : Env) (s : Root) : TurnAction → Prop
  | .write _ _ => True
  | .turn name t => ∀ f ∈ s.files, f.at .spool name = true →
      ∀ envelope ∈ t.completes env f.content, s.db.Recordable env envelope

/-- Every processed event is recorded, and no event id twice. -/
def Root.Recorded (env : Env) (s : Root) : Prop :=
  (∀ envelope ∈ s.log, s.db.Records env envelope) ∧ s.db.Keyed

theorem turn_wellFormed (env : Env) {s s' : Root} {action : TurnAction}
    (h : s.WellFormed ∧ s.db.Keyed) (taken : (turnMachine env).step s action = some s') :
    s'.WellFormed ∧ s'.db.Keyed := by
  cases action with
  | write name content =>
    obtain rfl := Option.some.inj taken
    exact ⟨h.1.write name content, h.2⟩
  | turn name t =>
    obtain rfl := Option.some.inj taken
    by_cases present : s.files.any (·.at .spool name) = true
    · obtain ⟨f, hf, here⟩ := List.any_eq_true.mp present
      refine ⟨h.1.ingestFile env t hf here, ?_⟩
      rcases Root.ingestFile_cases env t h.1 hf here with
        ⟨_, row, rows, -, -, -, db, -⟩ | ⟨-, grown, -⟩
      · rw [db]
        exact ((s.db.grown_insertRaw row).trans (Database.grown_insertCanonical ..)).keyed h.2
      · exact grown.keyed h.2
    · obtain ⟨files, db, -⟩ := Root.ingestFile_of_absent (eq_false_of_ne_true present) env t
      have inodes := Root.ingestFile_nextInode env t s name
      rw [db]
      exact ⟨⟨files ▸ h.1.paths, files ▸ h.1.inodes, by rw [files, inodes]; exact h.1.fresh⟩, h.2⟩

theorem turn_recorded_iff (env : Env) {s s' : Root} {action : TurnAction}
    (h : s.WellFormed ∧ s.db.Keyed) (recorded : s.Recorded env)
    (taken : (turnMachine env).step s action = some s') :
    s'.Recorded env ↔ s.CanRecord env action := by
  have keyed := (turn_wellFormed env h taken).2
  cases action with
  | write name content =>
    obtain rfl := Option.some.inj taken
    exact iff_of_true recorded trivial
  | turn name t =>
    obtain rfl := Option.some.inj taken
    by_cases present : s.files.any (·.at .spool name) = true
    · obtain ⟨f, hf, here⟩ := List.any_eq_true.mp present
      have only : s.CanRecord env (.turn name t) ↔
          ∀ envelope ∈ t.completes env f.content, s.db.Recordable env envelope := by
        refine ⟨fun all => all f hf here, fun one g hg at_name => ?_⟩
        have : g = f := Table.eq_of_key_eq h.1.paths hg hf
          (by simp [SpoolFile.path, SpoolFile.at_iff.mp at_name, SpoolFile.at_iff.mp here])
          (by simp [SpoolFile.path])
        exact this ▸ one
      rw [only]
      rcases Root.ingestFile_cases env t h.1 hf here with
        ⟨envelope, row, rows, completes, raw, canonical, db, log⟩ | ⟨incomplete, grown, log⟩
      · have exact_write : ((s.db.insertRaw row).insertCanonical rows).Records env envelope ↔
            s.db.Recordable env envelope := Database.records_iff raw canonical
        have grown := (s.db.grown_insertRaw row).trans (Database.grown_insertCanonical _ rows)
        rw [← db] at exact_write grown
        constructor
        · intro after e he
          rw [completes] at he
          obtain rfl := Option.some.inj he
          exact exact_write.mp (after.1 envelope (log ▸ List.mem_cons_self))
        · intro recordable
          refine ⟨fun e he => ?_, keyed⟩
          rw [log] at he
          rcases List.mem_cons.mp he with rfl | he
          · exact exact_write.mpr (recordable e completes)
          · exact (recorded.1 e he).grown grown
      · refine iff_of_true ⟨fun e he => ?_, keyed⟩ (by simp [incomplete])
        exact (recorded.1 e (log ▸ he)).grown grown
    · obtain ⟨-, db, log⟩ := Root.ingestFile_of_absent (eq_false_of_ne_true present) env t
      refine iff_of_true ?_ fun f hf here => absurd (List.any_eq_true.mpr ⟨f, hf, here⟩) present
      unfold Root.Recorded
      rw [db, log]
      exact recorded

/-- From empty directories and tables every processed event is recorded, and no event id twice,
throughout exactly if every file that is moved to processed/ holds an event that can be recorded. -/
theorem recorded_iff_forall_canRecord (env : Env) (actions : List TurnAction) :
    (∀ x ∈ (turnMachine env).transitions {} actions, x.after.Recorded env) ↔
      ∀ x ∈ (turnMachine env).transitions {} actions, x.before.CanRecord env x.label := by
  have keyed : Database.Keyed {} := ⟨List.Pairwise.nil, List.Pairwise.nil, List.Pairwise.nil⟩
  exact (turnMachine env).forall_after_iff_forall_guard
    (fun _ _ _ h taken => turn_wellFormed env h taken)
    (fun _ _ _ h recorded taken => turn_recorded_iff env h recorded taken)
    ⟨Root.empty_wellFormed, keyed⟩ ⟨by simp, keyed⟩ actions

/-- An event with a null timestamp is processed, and no table takes it. -/
theorem untimed_event_not_recorded :
    ¬ ∀ (env : Env) (actions : List TurnAction),
      ∀ x ∈ (turnMachine env).transitions {} actions, x.after.Recorded env := by
  intro h
  have recorded := fun x hx => (h sampleEnv
    [.write "e1.json" (.value (.obj
      [("event_id", .str "e1"), ("event_type", .str "work_order.created"), ("timestamp", .null),
        ("schema_version", .int 1)])), .turn "e1.json" {}] x hx).1
  revert recorded
  decide

end DreamStudio.Spool
