import DreamStudio.Spool.Recording

namespace DreamStudio.Spool

open Library

/-- What `write_event` and what stands before it in the same `try` can raise: the imports, the
envelope, the directories, the temporary file, the dump and the move. -/
structure WriteFaults where
  imports : Option String := none
  envelope : Option String := none
  dirs : Option String := none
  temp : Option String := none
  dump : Option String := none
  replace : Option String := none

def WriteFaults.raised (f : WriteFaults) : Option String :=
  f.imports <|> f.envelope <|> f.dirs <|> f.temp <|> f.dump <|> f.replace

inductive EventKind
  | workOrderCreated
  | taskCreated
  | milestoneCreated
  | milestoneCompleted
  | gateBypassed
  deriving DecidableEq

namespace EventKind

def text : EventKind → String
  | workOrderCreated => "work_order.created"
  | taskCreated => "task.created"
  | milestoneCreated => "milestone.created"
  | milestoneCompleted => "milestone.completed"
  | gateBypassed => "gate.bypassed"

/-- `payload_required_keys` of the registry. -/
def requiredKeys : EventKind → List String
  | workOrderCreated => ["title", "status", "type"]
  | _ => []

end EventKind

/-- An event as `CanonicalEventEnvelope` is given it. -/
structure Emission where
  kind : EventKind
  eventId : String
  timestamp : String
  severity : String
  trace : Fields
  payload : Fields

namespace Emission

/-- `to_dict`. -/
def envelope (e : Emission) : Fields :=
  [("event_id", .str e.eventId), ("event_type", .str e.kind.text), ("timestamp", .str e.timestamp),
    ("schema_version", .int 1), ("session_id", .null), ("project_id", .null),
      ("severity", .str e.severity),
    ("confidence", .str "exact"), ("trace", .obj e.trace), ("payload", .obj e.payload),
    ("source_type", .str "confirmed"), ("raw_prompt_retained", .bool false),
    ("raw_tool_output_retained", .bool false)]

def fileName (eventId : String) : String := eventId ++ ".json"

/-- `_validate_payload_keys`. -/
def missingKeys (e : Emission) : List String :=
  e.kind.requiredKeys.filter (!Json.hasKey e.payload ·)

end Emission

namespace Root

/-- `write_event`. A temporary file that is left behind is no event. -/
def writeEvent? (f : WriteFaults) (e : Emission) (s : Root) : Except String Root :=
  match f.imports <|> f.envelope with
  | some error => .error error
  | none =>
    if e.missingKeys ≠ [] then
      .error ("Event '" ++ e.kind.text ++ "' is missing required payload keys: " ++
        toString e.missingKeys)
    else
      match f.raised with
      | some error => .error error
      | none => .ok (s.write (Emission.fileName e.eventId) (.value (.obj e.envelope)))

/-- `try: write_event(…) except Exception: pass`. -/
def emit (f : WriteFaults) (e : Emission) (s : Root) : Root :=
  match s.writeEvent? f e with
  | .ok s => s
  | .error _ => s

/-- `try: sync_tick() except Exception: pass`, or one that fails before its first turn. The
projections that follow the ingestion write no event. -/
def syncTick (env : Env) (sync : Option (String → Turn)) (s : Root) : Root :=
  match sync with
  | none => s
  | some turns => s.ingest env turns

/-- An id nothing on the machine has. -/
structure Fresh (s : Root) (id : String) : Prop where
  names : ∀ f ∈ s.files, f.name ≠ Emission.fileName id
  contents : ∀ f ∈ s.files, ∀ e, f.content = .value (.obj e) → eventId e ≠ some id
  rows : ∀ r ∈ s.db.business, r.eventId ≠ some id

def Stored (s : Root) (e : Emission) (dirs : Dir → Prop) : Prop :=
  ∃ f ∈ s.files, dirs f.dir ∧ f.name = Emission.fileName e.eventId ∧
    f.content = .value (.obj e.envelope)

def Canonical (s : Root) (e : Emission) : Prop :=
  Table.Holds BusinessRow.eventId s.db.business (some e.eventId)

/-- The event waits for the next ingestion or is in the canonical table. -/
def Durable (s : Root) (e : Emission) : Prop := s.Stored e (· = .spool) ∨ s.Canonical e

/-- The event is in the canonical table or in some directory of the spool, be it failed/. -/
def Traced (s : Root) (e : Emission) : Prop := s.Stored e (fun _ => True) ∨ s.Canonical e

end Root

/-- A turn that leaves its event in failed/ or in processing/, and in no canonical table. -/
def Turn.loses (t : Turn) : Bool :=
  match t.claim with
  | some e => !(t.afterRaise e.raised).isEmpty
  | none =>
    t.read.isSome ||
      match t.raw with
      | some e => t.restore.isSome || !(t.afterRaise e).isEmpty
      | none => t.dual.isSome

structure Ingestor where
  env : Env
  routed : ∀ kind : EventKind, env.registry kind.text = some [.business]

def Textual (v : Json) : Prop := v = .null ∨ ∃ s, v = .str s

namespace Emission

/-- An event whose trace has strings only, as has the payload where the ingestor looks. -/
structure Plain (e : Emission) : Prop where
  trace : ∀ f ∈ e.trace, Textual f.2
  payload : ∀ key ∈ ["session_id", "project_id", "workflow_id", "agent_id", "model"],
    Textual (Json.lookup e.payload key)
  complete : e.missingKeys = []

theorem lookup_envelope (e : Emission) :
    Json.lookup e.envelope "event_id" = .str e.eventId ∧ Json.lookup e.envelope "event_type" =
      .str e.kind.text ∧
      Json.lookup e.envelope "timestamp" = .str e.timestamp ∧
        Json.lookup e.envelope "session_id" = .null ∧
      Json.lookup e.envelope "project_id" = .null := by
  simp [envelope, Json.lookup]

theorem lookupD_envelope (e : Emission) (default : Json) :
    Json.lookupD e.envelope "event_type" default = .str e.kind.text ∧
      Json.lookupD e.envelope "schema_version" default = .int 1 ∧
      Json.lookupD e.envelope "severity" default = .str e.severity ∧
      Json.lookupD e.envelope "trace" default = .obj e.trace ∧
      Json.lookupD e.envelope "payload" default = .obj e.payload := by
  simp [envelope, Json.lookupD]

theorem eventId_envelope (e : Emission) : Spool.eventId e.envelope = some e.eventId := by
  rw [Spool.eventId, e.lookup_envelope.1]
  rfl

theorem canonicalComplete_envelope (e : Emission) : canonicalComplete e.envelope = true := by
  obtain ⟨type, version, severity, -⟩ := e.lookupD_envelope (.int 1)
  rw [canonicalComplete, (e.lookupD_envelope (.str "")).1, e.lookup_envelope.2.2.1, version,
    (e.lookupD_envelope (.str "info")).2.2.1]
  rfl

end Emission

section Bound

theorem textual_lookup {fields : Fields} (all : ∀ f ∈ fields, Textual f.2) (key : String) :
    Textual (Json.lookup fields key) := by
  unfold Json.lookup
  cases found : fields.find? (fun f => f.1 = key) with
  | none => exact Or.inl rfl
  | some f => exact all f (List.mem_of_find?_eq_some found)

theorem textual_first {vs : List Json} (all : ∀ v ∈ vs, Textual v) : Textual (first vs) := by
  unfold first
  cases found : vs.find? (fun v => !v.isNull) with
  | none => exact Or.inl rfl
  | some v => exact all v (List.mem_of_find?_eq_some found)

theorem textual_or {v w : Json} (hv : Textual v) (hw : Textual w) : Textual (v.or w) := by
  unfold Json.or
  split <;> assumption

theorem bindParam_textual {v : Json} (h : Textual v) : ∃ t, bindParam v = .ok t := by
  rcases h with rfl | ⟨s, rfl⟩
  · exact ⟨none, rfl⟩
  · exact ⟨some s, rfl⟩

variable {e : Emission}

theorem normalize_trace (env : Env) (e : Emission) :
    env.normalize (Json.lookupD e.envelope "trace" (.obj [])) = .ok e.trace := by
  rw [(e.lookupD_envelope _).2.2.2.1]
  rfl

theorem extractCorrelationIds_plain (env : Env) (plain : e.Plain) :
    ∃ ids, env.extractCorrelationIds e.envelope = .ok ids ∧
    Textual ids.sessionId ∧ Textual ids.projectId ∧ Textual ids.workflowId ∧ Textual ids.skillId ∧
    Textual ids.agentId ∧ Textual ids.hookId ∧ Textual ids.toolId ∧ Textual ids.modelId ∧
      Textual ids.adapterId := by
  have payload : env.normalize (Json.lookupD e.envelope "payload" (.obj [])) = .ok e.payload := by
    rw [(e.lookupD_envelope _).2.2.2.2]
    rfl
  have traced := textual_lookup plain.trace
  have paid := plain.payload
  simp only [List.forall_mem_cons] at paid
  obtain ⟨session, project, workflow, agent, model, -⟩ := paid
  unfold Env.extractCorrelationIds
  rw [normalize_trace, payload, ok_bind, ok_bind]
  obtain ⟨-, -, -, noSession, noProject⟩ := e.lookup_envelope
  refine ⟨_, rfl, textual_first ?_, textual_first ?_, textual_first ?_, textual_first ?_,
    textual_first ?_,
    traced _, traced _, textual_first ?_, traced _⟩ <;> simp only [List.forall_mem_cons]
  · exact ⟨Or.inl noSession, traced _, session, List.forall_mem_nil _⟩
  · exact ⟨Or.inl noProject, traced _, project, List.forall_mem_nil _⟩
  · exact ⟨traced _, traced _, workflow, List.forall_mem_nil _⟩
  · exact ⟨traced _, traced _, List.forall_mem_nil _⟩
  · exact ⟨traced _, agent, List.forall_mem_nil _⟩
  · exact ⟨traced _, model, List.forall_mem_nil _⟩

theorem rawRow_plain (env : Env) (plain : e.Plain) (fault : Option Raised) (now : Nat) :
    match fault with
    | some raised => env.rawRow fault now e.envelope = .error raised
    | none => ∃ row, env.rawRow fault now e.envelope = .ok row := by
  obtain ⟨ids, extracted, session, project, workflow, skill, agent, hook, tool, model, adapter⟩ :=
    extractCorrelationIds_plain env plain
  unfold Env.rawRow
  rw [extracted]
  cases fault with
  | some raised => rfl
  | none =>
    obtain ⟨id, type, time, -⟩ := e.lookup_envelope
    rw [id, type, time, (e.lookupD_envelope _).2.1]
    obtain ⟨_, session⟩ := bindParam_textual session
    obtain ⟨_, project⟩ := bindParam_textual project
    obtain ⟨_, workflow⟩ := bindParam_textual workflow
    obtain ⟨_, skill⟩ := bindParam_textual skill
    obtain ⟨_, agent⟩ := bindParam_textual agent
    obtain ⟨_, hook⟩ := bindParam_textual hook
    obtain ⟨_, tool⟩ := bindParam_textual tool
    obtain ⟨_, model⟩ := bindParam_textual model
    obtain ⟨_, adapter⟩ := bindParam_textual adapter
    simp only [ok_bind, session, project, workflow, skill, agent, hook, tool, model, adapter]
    exact ⟨_, rfl⟩

theorem businessRow_plain (env : Env) (plain : e.Plain) (now : Nat) :
    ∃ row, env.businessRow now e.envelope = .ok row := by
  obtain ⟨ids, extracted, -, project, -⟩ := extractCorrelationIds_plain env plain
  have traced := textual_lookup plain.trace
  obtain ⟨id, -, time, -⟩ := e.lookup_envelope
  unfold Env.businessRow
  rw [extracted, ok_bind, normalize_trace, ok_bind, id, time, (e.lookupD_envelope _).1,
    (e.lookupD_envelope _).2.1,
    (e.lookupD_envelope _).2.2.1]
  obtain ⟨_, project⟩ := bindParam_textual (textual_or project (traced "project_id"))
  obtain ⟨_, milestone⟩ := bindParam_textual (traced "milestone_id")
  obtain ⟨_, workOrder⟩ := bindParam_textual (traced "work_order_id")
  obtain ⟨_, task⟩ := bindParam_textual (traced "task_id")
  simp only [project, milestone, workOrder, task, ok_bind]
  exact ⟨_, rfl⟩

theorem check_plain (e : Emission) : check (.obj e.envelope) = .ok none := by
  have required : requiredFields.filter (fun key => !Json.hasKey e.envelope key) = [] := by
    simp [requiredFields, Emission.envelope, Json.hasKey]
  simp only [check, required, e.lookup_envelope.2.1, ne_eq, not_true_eq_false, if_false]
  cases e.kind <;> rfl

theorem canonicalRows_plain (i : Ingestor) (plain : e.Plain) (fault : Option Raised) (now : Nat) :
    match fault with
    | some raised => i.env.canonicalRows fault now e.envelope = .error raised
    | none => ∃ row, i.env.canonicalRows fault now e.envelope = .ok (some row, none) ∧
        row.eventId = some e.eventId ∧ row.admitted = true := by
  have routes : i.env.getRoutes (Json.lookupD e.envelope "event_type" (.str "")) =
      .ok [.business] := by
    rw [(e.lookupD_envelope _).1, Env.getRoutes, i.routed]
    rfl
  unfold Env.canonicalRows
  rw [routes, ok_bind, if_neg (List.cons_ne_nil _ _)]
  cases fault with
  | some raised => rfl
  | none =>
    obtain ⟨row, made⟩ := businessRow_plain i.env plain now
    obtain ⟨id, admitted⟩ := businessRow_ok made
    refine ⟨row, ?_, id.trans e.eventId_envelope, admitted.trans e.canonicalComplete_envelope⟩
    simp only [routed, made]
    rfl

end Bound

def Turn.records (t : Turn) : Bool :=
  t.claim.isNone && t.read.isNone && t.raw.isNone && t.dual.isNone

theorem arrival_afterRaise_spool (t : Turn) (e : Raised) :
    arrival .spool (t.afterRaise e) = .spool ↔ (t.afterRaise e).isEmpty = true := by
  have moved : t.toFailed = [] ∨ t.toFailed = [.failed] := by
    unfold Turn.toFailed
    split
    · exact Or.inl rfl
    · exact Or.inr rfl
  have cases_ : t.afterRaise e = [] ∨ t.afterRaise e = [.failed] := by
    unfold Turn.afterRaise
    split
    · split
      · exact Or.inl rfl
      · exact moved
    · exact Or.inl rfl
    · exact moved
  rcases cases_ with h | h <;> rw [h] <;> simp

theorem arrival_toFailed_ne_spool (t : Turn) : arrival .processing t.toFailed ≠ .spool := by
  unfold Turn.toFailed
  split <;> simp

theorem destination_plain (i : Ingestor) {e : Emission} (plain : e.Plain) (t : Turn) :
    t.destination i.env (.value (.obj e.envelope)) = .spool ∨ t.records = true ↔
      t.loses = false := by
  have raw := rawRow_plain i.env plain t.raw t.now
  have rows := canonicalRows_plain i plain t.dual t.now
  unfold Turn.destination Turn.itinerary Turn.records Turn.loses Turn.reads
  cases claim : t.claim with
  | some raised =>
    simp only [arrival_afterRaise_spool, Option.isNone_some, Bool.false_and,
      Bool.false_eq_true, or_false,
      Bool.not_eq_false']
  | none =>
    cases read : t.read with
    | some raised =>
      simp only [arrival_cons, Option.isNone_some, Option.isSome_some, Bool.and_false,
        Bool.false_and,
        Bool.false_eq_true, or_false, Bool.true_or, Bool.true_eq_false, iff_false]
      exact arrival_toFailed_ne_spool t
    | none =>
      simp only [check_plain, Turn.writes, arrival_cons, Option.isNone_none, Bool.true_and,
        Option.isSome_none,
        Bool.false_or]
      cases fault : t.raw with
      | some raised =>
        rw [fault] at raw
        simp only [raw, Option.isNone_some, Bool.false_and, Bool.false_eq_true, or_false,
          Bool.or_eq_false_iff,
          Bool.not_eq_false']
        cases t.restore with
        | some _ => simp
        | none => simpa using arrival_afterRaise_spool t raised
      | none =>
        rw [fault] at raw
        obtain ⟨row, made⟩ := raw
        simp only [made, Option.isNone_none, Bool.true_and]
        cases fault : t.dual with
        | some raised =>
          rw [fault] at rows
          simp [rows]
        | none => simp

namespace Root

variable {s : Root} {e : Emission}

/-- No file but the event's own has its id. -/
def Apart (s : Root) (e : Emission) : Prop :=
  ∀ f ∈ s.files, f.name ≠ Emission.fileName e.eventId → ∀ fields, f.content = .value (.obj fields) →
    eventId fields ≠ some e.eventId

theorem mem_writeEvent {env : Env} {t : Turn} {name : String} {fields : Fields} {r : BusinessRow}
    (hr : r ∈ (s.writeEvent env t name fields).1.db.business) :
    r ∈ s.db.business ∨ r.eventId = eventId fields := by
  unfold writeEvent Env.writeToRawSqlite Env.writeToDualCanonical at hr
  cases raw : env.rawRow t.raw t.now fields with
  | error raised =>
    simp only [raw, Functor.map, Except.map] at hr
    left
    split at hr <;> exact hr
  | ok row =>
    cases canonical : env.canonicalRows t.dual t.now fields with
    | error raised =>
      simp only [raw, canonical, Functor.map, Except.map] at hr
      exact Or.inl hr
    | ok rows =>
      simp only [raw, canonical, Functor.map, Except.map] at hr
      have grown : r ∈ ((s.db.insertRaw row).insertCanonical rows).business := by
        split at hr <;> exact hr
      obtain ⟨routed, -⟩ := canonicalRows_ok canonical
      rcases routed_ok routed with ⟨-, made, ok, some⟩ | ⟨-, none⟩
      · rw [Database.insertCanonical, some] at grown
        rcases Table.mem_insertOrIgnore.mp grown with old | new
        · exact Or.inl old
        · exact Or.inr (new.1 ▸ (businessRow_ok ok).1)
      · rw [Database.insertCanonical, none] at grown
        exact Or.inl grown

theorem ingestFile_business (env : Env) (t : Turn) (h : s.WellFormed) {f : SpoolFile}
    {name : String} (hf : f ∈ s.files) (here : f.at .spool name = true) {r : BusinessRow}
    (hr : r ∈ (s.ingestFile env t name).db.business) :
    r ∈ s.db.business ∨ ∃ fields, f.content = .value (.obj fields) ∧
      r.eventId = eventId fields := by
  have present : s.files.any (·.at .spool name) = true := List.any_eq_true.mpr ⟨f, hf, here⟩
  unfold ingestFile at hr
  rw [(settle_rest ..).2.1] at hr
  unfold processOne at hr
  rw [replace_of_any present] at hr
  cases claim : t.claim with
  | some _ =>
    rw [claim] at hr
    exact Or.inl hr
  | none =>
    rw [claim] at hr
    simp only at hr
    unfold processClaimed at hr
    rw [readFile_claimed h.paths hf here] at hr
    cases reads : t.reads f.content with
    | malformed _ =>
      simp only [reads, countFailed] at hr
      rw [(moveToFailed_rest ..).2.1] at hr
      exact Or.inl hr
    | raises _ =>
      simp only [reads] at hr
      exact Or.inl hr
    | value data =>
      have content : f.content = .value data := by
        unfold Turn.reads at reads
        split at reads
        · cases reads
        · exact reads
      simp only [reads] at hr
      cases passes : check data with
      | error _ =>
        simp only [passes] at hr
        exact Or.inl hr
      | ok outcome =>
        simp only [passes] at hr
        cases outcome with
        | some _ =>
          simp only [countFailed] at hr
          rw [(moveToFailed_rest ..).2.1] at hr
          exact Or.inl hr
        | none =>
          cases data with
          | obj fields =>
            refine (mem_writeEvent hr).imp_right fun same => ⟨fields, content, same⟩
          | _ => exact Or.inl hr

section Own

variable (i : Ingestor) (t : Turn) (plain : e.Plain) (h : s.WellFormed) {f : SpoolFile}
    {name : String}

theorem writeEvent_plain (name : String) (plain : e.Plain) :
    ∃ row, row.eventId = some e.eventId ∧ row.admitted = true ∧
    (s.writeEvent i.env t name e.envelope).1.db.business =
      if t.raw.isNone && t.dual.isNone then
        Table.insertOrIgnore BusinessRow.eventId BusinessRow.admitted s.db.business row
      else s.db.business := by
  obtain ⟨row, made, id, admitted⟩ := canonicalRows_plain i plain none t.now
  refine ⟨row, id, admitted, ?_⟩
  have raw := rawRow_plain i.env plain t.raw t.now
  have rows := canonicalRows_plain i plain t.dual t.now
  unfold writeEvent Env.writeToRawSqlite Env.writeToDualCanonical
  cases fault : t.raw with
  | some raised =>
    rw [fault] at raw
    simp only [raw, Functor.map, Except.map]
    split <;> rfl
  | none =>
    rw [fault] at raw
    obtain ⟨rawRow, rawMade⟩ := raw
    cases fault : t.dual with
    | some raised =>
      rw [fault] at rows
      simp only [rawMade, rows, Functor.map, Except.map]
      rfl
    | none =>
      simp only [rawMade, made, Functor.map, Except.map]
      split <;> rfl

theorem ingestFile_canonical_own (plain : e.Plain) (h : s.WellFormed) (hf : f ∈ s.files)
    (here : f.at .spool name = true) (content : f.content = .value (.obj e.envelope)) :
    (s.ingestFile i.env t name).Canonical e ↔ s.Canonical e ∨ t.records = true := by
  have present : s.files.any (·.at .spool name) = true := List.any_eq_true.mpr ⟨f, hf, here⟩
  unfold ingestFile Canonical Turn.records
  rw [(settle_rest ..).2.1]
  unfold processOne
  rw [replace_of_any present]
  cases claim : t.claim with
  | some _ => simp
  | none =>
    simp only [Option.isNone_none, Bool.true_and]
    unfold processClaimed
    rw [readFile_claimed h.paths hf here, Turn.reads, content]
    cases read : t.read with
    | some _ =>
      simp only [countFailed, Option.isNone_some, Bool.false_and, Bool.false_eq_true, or_false]
      rw [(moveToFailed_rest ..).2.1]
    | none =>
      simp only [check_plain, Option.isNone_none, Bool.true_and]
      obtain ⟨row, id, admitted, business⟩ := writeEvent_plain
        (s := { s with files := rename s.files name .spool .processing }) i t name plain
      rw [business]
      split
      · next both =>
        have held : Table.Holds BusinessRow.eventId
            (Table.insertOrIgnore BusinessRow.eventId BusinessRow.admitted s.db.business row)
              row.eventId ↔ _ :=
          Table.holds_insertOrIgnore
        rw [id] at held
        rw [held]
        exact ⟨fun _ => Or.inr both, fun _ => ⟨nofun, Or.inr admitted⟩⟩
      · next either => simp only [either, Bool.false_eq_true, or_false]

theorem ingestFile_canonical_other (h : s.WellFormed) (apart : s.Apart e) (hf : f ∈ s.files)
    (here : f.at .spool name = true) (other : name ≠ Emission.fileName e.eventId) :
    (s.ingestFile i.env t name).Canonical e ↔ s.Canonical e := by
  have named := (SpoolFile.at_iff.mp here).2
  constructor
  · rintro ⟨r, hr, key, some⟩
    rcases ingestFile_business i.env t h hf here hr with old | ⟨fields, content, same⟩
    · exact ⟨r, old, key, some⟩
    · exact absurd (same.symm.trans key) (apart f hf (named ▸ other) fields content)
  · intro held
    have grown : s.db.Grown (s.ingestFile i.env t name).db := by
      rcases ingestFile_cases i.env t h hf here with ⟨_, row, rows, -, -, -, db, -⟩ | ⟨-, grown, -⟩
      · rw [db]
        exact (s.db.grown_insertRaw row).trans (Database.grown_insertCanonical ..)
      · exact grown
    exact held.mono grown.business

theorem Apart.ingestFile (h : s.WellFormed) (apart : s.Apart e) (hf : f ∈ s.files)
    (here : f.at .spool name = true) : (s.ingestFile i.env t name).Apart e := by
  intro g hg other fields content
  rw [ingestFile_files i.env h.paths hf here] at hg
  rcases of_mem_travel hg with old | ⟨k, hk, -, rfl⟩
  · exact apart g old other fields content
  · exact apart k hk other fields content

theorem foldl_canonical (turns : String → Turn) {names : List String} (plain : e.Plain)
    (h : s.WellFormed) (apart : s.Apart e) (nodup : names.Nodup)
    (there : ∀ name ∈ names, ∃ f ∈ s.files, f.at .spool name = true)
    (own : Emission.fileName e.eventId ∈ names →
      ∃ f ∈ s.files, f.at .spool (Emission.fileName e.eventId) = true ∧
      f.content = .value (.obj e.envelope)) :
    (names.foldl (fun s name => s.ingestFile i.env (turns name) name) s).Canonical e ↔
      s.Canonical e ∨ Emission.fileName e.eventId ∈ names ∧
        (turns (Emission.fileName e.eventId)).records = true := by
  induction names generalizing s with
  | nil => simp
  | cons name rest ih =>
    obtain ⟨f, hf, here⟩ := there name List.mem_cons_self
    obtain ⟨absent, nodup⟩ := List.nodup_cons.mp nodup
    have stay : ∀ {g : SpoolFile}, g.name ≠ name → g ∈ s.files →
        g ∈ (s.ingestFile i.env (turns name) name).files := fun hne hg => by
      rw [ingestFile_files i.env h.paths hf here, mem_travel_of_name_ne hne]
      exact hg
    have away : ∀ {n : String} {g : SpoolFile}, n ∈ rest → g.at .spool n = true → g.name ≠ name :=
      fun hn at_n same => absent (same ▸ (SpoolFile.at_iff.mp at_n).2.symm ▸ hn)
    rw [List.foldl_cons, ih (h.ingestFile i.env _ hf here) (apart.ingestFile i _ h hf here) nodup
      (fun n hn => by
        obtain ⟨g, hg, at_n⟩ := there n (List.mem_cons_of_mem _ hn)
        exact ⟨g, stay (away hn at_n) hg, at_n⟩)
      (fun hn => by
        obtain ⟨g, hg, at_n, content⟩ := own (List.mem_cons_of_mem _ hn)
        exact ⟨g, stay (away hn at_n) hg, at_n, content⟩)]
    by_cases ours : name = Emission.fileName e.eventId
    · subst ours
      obtain ⟨g, hg, at_own, content⟩ := own List.mem_cons_self
      rw [ingestFile_canonical_own i _ plain h hg at_own content]
      simp [absent]
    · rw [ingestFile_canonical_other i _ h apart hf here ours, List.mem_cons]
      simp [Ne.symm ours]

theorem Fresh.apart {id : String} (fresh : s.Fresh id) {e : Emission} (own : e.eventId = id) :
    s.Apart e :=
  fun f hf _ fields content => own ▸ fresh.contents f hf fields content

theorem ingest_canonical (turns : String → Turn) (plain : e.Plain) (h : s.WellFormed)
    (apart : s.Apart e) (own : Emission.fileName e.eventId ∈ s.pending → ∃ f ∈ s.files,
      f.at .spool (Emission.fileName e.eventId) = true ∧ f.content = .value (.obj e.envelope)) :
    (s.ingest i.env turns).Canonical e ↔ s.Canonical e ∨ Emission.fileName e.eventId ∈ s.pending ∧
      (turns (Emission.fileName e.eventId)).records = true := by
  have start : WellFormed { s with result := {} } := ⟨h.paths, h.inodes, h.fresh⟩
  refine foldl_canonical i (s := { s with result := {} }) turns plain start apart
    (pending_nodup h) ?_ own
  intro name hname
  obtain ⟨f, hf, pending, rfl⟩ := mem_pending.mp hname
  exact ⟨f, hf, isPending_at pending⟩

theorem not_traced_syncTick (sync : Option (String → Turn)) (plain : e.Plain) (h : s.WellFormed)
    (fresh : s.Fresh e.eventId) : ¬(s.syncTick i.env sync).Traced e := by
  have absent : Emission.fileName e.eventId ∉ s.pending := fun hn => by
    obtain ⟨f, hf, -, named⟩ := mem_pending.mp hn
    exact fresh.names f hf named
  have uncanonical : ¬s.Canonical e := fun ⟨r, hr, key, _⟩ => fresh.rows r hr key
  cases sync with
  | none =>
    rintro (⟨f, hf, -, named, -⟩ | canonical)
    · exact fresh.names f hf named
    · exact uncanonical canonical
  | some turns =>
    rintro (⟨f, hf, -, named, -⟩ | canonical)
    · rcases (ingest_turned h i.env turns).only f hf with old | ⟨g, hg, -, -, rfl⟩
      · exact fresh.names f old named
      · exact fresh.names g hg named
    · rcases (ingest_canonical i turns plain h (fresh.apart rfl) fun hn => absurd hn absent).mp
        canonical with
        old | ⟨hn, -⟩
      · exact uncanonical old
      · exact absent hn

theorem isSuffixOf_fileName (id : String) :
    ".json".toList.isSuffixOf (Emission.fileName id).toList = true := by
  rw [Emission.fileName, String.toList_append, List.isSuffixOf_iff_suffix]
  exact List.suffix_append _ _

theorem durable_syncTick (sync : Option (String → Turn)) (plain : e.Plain) (h : s.WellFormed)
    (fresh : s.Fresh e.eventId) {s' : Root}
    (written : s' = s.write (Emission.fileName e.eventId) (.value (.obj e.envelope))) :
    (s'.syncTick i.env sync).Traced e ∧ ((s'.syncTick i.env sync).Durable e ↔
      ∀ turns ∈ sync, (turns (Emission.fileName e.eventId)).loses = false) := by
  have wf : s'.WellFormed := written ▸ h.write _ _
  have other : ∀ f ∈ s'.files, f.name = Emission.fileName e.eventId →
      f.content = .value (.obj e.envelope) ∧
      f.dir = .spool := by
    intro f hf named
    rw [written] at hf
    rcases List.mem_append.mp hf with old | new
    · exact absurd named (fresh.names f (List.mem_filter.mp old).1)
    · rw [List.mem_singleton.mp new]
      exact ⟨rfl, rfl⟩
  obtain ⟨f, hf, dir, named, content⟩ : ∃ f ∈ s'.files, f.dir = .spool ∧
      f.name = Emission.fileName e.eventId ∧
      f.content = .value (.obj e.envelope) := by
    rw [written]
    exact ⟨_, List.mem_append_right _ (List.mem_singleton_self _), rfl, rfl, rfl⟩
  cases sync with
  | none =>
    exact ⟨Or.inl ⟨f, hf, trivial, named, content⟩,
      iff_of_true (Or.inl ⟨f, hf, dir, named, content⟩) nofun⟩
  | some turns =>
    have here : f.at .spool f.name = true := SpoolFile.at_iff.mpr ⟨dir, rfl⟩
    have pending : f.name ∈ s'.pending := mem_pending.mpr ⟨f, hf, by
      simp only [isPending, dir, named, isSuffixOf_fileName, and_self, decide_true], rfl⟩
    have turned := ingest_turned wf i.env turns
    have moved := turned.moved f hf here pending
    rw [content, named] at moved
    have apart : s'.Apart e := by
      intro g hg different fields held
      rw [written] at hg
      rcases List.mem_append.mp hg with old | new
      · exact fresh.contents g (List.mem_filter.mp old).1 fields held
      · rw [List.mem_singleton.mp new] at different
        exact absurd rfl different
    have uncanonical : ¬s'.Canonical e := by
      rintro ⟨r, hr, key, -⟩
      rw [written] at hr
      exact fresh.rows r hr key
    have canonical : (s'.ingest i.env turns).Canonical e ↔
        (turns (Emission.fileName e.eventId)).records = true := by
      rw [ingest_canonical i turns plain wf apart fun _ => ⟨f, hf, named ▸ here, content⟩]
      simp only [uncanonical, false_or, named ▸ pending, true_and]
    refine ⟨Or.inl ⟨_, moved, trivial, rfl, rfl⟩, ?_⟩
    have waits : (s'.ingest i.env turns).Stored e (· = .spool) ↔
        (turns (Emission.fileName e.eventId)).destination i.env (.value (.obj e.envelope)) =
          .spool := by
      constructor
      · rintro ⟨g, hg, inSpool, named', content'⟩
        have only : ∀ k ∈ s'.files, k.name = Emission.fileName e.eventId → k = f := fun k hk same =>
          Table.eq_of_key_eq wf.paths hk hf
            (by simp [SpoolFile.path, (other k hk same).2, dir, named, same])
              (by simp [SpoolFile.path])
        have same : g.inode = f.inode := by
          rcases turned.only g hg with old | ⟨k, hk, -, -, rfl⟩
          · exact congrArg SpoolFile.inode (only g old named')
          · exact show k.inode = f.inode from congrArg SpoolFile.inode (only k hk named')
        have equal := Table.eq_of_key_eq turned.wellFormed.inodes hg moved
          (by simp [SpoolFile.inodeKey, same]) (by simp [SpoolFile.inodeKey])
        rw [equal] at inSpool
        exact inSpool
      · intro inSpool
        exact ⟨_, moved, inSpool, rfl, rfl⟩
    simp only [Option.mem_def, Option.some.injEq, forall_eq']
    exact (or_congr waits canonical).trans (destination_plain i plain _)

end Own

theorem emit_plain (f : WriteFaults) (complete : e.missingKeys = []) : s.emit f e =
    if f.raised = none then s.write (Emission.fileName e.eventId)
      (.value (.obj e.envelope)) else s := by
  have first :
      f.raised = (f.imports <|> f.envelope <|> (f.dirs <|> f.temp <|> f.dump <|> f.replace)) := rfl
  unfold emit writeEvent?
  rw [if_neg (not_not.mpr complete)]
  cases imports : f.imports with
  | some error => simp [first, imports]
  | none =>
    cases envelope : f.envelope with
    | some error => simp [first, imports, envelope]
    | none =>
      cases f.raised with
      | some error => rfl
      | none => rfl

theorem emit_cases (f : WriteFaults) (e : Emission) (s : Root) : s.emit f e = s ∨
    s.emit f e = s.write (Emission.fileName e.eventId) (.value (.obj e.envelope)) := by
  unfold emit writeEvent?
  split
  next written =>
    split at written
    · cases written
    split at written
    · cases written
    split at written
    · cases written
    · cases written
      exact Or.inr rfl
  next => exact Or.inl rfl

theorem WellFormed.emit (h : s.WellFormed) (f : WriteFaults) (e : Emission) :
    (s.emit f e).WellFormed := by
  rcases emit_cases f e s with same | written
  · rwa [same]
  · exact written ▸ h.write _ _

theorem Fresh.emit {id : String} (fresh : s.Fresh id) (f : WriteFaults) {e : Emission}
    (other : e.eventId ≠ id) :
    (s.emit f e).Fresh id := by
  rcases emit_cases f e s with same | written
  · rwa [same]
  rw [written]
  refine ⟨fun g hg => ?_, fun g hg fields content => ?_, fresh.rows⟩ <;>
    rcases List.mem_append.mp hg with old | new
  · exact fresh.names g (List.mem_filter.mp old).1
  · rw [List.mem_singleton.mp new]
    exact fun same => other (by simpa [Emission.fileName] using same)
  · exact fresh.contents g (List.mem_filter.mp old).1 fields content
  · rw [List.mem_singleton.mp new] at content
    cases content
    rw [e.eventId_envelope]
    exact fun same => other (Option.some.inj same)

end Root

end DreamStudio.Spool
