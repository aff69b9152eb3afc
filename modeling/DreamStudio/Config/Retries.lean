import DreamStudio.Config.Migrations

namespace DreamStudio.Config

open Library

variable {σ : Type} {execute : Engine σ}

/-- What a migration needs in order to be tried again: wherever it was broken off, its statements up
to there lead again to where they led, and none of them touches the versions. -/
structure MigrationFile.Restartable (execute : Engine σ) (f : MigrationFile) : Prop where
  resumable : Connection.Resumable (f.body execute)
  apart : ∀ stmt ∈ f.statements execute.letters, ∀ d d', execute.run stmt d = .ok d' →
    d'.versions = d.versions

theorem le_foldr_max {v : Nat} {vs : List Nat} (member : v ∈ vs) : v ≤ vs.foldr max 0 := by
  induction vs with
  | nil => cases member
  | cons w vs ih =>
    rcases List.mem_cons.mp member with rfl | later
    · exact Nat.le_max_left _ _
    · exact (ih later).trans (Nat.le_max_right _ _)

theorem foldr_max_lt {v : Nat} {vs : List Nat} (positive : 0 < v) (below : ∀ w ∈ vs, w < v) :
    vs.foldr max 0 < v := by
  induction vs with
  | nil => exact positive
  | cons w vs ih =>
    rw [List.forall_mem_cons] at below
    exact Nat.max_lt.mpr ⟨below.1, ih below.2⟩

section File

variable {f : MigrationFile}

theorem body_versions (restartable : f.Restartable execute) {vs : List Nat} (k : Nat)
    {c : Connection (Database σ)} (start : c.saved.versions = vs ∧ c.visible.versions = vs) :
    let c' := (Connection.run ((f.body execute).take k) c).1
    c'.saved.versions = vs ∧ c'.visible.versions = vs := by
  refine Connection.run_invariant (P := fun d : Database σ => d.versions = vs)
    (fun act member c c' held acted => ?_) start
  obtain ⟨stmt, listed, rfl⟩ := List.mem_map.mp (List.mem_of_mem_take member)
  unfold executeStatement at acted
  split at acted
  next d executed =>
    have written : d.versions = vs := (restartable.apart stmt listed _ _ executed).trans held.2
    obtain rfl := Option.some.inj acted
    split
    · exact ⟨held.1, written⟩
    · obtain ⟨saved, pending⟩ := c
      cases pending with
      | none => exact ⟨written, written⟩
      | some p => exact ⟨held.1, written⟩
  · split at acted
    · obtain rfl := Option.some.inj acted
      exact held
    · cases acted

theorem run_again (restartable : f.Restartable execute) (k : Nat) (d : Database σ) :
    Connection.run (f.actions execute)
        (.opened (Connection.run ((f.body execute).take k) (.opened d)).1.close) =
      Connection.run (f.actions execute) (.opened d) :=
  restartable.resumable.run_again k d _

/-- A migration that went through to its commit. -/
def Recorded (execute : Engine σ) (f : MigrationFile) (d d' : Database σ) : Prop :=
  d'.versions = d.versions ++ [f.version] ∧ Connection.run (f.actions execute) (.opened d) =
    (.opened d', true)

def BrokenOff (execute : Engine σ) (f : MigrationFile) (d : Database σ)
    (c : Connection (Database σ)) : Prop :=
  c.close.versions = d.versions ∧
    Connection.run (f.actions execute) (.opened c.close) =
      Connection.run (f.actions execute) (.opened d)

theorem run_actions_cases (restartable : f.Restartable execute) (d : Database σ) :
    (∃ d', Recorded execute f d d') ∨
      ∃ c, Connection.run (f.actions execute) (.opened d) = (c, false) ∧
        BrokenOff execute f d c := by
  have kept := body_versions restartable (f.body execute).length (c := .opened d) ⟨rfl, rfl⟩
  have again := run_again restartable (f.body execute).length d
  rw [List.take_length] at kept again
  rcases ran : Connection.run (f.body execute) (.opened d) with ⟨c, ok⟩
  rw [ran] at kept again
  cases ok with
  | false => exact Or.inr ⟨c, Connection.run_append_of_stuck ran _, kept.1, again⟩
  | true =>
    have recorded : Connection.run (f.actions execute) (.opened d) =
        Connection.run [recordVersion f.version] c := Connection.run_append ran _
    by_cases listed : f.version ∈ c.visible.versions
    · rw [Connection.run, recordVersion, if_pos listed] at recorded
      exact Or.inr ⟨c, recorded, kept.1, again⟩
    · rw [Connection.run, recordVersion, if_neg listed] at recorded
      exact Or.inl ⟨_, congrArg (· ++ [f.version]) kept.2, recorded⟩

theorem runFile_cases (restartable : f.Restartable execute) (fault : Fault) (d : Database σ) :
    (∃ d' ok, runFile execute fault f (.opened d) = (.opened d', ok) ∧ Recorded execute f d d') ∨
      ∃ c, runFile execute fault f (.opened d) = (c, false) ∧ BrokenOff execute f d c := by
  have unmet (same : runFile execute fault f (.opened d) =
      Connection.run (f.actions execute) (.opened d)) :
      (∃ d' ok, runFile execute fault f (.opened d) = (.opened d', ok) ∧ Recorded execute f d d') ∨
        ∃ c, runFile execute fault f (.opened d) = (c, false) ∧ BrokenOff execute f d c := by
    rcases run_actions_cases restartable d with ⟨d', done⟩ | ⟨c, ran, broken⟩
    · exact Or.inl ⟨d', true, same.trans done.2, done⟩
    · exact Or.inr ⟨c, same.trans ran, broken⟩
  rcases fault with - | ⟨version, k⟩
  · exact unmet rfl
  · by_cases here : version = f.version
    · have met : runFile execute (some (version, k)) f (.opened d) =
          ((Connection.run ((f.actions execute).take k) (.opened d)).1, false) := if_pos here
      by_cases early : k ≤ (f.body execute).length
      · rw [MigrationFile.actions, List.take_append_of_le_length early] at met
        exact Or.inr ⟨_, met, (body_versions restartable k ⟨rfl, rfl⟩).1, run_again restartable k d⟩
      · have late : (f.actions execute).length ≤ k := by
          rw [MigrationFile.actions, List.length_append]
          simp only [List.length_cons, List.length_nil]
          omega
        rw [List.take_of_length_le late] at met
        rcases run_actions_cases restartable d with ⟨d', done⟩ | ⟨c, ran, broken⟩
        · rw [done.2] at met
          exact Or.inl ⟨d', false, met, done⟩
        · rw [ran] at met
          exact Or.inr ⟨c, met, broken⟩
    · exact unmet (if_neg here)

end File

structure Ahead (d : Database σ) (fs : List MigrationFile) : Prop where
  positive : ∀ f ∈ fs, 0 < f.version
  increasing : fs.Pairwise fun f g => f.version < g.version
  later : ∀ f ∈ fs, ∀ v ∈ d.versions, v < f.version

theorem Ahead.lt {d : Database σ} {fs : List MigrationFile} (ahead : Ahead d fs) {f : MigrationFile}
    (member : f ∈ fs) : appliedSchemaVersion d < f.version :=
  foldr_max_lt (ahead.positive f member) (ahead.later f member)

theorem Ahead.next {d d' : Database σ} {f : MigrationFile} {fs : List MigrationFile}
    (ahead : Ahead d (f :: fs)) (recorded : d'.versions = d.versions ++ [f.version]) :
    Ahead d' fs where
  positive g member := ahead.positive g (List.mem_cons_of_mem _ member)
  increasing := (List.pairwise_cons.mp ahead.increasing).2
  later g member v listed := by
    rw [recorded] at listed
    rcases List.mem_append.mp listed with old | new
    · exact ahead.later g (List.mem_cons_of_mem _ member) v old
    · obtain rfl := List.mem_singleton.mp new
      exact (List.pairwise_cons.mp ahead.increasing).1 g member

theorem Ahead.filter_eq {d : Database σ} {fs : List MigrationFile} (ahead : Ahead d fs) :
    fs.filter (fun f => appliedSchemaVersion d < f.version) = fs :=
  List.filter_eq_self.mpr fun _ member => decide_eq_true (ahead.lt member)

theorem Ahead.of_versions_eq {d d' : Database σ} {fs : List MigrationFile} (ahead : Ahead d fs)
    (same : d'.versions = d.versions) : Ahead d' fs where
  positive := ahead.positive
  increasing := ahead.increasing
  later f member v listed := ahead.later f member v (same ▸ listed)

theorem filter_cons_of_applied {d : Database σ} {f : MigrationFile} {fs : List MigrationFile}
    (applied : f.version ∈ d.versions) :
    (f :: fs).filter (fun f => appliedSchemaVersion d < f.version) =
      fs.filter (fun f => appliedSchemaVersion d < f.version) :=
  List.filter_cons_of_neg fun ahead => Nat.not_lt.mpr (le_foldr_max applied)
    (of_decide_eq_true ahead)

theorem runFiles_cons_of_recorded {d d' : Database σ} {f : MigrationFile}
    (recorded : Recorded execute f d d') (fs : List MigrationFile) :
    runFiles execute none (f :: fs) (.opened d) = runFiles execute none fs (.opened d') := by
  rw [runFiles, runFile, recorded.2]

theorem runFiles_again {fs : List MigrationFile} (restartable : ∀ f ∈ fs, f.Restartable execute)
    (fault : Fault) {d : Database σ} (ahead : Ahead d fs) :
    ∃ c ok, runFiles execute fault fs (.opened d) = (c, ok) ∧
      (∃ n, c.close.versions = d.versions ++ (fs.map (·.version)).take n) ∧
      runFiles execute none (fs.filter fun f => appliedSchemaVersion c.close < f.version)
        (.opened c.close) = runFiles execute none fs (.opened d) := by
  induction fs generalizing d with
  | nil => exact ⟨_, _, rfl, ⟨0, (List.append_nil _).symm⟩, rfl⟩
  | cons f fs ih =>
    rw [List.forall_mem_cons] at restartable
    rcases runFile_cases restartable.1 fault d with ⟨d', ok, ran, recorded⟩ | ⟨c, ran, kept, again⟩
    · have direct := runFiles_cons_of_recorded recorded fs
      have next := ahead.next recorded.1
      cases ok with
      | true =>
        obtain ⟨c, ok, rest, ⟨n, versions⟩, again⟩ := ih restartable.2 next
        have versions' : c.close.versions = d.versions ++
            ((f :: fs).map (·.version)).take (n + 1) := by
          rw [versions, recorded.1, List.append_assoc, List.map_cons, List.take_succ_cons,
            List.singleton_append]
        refine ⟨c, ok, ?_, ⟨n + 1, versions'⟩, ?_⟩
        · rw [runFiles, ran]
          exact rest
        · rw [filter_cons_of_applied (by rw [versions']; simp), again, direct]
      | false =>
        refine ⟨.opened d', false, ?_, ⟨1, recorded.1⟩, ?_⟩
        · rw [runFiles, ran]
        · rw [Connection.close_opened, filter_cons_of_applied (by rw [recorded.1]; simp),
            next.filter_eq,
            direct]
    · refine ⟨c, false, ?_, ⟨0, by simpa using kept⟩, ?_⟩
      · rw [runFiles, ran]
      · rw [(ahead.of_versions_eq kept).filter_eq, runFiles, runFiles]
        simp only [runFile]
        rw [again]

section Call

variable {files : List MigrationFile} {call : MigrationCall} {d d' : Database σ}

/-- Files numbered from one on, each higher than those before it. -/
structure Numbered (files : List MigrationFile) : Prop where
  positive : ∀ f ∈ files, 0 < f.version
  increasing : files.Pairwise fun f g => f.version < g.version

/-- The recorded versions are those of the first so many migrations. -/
def Segment (files : List MigrationFile) (d : Database σ) : Prop :=
  d.versions <+: files.map (·.version)

instance : Decidable (Segment files d) := inferInstanceAs (Decidable (_ <+: _))

theorem Segment.split (segment : Segment files d) :
    ∃ done rest, files = done ++ rest ∧ d.versions = done.map (·.version) := by
  obtain ⟨later, same⟩ := segment
  obtain ⟨done, rest, split, first, -⟩ := List.map_eq_append_iff.mp same.symm
  exact ⟨done, rest, split, first.symm⟩

theorem Numbered.due_ahead (numbered : Numbered files) : Ahead d (call.due files d) where
  positive f member := numbered.positive f (List.mem_of_mem_filter member)
  increasing := numbered.increasing.sublist List.filter_sublist
  later f member v listed := by
    have later := of_decide_eq_true (List.mem_filter.mp member).2
    exact (le_foldr_max listed).trans_lt later.1

theorem due_again (more : ∀ v ∈ d.versions, v ∈ d'.versions) :
    call.due files d' = (call.due files d).filter fun f => appliedSchemaVersion d' < f.version := by
  unfold MigrationCall.due
  rw [List.filter_filter]
  refine List.filter_congr fun f _ => ?_
  have grown (ahead : appliedSchemaVersion d' < f.version) : appliedSchemaVersion d < f.version :=
    foldr_max_lt (Nat.zero_lt_of_lt ahead) fun v listed =>
      (le_foldr_max (more v listed)).trans_lt ahead
  by_cases ahead : appliedSchemaVersion d' < f.version
  · simp [ahead, grown ahead]
  · simp [ahead]

theorem filter_prefix {α : Type} {p : α → Bool} {xs : List α}
    (closed : xs.Pairwise fun a b => p b = true → p a = true) : xs.filter p <+: xs := by
  induction xs with
  | nil => exact List.nil_prefix
  | cons x xs ih =>
    obtain ⟨head, tail⟩ := List.pairwise_cons.mp closed
    by_cases holds : p x = true
    · rw [List.filter_cons_of_pos holds]
      exact List.cons_prefix_cons.mpr ⟨rfl, ih tail⟩
    · rw [List.filter_cons_of_neg holds,
        List.filter_eq_nil_iff.mpr fun y member later => holds (head y member later)]
      exact List.nil_prefix

theorem Numbered.due_prefix (numbered : Numbered files) (call : MigrationCall)
    {done rest : List MigrationFile} (split : files = done ++ rest)
    (recorded : d.versions = done.map (·.version)) :
    call.due files d <+: rest := by
  have passed : ∀ f ∈ done, f.version ≤ appliedSchemaVersion d := fun f member =>
    le_foldr_max (recorded ▸ List.mem_map_of_mem member)
  have ahead : ∀ f ∈ rest, appliedSchemaVersion d < f.version := by
    intro f member
    refine foldr_max_lt (numbered.positive f (split ▸ List.mem_append_right _ member))
      fun v listed => ?_
    rw [recorded] at listed
    obtain ⟨g, there, rfl⟩ := List.mem_map.mp listed
    exact (List.pairwise_append.mp (split ▸ numbered.increasing)).2.2 g there f member
  have due : call.due files d = rest.filter fun f =>
      f.version ≤ call.latestCode files ∧ !call.withholds f.version := by
    unfold MigrationCall.due
    generalize call.latestCode files = latest
    rw [split, List.filter_append, List.filter_eq_nil_iff.mpr ?_, List.nil_append]
    · exact List.filter_congr fun f member => by simp [ahead f member]
    · intro f member due
      exact Nat.not_lt.mpr (passed f member) (of_decide_eq_true due).1
  rw [due]
  refine filter_prefix ?_
  refine (List.pairwise_append.mp (split ▸ numbered.increasing)).2.1.imp fun {f g} less due => ?_
  have due := of_decide_eq_true due
  have ordered : (f.version : Int) ≤ g.version := by omega
  refine decide_eq_true ⟨Int.le_trans ordered due.1, ?_⟩
  simp only [MigrationCall.withholds, Bool.not_eq_true', Bool.and_eq_false_imp,
    decide_eq_false_iff_not] at due ⊢
  intro live
  have := due.2 live
  omega

theorem runMigrations_of_ran {fault : Fault} {c : Connection (Database σ)} {ok : Bool}
    (some_ : files ≠ []) (known : appliedSchemaVersion d ≤ latestMigrationVersion files)
    (ran : runFiles execute fault (call.due files d) (.opened d) = (c, ok)) :
    runMigrations execute files call fault d =
      (c.close, if ok then some (appliedSchemaVersion c.close) else none) := by
  rw [runMigrations, if_neg some_, if_neg (Nat.not_lt.mpr known), ran]
  cases ok <;> rfl

theorem Segment.known (segment : Segment files d) :
    appliedSchemaVersion d ≤ latestMigrationVersion files := by
  have listed : ∀ v ∈ d.versions, v < latestMigrationVersion files + 1 := fun v member =>
    Nat.lt_succ_of_le (le_foldr_max (segment.subset member))
  exact Nat.le_of_lt_succ (foldr_max_lt (Nat.succ_pos _) listed)

theorem runMigrations_again (numbered : Numbered files) (segment : Segment files d)
    (restartable : ∀ f ∈ call.due files d, f.Restartable execute) (fault : Fault) :
    Segment files (runMigrations execute files call fault d).1 ∧
      runMigrations execute files call none (runMigrations execute files call fault d).1 =
        runMigrations execute files call none d := by
  by_cases empty : files = []
  · have same : runMigrations execute files call fault d = (d, some (appliedSchemaVersion d)) :=
      if_pos empty
    rw [same]
    exact ⟨segment, rfl⟩
  · obtain ⟨c, ok, ran, ⟨n, versions⟩, again⟩ := runFiles_again restartable fault numbered.due_ahead
    rw [runMigrations_of_ran empty segment.known ran]
    obtain ⟨done, rest, split, recorded⟩ := segment.split
    have segment' : Segment files c.close := by
      have next := (List.take_prefix n _).trans
        ((numbered.due_prefix call split recorded).map (·.version))
      have names : files.map (·.version) = done.map (·.version) ++ rest.map (·.version) := by
        rw [split, List.map_append]
      rw [Segment, versions, recorded, names]
      exact (List.prefix_append_right_inj _).mpr next
    refine ⟨segment', ?_⟩
    have more : ∀ v ∈ d.versions, v ∈ c.close.versions := fun v listed =>
      versions ▸ List.mem_append_left _ listed
    rcases direct : runFiles execute none (call.due files d) (.opened d) with ⟨c', ok'⟩
    rw [runMigrations_of_ran empty segment.known direct]
    exact runMigrations_of_ran empty segment'.known (by rw [due_again more, again, direct])

end Call

/-- Calls one after another, each on the database the one before left. -/
def migrating (execute : Engine σ) (files : List MigrationFile) :
    Machine (Database σ) (MigrationCall × Fault) where
  step d l := some (runMigrations execute files l.1 l.2 d).1

/-- After a call the same call, with nothing in its way, ends as if the first had met nothing
either. -/
def Retried (execute : Engine σ) (files : List MigrationFile)
    (x : Machine.Transition (Database σ) (MigrationCall × Fault)) : Prop :=
  runMigrations execute files x.label.1 none x.after =
    runMigrations execute files x.label.1 none x.before

instance [DecidableEq σ] (x : Machine.Transition (Database σ) (MigrationCall × Fault)) :
    Decidable (Retried execute files x) := inferInstanceAs (Decidable (_ = _))

/-- Where the migrations that are due can be broken off and tried again, a failed call can. -/
theorem retried_of_restartable (execute : Engine σ) {files : List MigrationFile}
    (numbered : Numbered files) {start : Database σ} (segment : Segment files start)
    (ls : List (MigrationCall × Fault))
    (restartable : ∀ x ∈ (migrating execute files).transitions start ls,
      ∀ f ∈ x.label.1.due files x.before, f.Restartable execute) :
    ∀ x ∈ (migrating execute files).transitions start ls, Segment files x.after ∧
      Retried execute files x := by
  intro x member
  have held := ((migrating execute files).invariant_of_guarded (J := Segment files)
    (G := fun d l _ => ∀ f ∈ l.1.due files d, f.Restartable execute)
    (fun d l d' segment sound step => by
      obtain rfl := Option.some.inj step
      exact (runMigrations_again numbered segment sound l.2).1) segment restartable x member).1
  have step := Option.some.inj ((migrating execute files).step_of_mem_transitions member)
  have again := runMigrations_again numbered held (restartable x member) x.label.2
  rw [Retried, ← step]
  exact again

section Runs

/-- What SQLite makes of four statements, given the tables and columns that are there. -/
def catalog : Engine (List String) where
  letters := .plain
  run stmt d :=
    let create (object : String) := { d with content := d.content ++ [object] }
    if stmt = "CREATE TABLE IF NOT EXISTS t(a)" then
      if "t" ∈ d.content then .ok d else .ok (create "t")
    else if stmt = "ALTER TABLE t ADD b" then
      if "t" ∉ d.content then .error ⟨true, "no such table: t"⟩
      else if "t.b" ∈ d.content then .error ⟨true, "duplicate column name: b"⟩
      else .ok (create "t.b")
    else if stmt = "CREATE TABLE u(a)" then
      if "u" ∈ d.content then .error ⟨true, "table u already exists"⟩ else .ok (create "u")
    else if stmt = "INSERT INTO u SELECT a FROM t" then
      if "u" ∈ d.content then .ok d else .error ⟨true, "no such table: u"⟩
    else .error ⟨true, "syntax error"⟩

def anyCall : MigrationCall := ⟨none, false, 0, false⟩

def widenFile : MigrationFile := ⟨1, "CREATE TABLE IF NOT EXISTS t(a);\nALTER TABLE t ADD b;"⟩

theorem widenFile_statements :
    widenFile.statements catalog.letters =
      ["CREATE TABLE IF NOT EXISTS t(a)", "ALTER TABLE t ADD b"] := by
  decide +kernel

def Database.with (d : Database (List String)) (object : String) : Database (List String) :=
  if object ∈ d.content then d else { d with content := d.content ++ [object] }

theorem create_opened (d : Database (List String)) :
    executeStatement catalog "CREATE TABLE IF NOT EXISTS t(a)" (.opened d) =
      some (.opened (d.with "t")) := by
  have plain : opensTransaction "CREATE TABLE IF NOT EXISTS t(a)" = false := by decide +kernel
  have made : catalog.run "CREATE TABLE IF NOT EXISTS t(a)" d = .ok (d.with "t") := by
    simp only [catalog, if_true, Database.with]
    split <;> rfl
  rw [executeStatement, Connection.visible_opened, made]
  simp [plain, Connection.write, Connection.opened]

theorem alter_opened (d : Database (List String)) :
    executeStatement catalog "ALTER TABLE t ADD b" (.opened d) =
      if "t" ∈ d.content then some (.opened (d.with "t.b")) else none := by
  have plain : opensTransaction "ALTER TABLE t ADD b" = false := by decide +kernel
  have again : tolerates catalog.letters "ALTER TABLE t ADD b"
      ⟨true, "duplicate column name: b"⟩ = true := by
    decide +kernel
  have absent : tolerates catalog.letters "ALTER TABLE t ADD b"
      ⟨true, "no such table: t"⟩ = false := by
    decide +kernel
  have made : catalog.run "ALTER TABLE t ADD b" d =
      if "t" ∉ d.content then .error ⟨true, "no such table: t"⟩
      else if "t.b" ∈ d.content then .error ⟨true, "duplicate column name: b"⟩
      else .ok { d with content := d.content ++ ["t.b"] } := rfl
  rw [executeStatement, Connection.visible_opened, made, Database.with]
  by_cases table : "t" ∈ d.content
  · by_cases column : "t.b" ∈ d.content
    · simp [table, column, again]
    · simp [table, column, plain, Connection.write, Connection.opened]
  · simp [table, absent]

theorem mem_with {d : Database (List String)} {object other : String} :
    other ∈ (d.with object).content ↔ other ∈ d.content ∨ other = object := by
  unfold Database.with
  split
  next there => exact ⟨Or.inl, fun either => either.elim id fun same => same ▸ there⟩
  · simp

theorem with_eq_self {d : Database (List String)} {object : String} :
    d.with object = d ↔ object ∈ d.content := by
  refine ⟨fun same => ?_, fun there => if_pos there⟩
  rw [← same]
  exact mem_with.mpr (Or.inr rfl)

theorem create_settled {d : Database (List String)} :
    Connection.Settled (executeStatement catalog "CREATE TABLE IF NOT EXISTS t(a)") d ↔
      "t" ∈ d.content := by
  rw [Connection.Settled, create_opened, Option.some_inj, Connection.opened_inj, with_eq_self]

theorem alter_settled {d : Database (List String)} :
    Connection.Settled (executeStatement catalog "ALTER TABLE t ADD b") d ↔
      "t" ∈ d.content ∧ "t.b" ∈ d.content := by
  rw [Connection.Settled, alter_opened]
  by_cases table : "t" ∈ d.content
  · rw [if_pos table, Option.some_inj, Connection.opened_inj, with_eq_self, and_iff_right table]
  · simp [table]

theorem widenFile_restartable : widenFile.Restartable catalog := by
  have body : widenFile.body catalog = [executeStatement catalog "CREATE TABLE IF NOT EXISTS t(a)",
      executeStatement catalog "ALTER TABLE t ADD b"] := by
    rw [MigrationFile.body, widenFile_statements]
    rfl
  have kept {d : Database (List String)} (object : String) : ∀ other ∈ widenFile.body catalog,
      Connection.Settled other d → Connection.Settled other (d.with object) := by
    rw [body, List.forall_mem_cons, List.forall_mem_singleton]
    simp only [create_settled, alter_settled, mem_with]
    exact ⟨Or.inl, fun both => ⟨Or.inl both.1, Or.inl both.2⟩⟩
  refine ⟨Connection.resumable_of_settling ?_, ?_⟩
  · intro act member d c acted
    have listed := body ▸ member
    rcases List.mem_cons.mp listed with rfl | listed
    · rw [create_opened] at acted
      obtain rfl := Option.some.inj acted
      exact ⟨_, rfl, create_settled.mpr (mem_with.mpr (Or.inr rfl)), kept "t"⟩
    · obtain rfl := List.mem_singleton.mp listed
      rw [alter_opened] at acted
      split at acted
      next table =>
        obtain rfl := Option.some.inj acted
        exact ⟨_, rfl, alter_settled.mpr ⟨mem_with.mpr (Or.inl table), mem_with.mpr (Or.inr rfl)⟩,
          kept "t.b"⟩
      · cases acted
  · intro stmt _ d d' executed
    simp only [catalog] at executed
    repeat' split at executed
    all_goals cases executed
    all_goals rfl

theorem widen_retried :
    ((migrating catalog [widenFile]).transitions ⟨[], []⟩
      [(anyCall, some (1, 1)), (anyCall, none)]).length = 2 ∧
      ∀ x ∈ (migrating catalog [widenFile]).transitions ⟨[], []⟩
        [(anyCall, some (1, 1)), (anyCall, none)],
        Segment [widenFile] x.after ∧ Retried catalog [widenFile] x := by
  have segment : Segment [widenFile] (⟨[], []⟩ : Database (List String)) := List.nil_prefix
  refine ⟨rfl, retried_of_restartable catalog ⟨by decide, by decide⟩ segment _ fun x _ f due => ?_⟩
  obtain rfl := List.mem_singleton.mp (List.mem_of_mem_filter due)
  exact widenFile_restartable

def rebuildFile : MigrationFile := ⟨1, "CREATE TABLE u(a);\nINSERT INTO u SELECT a FROM t;"⟩

theorem rebuild_not_retried :
    ¬∀ x ∈ (migrating catalog [rebuildFile]).transitions ⟨["t"], []⟩ [(anyCall, some (1, 1))],
      Segment [rebuildFile] x.after ∧ Retried catalog [rebuildFile] x := by
  decide +kernel

end Runs

end DreamStudio.Config
