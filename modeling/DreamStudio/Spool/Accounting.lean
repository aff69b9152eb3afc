import DreamStudio.Spool.Ingest

namespace DreamStudio.Spool

open Library

section Rename

variable {files : List SpoolFile} {name : String} {src dst : Dir}

@[simp] theorem SpoolFile.at_iff {f : SpoolFile} {dir : Dir} :
    f.at dir name = true ↔ f.dir = dir ∧ f.name = name := by
  simp [SpoolFile.at]

theorem mem_rename {g : SpoolFile} :
    g ∈ rename files name src dst ↔
      (g ∈ files ∧ g.at src name = false ∧ g.at dst name = false) ∨
        ∃ f ∈ files, f.at src name = true ∧ f.at dst name = false ∧ g = { f with dir := dst } := by
  simp only [rename, Table.mem_update, List.mem_filter, Bool.not_eq_true']
  constructor
  · rintro ⟨f, ⟨hf, notDst⟩, rfl⟩
    split
    next here => exact Or.inr ⟨f, hf, here, notDst, rfl⟩
    next other => exact Or.inl ⟨hf, eq_false_of_ne_true other, notDst⟩
  · rintro (⟨hg, notSrc, notDst⟩ | ⟨f, hf, here, notDst, rfl⟩)
    · exact ⟨g, ⟨hg, notDst⟩, by simp [notSrc]⟩
    · exact ⟨f, ⟨hf, notDst⟩, by simp [here]⟩

theorem mem_rename_of_name_ne {g : SpoolFile} (hne : g.name ≠ name) :
    g ∈ rename files name src dst ↔ g ∈ files := by
  have notAt : ∀ d, g.at d name = false := fun d => by simp [SpoolFile.at, hne]
  rw [mem_rename]
  constructor
  · rintro (⟨hg, -⟩ | ⟨f, hf, here, -, rfl⟩)
    · exact hg
    · exact absurd (SpoolFile.at_iff.mp here).2 hne
  · exact fun hg => Or.inl ⟨hg, notAt _, notAt _⟩

theorem not_mem_rename_src (apart : src ≠ dst) :
    (rename files name src dst).any (·.at src name) = false := by
  rw [List.any_eq_false]
  intro g hg here
  rcases mem_rename.mp hg with ⟨-, notSrc, -⟩ | ⟨f, -, -, -, rfl⟩
  · rw [here] at notSrc
    cases notSrc
  · exact apart (SpoolFile.at_iff.mp here).1.symm

theorem rename_any_dst (apart : src ≠ dst) (here : files.any (·.at src name) = true) :
    (rename files name src dst).any (·.at dst name) = true := by
  obtain ⟨f, hf, at_src⟩ := List.any_eq_true.mp here
  have notDst : f.at dst name = false := by
    rw [SpoolFile.at_iff] at at_src
    simp [SpoolFile.at, at_src, apart]
  exact List.any_eq_true.mpr
    ⟨{ f with dir := dst }, mem_rename.mpr (Or.inr ⟨f, hf, at_src, notDst, rfl⟩),
      by simp [SpoolFile.at, (SpoolFile.at_iff.mp at_src).2]⟩

theorem rename_path_unique (h : Table.Unique SpoolFile.path files) :
    Table.Unique SpoolFile.path (rename files name src dst) := by
  refine List.pairwise_map.mpr ((Table.filter_unique h _).imp_of_mem ?_)
  intro f g hf hg apart same
  have notDst := (List.mem_filter.mp hf).2
  have notDst' := (List.mem_filter.mp hg).2
  simp only [Bool.not_eq_true', SpoolFile.at, decide_eq_false_iff_not] at notDst notDst'
  simp only [Table.SameKey, SpoolFile.path, Option.some.injEq, Prod.mk.injEq, ne_eq,
    reduceCtorEq, not_false_eq_true, and_true, SpoolFile.at, decide_eq_true_eq] at apart same
  split at same <;> split at same <;> simp_all

theorem rename_inode_unique (h : Table.Unique SpoolFile.inodeKey files) :
    Table.Unique SpoolFile.inodeKey (rename files name src dst) :=
  Table.update_unique (Table.filter_unique h _) fun _ _ => rfl

end Rename

def travel (files : List SpoolFile) (name : String) : Dir → List Dir → List SpoolFile
  | _, [] => files
  | src, dst :: rest => travel (rename files name src dst) name dst rest

def arrival : Dir → List Dir → Dir
  | src, [] => src
  | _, dst :: rest => arrival dst rest

@[simp] theorem arrival_nil (src : Dir) : arrival src [] = src := rfl

@[simp] theorem arrival_cons (src dst : Dir) (rest : List Dir) :
    arrival src (dst :: rest) = arrival dst rest := rfl

section Travel

variable {files : List SpoolFile} {name : String} {src : Dir} {stops : List Dir}

theorem mem_travel_of_name_ne {g : SpoolFile} (hne : g.name ≠ name) :
    g ∈ travel files name src stops ↔ g ∈ files := by
  induction stops generalizing files src with
  | nil => exact Iff.rfl
  | cons dst rest ih => exact ih.trans (mem_rename_of_name_ne hne)

theorem arrives {f : SpoolFile} (hf : f ∈ files) (here : f.at src name = true)
    (apart : List.IsChain (· ≠ ·) (src :: stops)) :
    { f with dir := arrival src stops } ∈ travel files name src stops := by
  induction stops generalizing files src f with
  | nil =>
    obtain ⟨rfl, -⟩ := SpoolFile.at_iff.mp here
    exact hf
  | cons dst rest ih =>
    obtain ⟨hdir, hname⟩ := SpoolFile.at_iff.mp here
    obtain ⟨differs, apart⟩ := List.isChain_cons_cons.mp apart
    have notDst : f.at dst name = false := by simp [SpoolFile.at, hdir, differs]
    have moved := mem_rename.mpr (Or.inr ⟨f, hf, here, notDst, rfl⟩)
    exact ih (f := { f with dir := dst }) moved (by simp [SpoolFile.at, hname]) apart

theorem of_mem_travel {g : SpoolFile} (hg : g ∈ travel files name src stops) :
    g ∈ files ∨ ∃ f ∈ files, f.at src name = true ∧ g = { f with dir := arrival src stops } := by
  suffices g ∈ files ∧ (stops ≠ [] → g.at src name = false) ∨
      ∃ f ∈ files, f.at src name = true ∧ g = { f with dir := arrival src stops } from
    this.imp_left And.left
  induction stops generalizing files src with
  | nil => exact Or.inl ⟨hg, fun h => absurd rfl h⟩
  | cons dst rest ih =>
    rcases ih hg with ⟨hg, left⟩ | ⟨h, hh, here, rfl⟩
    · rcases mem_rename.mp hg with ⟨hg, notSrc, -⟩ | ⟨f, hf, here, -, rfl⟩
      · exact Or.inl ⟨hg, fun _ => notSrc⟩
      · cases rest with
        | nil => exact Or.inr ⟨f, hf, here, rfl⟩
        | cons next rest =>
          have notDst := left (List.cons_ne_nil _ _)
          simp [SpoolFile.at, (SpoolFile.at_iff.mp here).2] at notDst
    · rcases mem_rename.mp hh with ⟨-, -, notDst⟩ | ⟨f, hf, here', -, rfl⟩
      · rw [here] at notDst
        cases notDst
      · exact Or.inr ⟨f, hf, here', rfl⟩

theorem travel_path_unique (h : Table.Unique SpoolFile.path files) :
    Table.Unique SpoolFile.path (travel files name src stops) := by
  induction stops generalizing files src with
  | nil => exact h
  | cons dst rest ih => exact ih (rename_path_unique h)

theorem travel_inode_unique (h : Table.Unique SpoolFile.inodeKey files) :
    Table.Unique SpoolFile.inodeKey (travel files name src stops) := by
  induction stops generalizing files src with
  | nil => exact h
  | cons dst rest ih => exact ih (rename_inode_unique h)

end Travel

namespace Turn

def toFailed (t : Turn) : List Dir := if t.fail.isSome then [] else [.failed]

def afterRaise (t : Turn) : Raised → List Dir
  | .operational message => if Root.isLock message then [] else t.toFailed
  | .fileNotFound _ => []
  | .other _ => t.toFailed

def reads (t : Turn) (content : Loaded) : Loaded :=
  match t.read with
  | some e => .malformed e.message
  | none => content

/-- Where an event that passed the checks is taken from processing/. -/
def writes (env : Env) (t : Turn) (envelope : Fields) : List Dir :=
  match env.rawRow t.raw t.now envelope with
  | .error e => if t.restore.isSome then [] else .spool :: t.afterRaise e
  | .ok _ =>
    match env.canonicalRows t.dual t.now envelope with
    | .error _ => []
    | .ok _ => if t.finish.isSome then [] else [.processed]

def itinerary (env : Env) (t : Turn) (content : Loaded) : List Dir :=
  match t.claim with
  | some e => t.afterRaise e.raised
  | none =>
    .processing ::
      match t.reads content with
      | .malformed _ => t.toFailed
      | .raises _ => []
      | .value data =>
        match check data with
        | .error _ => []
        | .ok (some _) => t.toFailed
        | .ok none =>
          match data with
          | .obj envelope => t.writes env envelope
          | _ => []

/-- The file stays in processing/: its turn raises there without putting it back, or the move out of
it raises. -/
def strands (env : Env) (t : Turn) (content : Loaded) : Bool :=
  t.claim.isNone &&
    match t.reads content with
    | .malformed _ => t.fail.isSome
    | .raises _ => true
    | .value data =>
      match check data with
      | .error _ => true
      | .ok (some _) => t.fail.isSome
      | .ok none =>
        match data with
        | .obj envelope =>
          match env.rawRow t.raw t.now envelope with
          | .error _ => t.restore.isSome
          | .ok _ => !(env.canonicalRows t.dual t.now envelope).isOk || t.finish.isSome
        | _ => true

def destination (env : Env) (t : Turn) (content : Loaded) : Dir :=
  arrival .spool (t.itinerary env content)

end Turn

namespace Root

variable {s : Root} {t : Turn} {name : String} {src : Dir}

theorem moveToFailed_files (here : s.files.any (·.at src name) = true) (reason : String) :
    (s.moveToFailed t name src reason).files = travel s.files name src t.toFailed := by
  unfold moveToFailed replace Turn.toFailed
  cases t.reason <;> cases t.fail <;> simp [here, travel]

theorem moveToFailed_files_of_absent (gone : s.files.any (·.at src name) = false)
    (reason : String) :
    (s.moveToFailed t name src reason).files = s.files := by
  unfold moveToFailed replace
  cases t.reason <;> cases t.fail <;> simp [gone]

/-- The `except` clauses find the file only where it was before the claim. -/
theorem settle_files (here : s.files.any (·.at .spool name) = true) (e : Raised) :
    (settle t name (s, some e)).files = travel s.files name .spool (t.afterRaise e) := by
  cases e with
  | operational message =>
    unfold settle Turn.afterRaise
    simp only
    split
    · rfl
    · exact moveToFailed_files here _
  | fileNotFound message => rfl
  | other message => exact moveToFailed_files here _

theorem settle_files_of_absent (gone : s.files.any (·.at .spool name) = false)
    (raised : Option Raised) : (settle t name (s, raised)).files = s.files := by
  cases raised with
  | none => rfl
  | some e =>
    cases e with
    | operational message =>
      unfold settle
      simp only
      split
      · rfl
      · exact moveToFailed_files_of_absent gone _
    | fileNotFound message => rfl
    | other message => exact moveToFailed_files_of_absent gone _

theorem replace_of_any {files : List SpoolFile} {dst : Dir}
    (here : files.any (·.at src name) = true) (fault : Option OsError) :
    replace files name src dst fault =
      match fault with
      | some e => .error e
      | none => .ok (rename files name src dst) := by
  unfold replace
  cases fault <;> simp [here]

theorem writeEvent_files (env : Env) (here : s.files.any (·.at .processing name) = true)
    (gone : s.files.any (·.at .spool name) = false) (envelope : Fields) :
    (settle t name (s.writeEvent env t name envelope)).files =
      travel s.files name .processing (t.writes env envelope) := by
  unfold writeEvent Env.writeToRawSqlite Turn.writes
  cases env.rawRow t.raw t.now envelope with
  | error e =>
    simp only [Functor.map, Except.map]
    rw [replace_of_any here]
    cases t.restore with
    | some fault => exact settle_files_of_absent gone _
    | none => exact settle_files (rename_any_dst (by decide) here) e
  | ok row =>
    simp only [Functor.map, Except.map]
    unfold Env.writeToDualCanonical
    cases env.canonicalRows t.dual t.now envelope with
    | error e => exact settle_files_of_absent (s := { s with db := s.db.insertRaw row }) gone _
    | ok rows =>
      simp only [Functor.map, Except.map]
      rw [replace_of_any here]
      cases t.finish with
      | some fault =>
        exact settle_files_of_absent
          (s := { s with db := (s.db.insertRaw row).insertCanonical rows }) gone _
      | none => rfl

theorem readFile_claimed {f : SpoolFile} (unique : Table.Unique SpoolFile.path s.files)
    (hf : f ∈ s.files) (here : f.at .spool name = true) :
    ({ s with files := rename s.files name .spool .processing } : Root).readFile t name =
      t.reads f.content := by
  unfold readFile Turn.reads
  cases t.read with
  | some e => rfl
  | none =>
    simp only
    have moved : { f with dir := .processing } ∈ rename s.files name .spool .processing := by
      refine mem_rename.mpr (Or.inr ⟨f, hf, here, ?_, rfl⟩)
      simp [SpoolFile.at, (SpoolFile.at_iff.mp here).1]
    cases found : (rename s.files name .spool .processing).find? (·.at .processing name) with
    | none =>
      have := List.find?_eq_none.mp found _ moved
      simp [SpoolFile.at, (SpoolFile.at_iff.mp here).2] at this
    | some g =>
      have at_processing : g.dir = .processing ∧ g.name = name := by
        simpa using List.find?_some found
      have same : g = { f with dir := .processing } :=
        Table.eq_of_key_eq (rename_path_unique unique) (List.mem_of_find?_eq_some found) moved
          (by simp [SpoolFile.path, at_processing, (SpoolFile.at_iff.mp here).2])
          (by simp [SpoolFile.path])
      rw [same]

theorem ingestFile_files (env : Env) {f : SpoolFile} (unique : Table.Unique SpoolFile.path s.files)
    (hf : f ∈ s.files) (here : f.at .spool name = true) :
    (s.ingestFile env t name).files =
      travel s.files name .spool (t.itinerary env f.content) := by
  have present : s.files.any (·.at .spool name) = true := List.any_eq_true.mpr ⟨f, hf, here⟩
  unfold ingestFile processOne Turn.itinerary
  rw [replace_of_any present]
  cases t.claim with
  | some e => exact settle_files present _
  | none =>
    simp only [travel]
    have claimed : (rename s.files name .spool .processing).any (·.at .processing name) = true :=
      rename_any_dst (by decide) present
    have gone : (rename s.files name .spool .processing).any (·.at .spool name) = false :=
      not_mem_rename_src (by decide)
    unfold processClaimed
    rw [readFile_claimed unique hf here]
    cases t.reads f.content with
    | malformed message => exact moveToFailed_files claimed _
    | raises message => exact settle_files_of_absent gone _
    | value data =>
      simp only
      cases check data with
      | error e => exact settle_files_of_absent gone _
      | ok outcome =>
        cases outcome with
        | some reason => exact moveToFailed_files claimed _
        | none =>
          cases data with
          | obj envelope => exact writeEvent_files env claimed gone envelope
          | _ => rfl

end Root

namespace Turn

variable (env : Env) (t : Turn)

theorem toFailed_chain {dir : Dir} (h : dir ≠ .failed) :
    List.IsChain (· ≠ ·) (dir :: t.toFailed) := by
  unfold toFailed
  split <;> simp [h]

theorem afterRaise_chain (e : Raised) : List.IsChain (· ≠ ·) (Dir.spool :: t.afterRaise e) := by
  unfold afterRaise
  cases e with
  | operational message =>
    simp only
    split
    · simp
    · exact t.toFailed_chain (by decide)
  | fileNotFound message => simp
  | other message => exact t.toFailed_chain (by decide)

theorem writes_chain (envelope : Fields) :
    List.IsChain (· ≠ ·) (Dir.processing :: t.writes env envelope) := by
  unfold writes
  split
  · split
    · simp
    · exact List.isChain_cons_cons.mpr ⟨by decide, t.afterRaise_chain _⟩
  · split
    · simp
    · split <;> simp

theorem itinerary_chain (content : Loaded) :
    List.IsChain (· ≠ ·) (Dir.spool :: t.itinerary env content) := by
  unfold itinerary
  split
  · exact t.afterRaise_chain _
  · refine List.isChain_cons_cons.mpr ⟨by decide, ?_⟩
    split
    · exact t.toFailed_chain (by decide)
    · simp
    · split
      · simp
      · exact t.toFailed_chain (by decide)
      · split
        · exact t.writes_chain env _
        · simp

theorem arrival_toFailed {dir : Dir} :
    arrival dir t.toFailed = .processing ↔ t.fail.isSome = true ∧ dir = .processing := by
  unfold toFailed
  split <;> simp [*]

theorem arrival_afterRaise (e : Raised) : arrival .spool (t.afterRaise e) ≠ .processing := by
  have failed : arrival .spool t.toFailed ≠ .processing := by simp [arrival_toFailed]
  unfold afterRaise
  cases e with
  | operational message =>
    simp only
    split
    · simp
    · exact failed
  | fileNotFound message => simp
  | other message => exact failed

/-- The part of `strands` about the writes. -/
theorem arrival_writes (envelope : Fields) :
    arrival .processing (t.writes env envelope) = .processing ↔
      (match env.rawRow t.raw t.now envelope with
        | .error _ => t.restore.isSome
        | .ok _ => !(env.canonicalRows t.dual t.now envelope).isOk || t.finish.isSome) = true := by
  unfold writes
  cases env.rawRow t.raw t.now envelope with
  | error e =>
    cases t.restore with
    | some fault => simp
    | none => simpa using t.arrival_afterRaise e
  | ok row =>
    cases env.canonicalRows t.dual t.now envelope with
    | error e => simp [Except.isOk, Except.toBool]
    | ok rows => cases t.finish <;> simp [Except.isOk, Except.toBool]

theorem destination_eq_processing_iff (content : Loaded) :
    t.destination env content = .processing ↔ t.strands env content = true := by
  unfold destination itinerary strands
  cases t.claim with
  | some e => simpa using t.arrival_afterRaise e.raised
  | none =>
    simp only [arrival_cons, Option.isNone_none, Bool.true_and]
    cases t.reads content with
    | malformed message => simp [arrival_toFailed]
    | raises message => simp
    | value data =>
      simp only
      cases check data with
      | error e => simp
      | ok outcome =>
        cases outcome with
        | some reason => simp [arrival_toFailed]
        | none =>
          cases data with
          | obj envelope => exact t.arrival_writes env envelope
          | _ => simp

end Turn

namespace Root

/-- What holds of the spool between two turns. -/
structure WellFormed (s : Root) : Prop where
  paths : Table.Unique SpoolFile.path s.files
  inodes : Table.Unique SpoolFile.inodeKey s.files
  fresh : ∀ f ∈ s.files, f.inode < s.nextInode

theorem empty_wellFormed : WellFormed {} := ⟨List.Pairwise.nil, List.Pairwise.nil, by simp⟩

variable {s : Root}

theorem moveToFailed_rest (s : Root) (t : Turn) (name : String) (src : Dir) (reason : String) :
    (s.moveToFailed t name src reason).nextInode = s.nextInode ∧
      (s.moveToFailed t name src reason).db = s.db ∧
      (s.moveToFailed t name src reason).log = s.log := by
  unfold moveToFailed
  cases t.reason <;> simp only <;> split <;> exact ⟨rfl, rfl, rfl⟩

theorem settle_rest (t : Turn) (name : String) (raised : Root × Option Raised) :
    (settle t name raised).nextInode = raised.1.nextInode ∧
      (settle t name raised).db = raised.1.db ∧ (settle t name raised).log = raised.1.log := by
  unfold settle
  split
  · exact ⟨rfl, rfl, rfl⟩
  · split
    · exact ⟨rfl, rfl, rfl⟩
    · exact moveToFailed_rest ..
  · exact ⟨rfl, rfl, rfl⟩
  · exact moveToFailed_rest ..

theorem ingestFile_nextInode (env : Env) (t : Turn) (s : Root) (name : String) :
    (s.ingestFile env t name).nextInode = s.nextInode := by
  unfold ingestFile
  rw [(settle_rest ..).1]
  unfold processOne
  split
  · rfl
  · unfold processClaimed
    split
    · exact (moveToFailed_rest ..).1
    · rfl
    · split
      · rfl
      · exact (moveToFailed_rest ..).1
      · split
        · unfold writeEvent
          split
          · split <;> rfl
          · split
            · rfl
            · split <;> rfl
        · rfl

theorem WellFormed.ingestFile (h : s.WellFormed) (env : Env) (t : Turn) {f : SpoolFile}
    {name : String} (hf : f ∈ s.files) (here : f.at .spool name = true) :
    (s.ingestFile env t name).WellFormed where
  paths := by
    rw [ingestFile_files env h.paths hf here]
    exact travel_path_unique h.paths
  inodes := by
    rw [ingestFile_files env h.paths hf here]
    exact travel_inode_unique h.inodes
  fresh := by
    rw [ingestFile_files env h.paths hf here, ingestFile_nextInode]
    intro g hg
    rcases of_mem_travel hg with old | ⟨f, hf, -, rfl⟩
    · exact h.fresh g old
    · exact h.fresh f hf

theorem WellFormed.write (h : s.WellFormed) (name : String) (content : Loaded) :
    (s.write name content).WellFormed where
  paths := by
    refine (Table.append_unique_iff (Table.filter_unique h.paths _) _).mpr fun f hf same => ?_
    have notAt := (List.mem_filter.mp hf).2
    have here : (f.dir, f.name) = (Dir.spool, name) := Option.some.inj same.1
    simp [SpoolFile.at, Prod.mk.inj here] at notAt
  inodes := by
    refine (Table.append_unique_iff (Table.filter_unique h.inodes _) _).mpr fun f hf same => ?_
    have taken : f.inode = s.nextInode := Option.some.inj same.1
    exact absurd (h.fresh f (List.mem_filter.mp hf).1) (by omega)
  fresh := by
    intro f hf
    rcases List.mem_append.mp hf with hf | hf
    · exact Nat.lt_succ_of_lt (h.fresh f (List.mem_filter.mp hf).1)
    · rw [List.mem_singleton.mp hf]
      exact Nat.lt_succ_self _

theorem mem_pending {name : String} :
    name ∈ s.pending ↔ ∃ f ∈ s.files, isPending f = true ∧ f.name = name := by
  simp [pending, and_assoc]

theorem isPending_at {f : SpoolFile} (h : isPending f = true) : f.at .spool f.name = true := by
  simp only [isPending, decide_eq_true_eq] at h
  simp [SpoolFile.at, h.1]

theorem pending_nodup (h : s.WellFormed) : s.pending.Nodup := by
  refine (List.perm_insertionSort _ _).symm.nodup (List.pairwise_map.mpr ?_)
  refine (Table.filter_unique h.paths isPending).imp_of_mem fun hf hg apart same => apart ?_
  have hf' := SpoolFile.at_iff.mp (isPending_at (List.mem_filter.mp hf).2)
  have hg' := SpoolFile.at_iff.mp (isPending_at (List.mem_filter.mp hg).2)
  exact ⟨by simp [SpoolFile.path, hf'.1, hg'.1, same], by simp [SpoolFile.path]⟩

/-- What the turns of a run leave, each about another file of spool/: every one of these files where
its itinerary ends, and nothing else moved there. -/
structure Turned (env : Env) (turns : String → Turn) (names : List String) (s s' : Root) :
    Prop where
  wellFormed : s'.WellFormed
  kept : ∀ g ∈ s.files, g.name ∉ names → g ∈ s'.files
  moved : ∀ f ∈ s.files, f.at .spool f.name = true → f.name ∈ names →
    { f with dir := (turns f.name).destination env f.content } ∈ s'.files
  only : ∀ g ∈ s'.files, g ∈ s.files ∨ ∃ f ∈ s.files, f.at .spool f.name = true ∧ f.name ∈ names ∧
    g = { f with dir := (turns f.name).destination env f.content }

theorem foldl_turned (env : Env) (turns : String → Turn) {names : List String} (h : s.WellFormed)
    (nodup : names.Nodup) (there : ∀ name ∈ names, ∃ f ∈ s.files, f.at .spool name = true) :
    Turned env turns names s
      (names.foldl (fun s name => s.ingestFile env (turns name) name) s) := by
  induction names generalizing s with
  | nil =>
    exact {
      wellFormed := h
      kept := fun g hg _ => hg
      moved := fun f _ _ hn => absurd hn List.not_mem_nil
      only := fun g hg => Or.inl hg }
  | cons name rest ih =>
    obtain ⟨f, hf, here⟩ := there name List.mem_cons_self
    obtain ⟨absent, nodup⟩ := List.nodup_cons.mp nodup
    have files := ingestFile_files (t := turns name) env h.paths hf here
    have other : ∀ {g : SpoolFile}, g.name ≠ name →
        (g ∈ (s.ingestFile env (turns name) name).files ↔ g ∈ s.files) := fun hne => by
      rw [files, mem_travel_of_name_ne hne]
    have rest_turned := ih (h.ingestFile env (turns name) hf here) nodup fun n hn => by
      obtain ⟨g, hg, at_n⟩ := there n (List.mem_cons_of_mem _ hn)
      refine ⟨g, (other ?_).mpr hg, at_n⟩
      rw [(SpoolFile.at_iff.mp at_n).2]
      exact fun same => absent (same ▸ hn)
    have same_file : ∀ g ∈ s.files, g.at .spool name = true → g = f := fun g hg at_name =>
      Table.eq_of_key_eq h.paths hg hf
        (by simp [SpoolFile.path, SpoolFile.at_iff.mp at_name, SpoolFile.at_iff.mp here])
        (by simp [SpoolFile.path])
    exact {
      wellFormed := rest_turned.wellFormed
      kept := fun g hg hn => by
        obtain ⟨hne, hn⟩ := not_or.mp (List.mem_cons.not.mp hn)
        exact rest_turned.kept g ((other hne).mpr hg) hn
      moved := fun g hg at_own hn => by
        by_cases same : g.name = name
        · subst same
          obtain rfl := same_file g hg at_own
          refine rest_turned.kept _ ?_ absent
          rw [files]
          exact arrives hf here ((turns g.name).itinerary_chain env g.content)
        · exact rest_turned.moved g ((other same).mpr hg) at_own
            ((List.mem_cons.mp hn).resolve_left same)
      only := fun g hg => by
        rcases rest_turned.only g hg with hg | ⟨k, hk, at_own, hn, rfl⟩
        · rw [files] at hg
          rcases of_mem_travel hg with hg | ⟨k, hk, at_name, rfl⟩
          · exact Or.inl hg
          · obtain rfl := same_file k hk at_name
            have own := (SpoolFile.at_iff.mp at_name).2
            refine Or.inr ⟨k, hk, own ▸ at_name, own ▸ List.mem_cons_self, ?_⟩
            rw [own]
            rfl
        · have hne : k.name ≠ name := fun same => absent (same ▸ hn)
          exact Or.inr ⟨k, (other hne).mp hk, at_own, List.mem_cons_of_mem _ hn, rfl⟩ }

/-- What one run leaves: every file it listed is in one place, outside processing/. -/
structure Accounted (s s' : Root) : Prop where
  clear : ∀ g ∈ s'.files, g.dir ≠ .processing
  placed : ∀ f ∈ s.files, isPending f = true →
    ∃ g ∈ s'.files, g.inode = f.inode ∧ g.dir ∈ [Dir.spool, .processed, .failed] ∧
      ∀ k ∈ s'.files, k.inode = f.inode → k = g

theorem ingest_turned (h : s.WellFormed) (env : Env) (turns : String → Turn) :
    Turned env turns s.pending s (s.ingest env turns) := by
  have start : WellFormed { s with result := {} } := ⟨h.paths, h.inodes, h.fresh⟩
  have turned := foldl_turned env turns start (pending_nodup h) fun name hname => by
    obtain ⟨f, hf, pending, rfl⟩ := mem_pending.mp hname
    exact ⟨f, hf, isPending_at pending⟩
  exact ⟨turned.wellFormed, turned.kept, turned.moved, turned.only⟩

end Root

/-- What happens to the spool: a writer adds a file, or `ingest` runs. -/
inductive Action
  | write (name : String) (content : Loaded)
  | ingest (turns : String → Turn)

def machine (env : Env) : Machine Root Action where
  step s
    | .write name content => some (s.write name content)
    | .ingest turns => some (s.ingest env turns)

/-- The run leaves a file in processing/. -/
def Root.Strands (env : Env) (s : Root) : Action → Prop
  | .write _ _ => False
  | .ingest turns => ∃ f ∈ s.files, isPending f = true ∧ (turns f.name).strands env f.content = true

theorem step_wellFormed (env : Env) {s s' : Root} {action : Action} (h : s.WellFormed)
    (taken : (machine env).step s action = some s') : s'.WellFormed := by
  cases action with
  | write name content =>
    obtain rfl := Option.some.inj taken
    exact h.write name content
  | ingest turns =>
    obtain rfl := Option.some.inj taken
    exact (Root.ingest_turned h env turns).wellFormed

theorem step_clear_iff (env : Env) {s s' : Root} {action : Action} (h : s.WellFormed)
    (clear : ∀ g ∈ s.files, g.dir ≠ .processing) (taken : (machine env).step s action = some s') :
    (∀ g ∈ s'.files, g.dir ≠ .processing) ↔ ¬ s.Strands env action := by
  cases action with
  | write name content =>
    obtain rfl := Option.some.inj taken
    refine iff_of_true (fun g hg => ?_) id
    rcases List.mem_append.mp hg with hg | hg
    · exact clear g (List.mem_filter.mp hg).1
    · rw [List.mem_singleton.mp hg]
      exact nofun
  | ingest turns =>
    obtain rfl := Option.some.inj taken
    have turned := Root.ingest_turned h env turns
    constructor
    · rintro after ⟨f, hf, pending, strands⟩
      have at_own := Root.isPending_at pending
      have moved := turned.moved f hf at_own (Root.mem_pending.mpr ⟨f, hf, pending, rfl⟩)
      exact after _ moved (((turns f.name).destination_eq_processing_iff env f.content).mpr strands)
    · intro none_strands g hg
      rcases turned.only g hg with old | ⟨f, hf, at_own, listed, rfl⟩
      · exact clear g old
      · obtain ⟨k, hk, pending, same⟩ := Root.mem_pending.mp listed
        have : k = f := by
          have at_spool := SpoolFile.at_iff.mp (Root.isPending_at pending)
          exact Table.eq_of_key_eq h.paths hk hf
            (by simp [SpoolFile.path, at_spool.1, (SpoolFile.at_iff.mp at_own).1, same])
            (by simp [SpoolFile.path])
        subst this
        intro stays
        exact none_strands ⟨k, hk, pending,
          ((turns k.name).destination_eq_processing_iff env k.content).mp stays⟩

theorem ingest_accounted (env : Env) {s : Root} (h : s.WellFormed) (turns : String → Turn)
    (clear : ∀ g ∈ (s.ingest env turns).files, g.dir ≠ .processing) :
    s.Accounted (s.ingest env turns) where
  clear := clear
  placed := by
    intro f hf pending
    have turned := Root.ingest_turned h env turns
    have moved := turned.moved f hf (Root.isPending_at pending)
      (Root.mem_pending.mpr ⟨f, hf, pending, rfl⟩)
    refine ⟨_, moved, rfl, ?_, fun k hk same => ?_⟩
    · have outside := clear _ moved
      generalize (turns f.name).destination env f.content = dir at outside ⊢
      cases dir <;> simp_all
    · exact Table.eq_of_key_eq turned.wellFormed.inodes hk moved (congrArg some same)
        (by simp [SpoolFile.inodeKey])

/-- From an empty spool every run of a sequence accounts for all its files, and processing/ stays
empty, exactly if no run strands a file. -/
theorem accounted_iff_forall_not_strands (env : Env) (actions : List Action) :
    (∀ x ∈ (machine env).transitions {} actions, (∀ g ∈ x.after.files, g.dir ≠ .processing) ∧
        ∀ turns, x.label = .ingest turns → x.before.Accounted x.after) ↔
      ∀ x ∈ (machine env).transitions {} actions, ¬ x.before.Strands env x.label := by
  have exact_run := (machine env).forall_after_iff_forall_guard
    (J := Root.WellFormed) (P := fun s => ∀ g ∈ s.files, g.dir ≠ .processing)
    (C := fun s action => ¬ s.Strands env action) (fun _ _ _ h taken => step_wellFormed env h taken)
    (fun _ _ _ h clear taken => step_clear_iff env h clear taken) Root.empty_wellFormed (by simp)
    actions
  rw [← exact_run]
  refine ⟨fun all x hx => (all x hx).1, fun clear x hx => ⟨clear x hx, fun turns label => ?_⟩⟩
  have wf := ((machine env).invariant (fun _ _ _ h taken => step_wellFormed env h taken)
    Root.empty_wellFormed actions x hx).1
  have taken := (machine env).step_of_mem_transitions hx
  rw [label] at taken
  have after := Option.some.inj taken
  have cleared := clear x hx
  rw [← after] at cleared ⊢
  exact ingest_accounted env wf turns cleared

def sampleEnv : Env where
  loads := fun _ => .malformed "Expecting value"
  repr := fun _ => ""
  registry := fun _ => none

def sampleEnvelope : Fields :=
  [("event_id", .str "e1"), ("event_type", .str "work_order.created"),
    ("timestamp", .str "2026-01-01T00:00:00Z"), ("schema_version", .int 1)]

/-- The dual-canonical write meets a lock: the event is neither in spool/ nor in failed/. -/
theorem locked_file_not_accounted :
    ¬ ∀ (env : Env) (actions : List Action), ∀ x ∈ (machine env).transitions {} actions,
      (∀ g ∈ x.after.files, g.dir ≠ .processing) ∧
        ∀ turns, x.label = .ingest turns → x.before.Accounted x.after := by
  intro h
  have clear := fun x hx => (h sampleEnv
    [.write "e1.json" (.value (.obj sampleEnvelope)),
      .ingest fun _ => { dual := some (.operational "database is locked") }] x hx).1
  revert clear
  decide

end DreamStudio.Spool
