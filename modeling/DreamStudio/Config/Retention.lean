import DreamStudio.Library.Dict
import DreamStudio.Library.Potential
import DreamStudio.Library.Count
import Mathlib.Data.List.Induction
import Mathlib.Data.List.Sort

namespace DreamStudio.Config

open Library

structure Budget where
  name : String
  relpath : String
  maxAgeDays : Option Nat := none
  keepNewest : Option Nat := none
  maxBytes : Option Nat := none
  glob : String := "*"
  entryIsDir : Bool := false
  deriving DecidableEq

/-- A file or directory in a store. `mtime` is `none` where `stat` raises, `stuck` is what the
system says when it refuses to remove it; a directory that is stuck is passed over in silence. -/
structure Entry where
  name : String
  isDir : Bool
  mtime : Option Int
  size : Nat
  stuck : Option String := none
  deriving DecidableEq

structure Listing where
  entries : List Entry
  unique : (entries.map (·.name)).Nodup

namespace Listing

def keep (l : Listing) (p : Entry → Bool) : Listing :=
  ⟨l.entries.filter p, l.unique.sublist (List.filter_sublist.map _)⟩

def has (l : Listing) (name : String) : Bool := l.entries.any (·.name = name)

def empty : Listing := ⟨[], List.nodup_nil⟩

/-- A file is written, over what had its name. -/
def write (l : Listing) (e : Entry) : Listing where
  entries := l.entries.filter (·.name ≠ e.name) ++ [e]
  unique := by
    rw [List.map_append]
    apply (l.unique.sublist (List.filter_sublist.map _)).append (List.nodup_singleton _)
    simp

end Listing

/-- The directories under the store root, by relative path. -/
abbrev Stores := Dict String Listing

def budgets : List Budget :=
  [{ name := "spool_processed", relpath := "events/processed", maxAgeDays := some 7 },
    { name := "spool_failed", relpath := "events/failed", maxAgeDays := some 30 },
    { name := "spool_failed_reasons", relpath := "events/failed/reasons", maxAgeDays := some 30 },
    { name := "spool_archives", relpath := "events/archives", maxAgeDays := some 90 },
    { name := "diagnostics", relpath := "diagnostics", maxAgeDays := some 14,
      maxBytes := some (512 * 1024 ^ 2), entryIsDir := true },
    { name := "db_premigration_backups", relpath := "state/backups", glob := "studio-pre-*.db",
      keepNewest := some 2 },
    { name := "db_snapshot_backups", relpath := "backups", keepNewest := some 2,
      entryIsDir := true },
    { name := "logs", relpath := "logs", maxAgeDays := some 14 },
    { name := "session_and_date_sentinels", relpath := "state", glob := ".*-*",
      maxAgeDays := some 7 },
    { name := "hook_queue_orphans", relpath := "state", glob := "hookq.*.jsonl",
      maxAgeDays := some 2 },
    { name := "context_packets", relpath := "context-packets", maxAgeDays := some 30 },
    { name := "sessions", relpath := "sessions", maxAgeDays := some 30 }]

/-- `DELEGATING`. -/
def delegating : List String := ["events", "events/failed"]

/-- `EXEMPT`. -/
def exempt : List String :=
  ["events/spool", "events/processing", "events/.sessions", "state", "meta", "projects",
    "work-orders", "planning", "config", "adapters", "integrations", "router", "bin", ".sessions"]

structure StoreResult where
  name : String
  removed : Nat := 0
  bytesFreed : Nat := 0
  kept : Int := 0
  error : Option String := none
  deriving DecidableEq

/-- `Path(name).match(glob)`, for a glob of one part. -/
def fnmatch : List Char → List Char → Bool
  | [], name => name.isEmpty
  | g :: gs, name =>
    if g = '*' then name.tails.any (fnmatch gs)
    else
      match name with
      | [] => false
      | c :: cs => (g = '?' || g = c) && fnmatch gs cs

/-- `_entries`, of one of them. -/
def Budget.covers (b : Budget) (e : Entry) : Bool :=
  e.isDir = b.entryIsDir && (b.glob = "*" || fnmatch b.glob.toList e.name.toList)

def Newer (e f : Entry) : Prop := f.mtime.getD 0 ≤ e.mtime.getD 0

instance : DecidableRel Newer := fun _ f => inferInstanceAs (Decidable (f.mtime.getD 0 ≤ _))

/-- `sorted(entries, key=…st_mtime, reverse=True)`, or the entries as they come where it raises. -/
def newestFirst (entries : List Entry) : List Entry :=
  if entries.all (·.mtime.isSome) then entries.insertionSort Newer else entries

def day : Int := 86400

def Budget.doomed (b : Budget) (now : Int) (entries : List Entry) : List Entry :=
  (b.maxAgeDays.elim [] fun days => entries.filter (·.mtime.any (· < now - days * day))) ++
    b.keepNewest.elim [] (fun keep => (newestFirst entries).drop keep) ++
      b.maxBytes.elim [] (fun limit => spill Entry.size limit 0 (newestFirst entries))

structure Sweeping where
  seen : List String := []
  gone : List String := []
  result : StoreResult

/-- One doomed entry of `sweep_one`. -/
def Sweeping.visit (dryRun : Bool) (s : Sweeping) (e : Entry) : Sweeping :=
  if e.name ∈ s.seen then s
  else
    let seen := s.seen ++ [e.name]
    if !dryRun && e.stuck.isSome && !e.isDir then
      { s with seen := seen, result := { s.result with error := e.stuck } }
    else
      { seen := seen
        gone := if dryRun || e.stuck.isSome then s.gone else s.gone ++ [e.name]
        result := { s.result with
          removed := s.result.removed + 1
          bytesFreed := s.result.bytesFreed + e.size } }

/-- `sweep_one`. -/
def sweepOne (dryRun : Bool) (now : Int) (b : Budget) (stores : Stores) : Stores × StoreResult :=
  match stores.get b.relpath with
  | none => (stores, { name := b.name })
  | some l =>
    let entries := l.entries.filter b.covers
    let swept := (b.doomed now entries).foldl (Sweeping.visit dryRun)
      { result := { name := b.name } }
    (stores.set b.relpath (l.keep (·.name ∉ swept.gone)),
      { swept.result with kept := entries.length - swept.result.removed })

/-- `sweep`. -/
def sweep (dryRun : Bool) (now : Int) (stores : Stores) : Stores × List StoreResult :=
  budgets.foldl (fun found b =>
    let r := sweepOne dryRun now b found.1
    (r.1, found.2 ++ [r.2])) (stores, [])

def stampOf (date : String) : String := ".swept-" ++ date

def stateDir (stores : Stores) : Listing := (stores.get "state").getD .empty

def stamped (date : String) (now : Int) (stores : Stores) : Stores :=
  stores.set "state" ((stateDir stores).write
    { name := stampOf date, isDir := false, mtime := some now, size := 0 })

/-- `sweep_daily`; `writable` tells whether the sentinel can be written. The answer is `none` where
no sweep is made. -/
def sweepDaily (date : String) (now : Int) (writable : Bool) (stores : Stores) :
    Stores × Option (List StoreResult) :=
  if (stateDir stores).has (stampOf date) then (stores, none)
  else if writable then
    let r := sweep false now (stamped date now stores)
    (r.1, some r.2)
  else (stores, none)

/-- `_children_of`. -/
def childrenOf (stores : Stores) (rel : String) : List String :=
  (stores.get rel).elim [] fun l => (l.entries.filter (·.isDir)).map (·.name)

/-- `unbudgeted_dirs`. The store root is the directory at the empty path. -/
def unbudgetedDirs (stores : Stores) : List String :=
  if (stores.get "").isNone then []
  else
    let found := ("" :: delegating).flatMap fun parent =>
      (childrenOf stores parent).map fun name => if parent = "" then name else s!"{parent}/{name}"
    (found.filter fun rel =>
      rel ∉ budgets.map (·.relpath) && rel ∉ exempt && rel ∉ delegating).insertionSort (· ≤ ·)

/-- `f"{n / 1048576:.0f}"`, halves to the even number. -/
def megabytes (n : Nat) : Nat :=
  let q := n / 1048576
  let r := n % 1048576
  if 524288 < r ∨ r = 524288 ∧ q % 2 = 1 then q + 1 else q

def unbudgetedLines (stores : Stores) : List String :=
  (unbudgetedDirs stores).map fun d => s!"{d}/ has no retention budget"

def overBudgetLines (results : List StoreResult) : List String :=
  (results.filter (·.removed ≠ 0)).map fun r =>
    s!"{r.name}: {r.removed} entries over budget ({megabytes r.bytesFreed} MB)"

/-- What is said of the stale worktrees, of which `stale_worktrees` gives path and megabytes. -/
def worktreeLines (stale : List (String × Nat)) : List String :=
  if stale.isEmpty then []
  else
    [s!"{stale.length} stale git worktree(s) holding {(stale.map (·.2)).sum} MB - " ++
      "review with `git worktree list`, remove with `git worktree remove <path>`"]

/-- `audit`. -/
def audit (stale : List (String × Nat)) (now : Int) (stores : Stores) : List String :=
  unbudgetedLines stores ++ overBudgetLines (sweep true now stores).2 ++ worktreeLines stale

section One

variable {b : Budget} {now : Int} {entries : List Entry} {l : Listing}

theorem newestFirst_perm (entries : List Entry) : (newestFirst entries).Perm entries := by
  unfold newestFirst
  split
  · exact List.perm_insertionSort _ _
  · exact .refl _

theorem doomed_subset : b.doomed now entries ⊆ entries := by
  intro e mem
  simp only [Budget.doomed, List.mem_append] at mem
  obtain (old | past) | beyond := mem
  · cases h : b.maxAgeDays with
    | none => simp [h] at old
    | some days =>
      rw [h] at old
      exact List.mem_of_mem_filter old
  · cases h : b.keepNewest with
    | none => simp [h] at past
    | some keep =>
      rw [h] at past
      exact (newestFirst_perm entries).subset (List.mem_of_mem_drop past)
  · cases h : b.maxBytes with
    | none => simp [h] at beyond
    | some limit =>
      rw [h] at beyond
      obtain ⟨k, rest, -⟩ := spill_eq_drop Entry.size (Nat.zero_le limit)
        (newestFirst entries)
      rw [Option.elim_some, rest] at beyond
      exact (newestFirst_perm entries).subset (List.mem_of_mem_drop beyond)

theorem eq_of_name {e f : Entry} (he : e ∈ l.entries) (hf : f ∈ l.entries)
    (same : e.name = f.name) : e = f := List.inj_on_of_nodup_map l.unique he hf same

theorem visited {ds : List Entry} (inside : ds ⊆ l.entries) (result : StoreResult) :
    let swept := ds.foldl (Sweeping.visit false) { result := result }
    (∀ name, name ∈ swept.seen ↔ ∃ e ∈ ds, e.name = name) ∧
      ∀ name, name ∈ swept.gone ↔ ∃ e ∈ ds, e.name = name ∧ e.stuck = none := by
  induction ds using List.reverseRecOn with
  | nil => simp
  | append_singleton ds e ih =>
    have inside' : ds ⊆ l.entries := fun f mem => inside (List.mem_append_left _ mem)
    have here := inside (List.mem_append_right _ List.mem_cons_self)
    obtain ⟨seen, gone⟩ := ih inside'
    simp only [List.foldl_append, List.foldl_cons, List.foldl_nil]
    generalize ds.foldl (Sweeping.visit false) { result := result } = s at seen gone ⊢
    unfold Sweeping.visit
    split
    next old =>
      obtain ⟨f, mem, same⟩ := (seen _).mp old
      cases eq_of_name (inside' mem) here same
      have again (P : Entry → Prop) : (∃ f ∈ ds ++ [e], P f) ↔ ∃ f ∈ ds, P f := by
        simp only [List.mem_append, List.mem_singleton, or_and_right, exists_or, exists_eq_left]
        apply or_iff_left_of_imp
        intro h
        exact ⟨e, mem, h⟩
      exact ⟨fun name => (seen name).trans (again _).symm, fun name =>
        (gone name).trans (again _).symm⟩
    next fresh =>
      have more (P : Entry → Prop) : (∃ f ∈ ds ++ [e], P f) ↔ (∃ f ∈ ds, P f) ∨ P e := by
        simp only [List.mem_append, List.mem_singleton, or_and_right, exists_or, exists_eq_left]
      cases stuck : e.stuck with
      | none => simp [seen, gone, stuck, eq_comm]
      | some refusal => cases e.isDir <;> simp [seen, gone, stuck, eq_comm]

def Budget.left (b : Budget) (now : Int) (l : Listing) : Listing :=
  l.keep fun e => !(e ∈ b.doomed now (l.entries.filter b.covers) && e.stuck.isNone)

theorem sweepOne_fst {stores : Stores} :
    (sweepOne false now b stores).1 =
      match stores.get b.relpath with
      | none => stores
      | some l => stores.set b.relpath (b.left now l) := by
  unfold sweepOne
  cases stores.get b.relpath with
  | none => rfl
  | some l =>
    simp only
    congr 1
    unfold Budget.left Listing.keep
    congr 1
    apply List.filter_congr
    intro e mem
    have inside : b.doomed now (l.entries.filter b.covers) ⊆ l.entries :=
      fun f mem => List.mem_of_mem_filter (doomed_subset mem)
    obtain ⟨-, gone⟩ := visited inside { name := b.name }
    rw [Bool.eq_iff_iff]
    simp only [decide_eq_true_eq, gone, Bool.not_eq_true', Bool.and_eq_false_iff,
      decide_eq_false_iff_not, not_exists, not_and, Option.isNone_eq_false_iff]
    constructor
    · intro kept
      by_cases doomed : e ∈ b.doomed now (l.entries.filter b.covers)
      · exact .inr (Option.isSome_iff_ne_none.mpr (kept e doomed rfl))
      · exact .inl doomed
    · intro kept f doomed same free
      cases eq_of_name (inside doomed) mem same
      cases kept with
      | inl safe => exact safe doomed
      | inr stuck => simp [free] at stuck

def Budget.mine (b : Budget) (entries : List Entry) : List Entry :=
  entries.filter fun e => b.covers e && e.stuck.isNone

/-- A directory keeps its budget, what the system does not let go of aside. -/
structure Budget.Within (b : Budget) (now : Int) (entries : List Entry) : Prop where
  age : ∀ days, b.maxAgeDays = some days → ∀ e ∈ b.mine entries, ∀ t, e.mtime = some t →
    now - days * day ≤ t
  count : ∀ keep, b.keepNewest = some keep → (b.mine entries).length ≤ keep
  bytes : ∀ limit, b.maxBytes = some limit → ((b.mine entries).map Entry.size).sum ≤ limit

theorem Budget.Within.sublist {entries' : List Entry} (within : b.Within now entries)
    (sub : entries'.Sublist entries) : b.Within now entries' where
  age days h e mem := within.age days h e ((sub.filter _).subset mem)
  count keep h := (sub.filter _).length_le.trans (within.count keep h)
  bytes limit h := ((((sub.filter _).map _).sum_le_sum) fun _ _ => Nat.zero_le _).trans
    (within.bytes limit h)

theorem mem_mine_left {e : Entry} (mem : e ∈ b.mine (b.left now l).entries) :
    e ∈ l.entries.filter b.covers ∧ e ∉ b.doomed now (l.entries.filter b.covers) := by
  simp only [Budget.mine, Budget.left, Listing.keep, List.mem_filter, Bool.and_eq_true,
    Bool.not_eq_true', Bool.and_eq_false_iff, decide_eq_false_iff_not] at mem ⊢
  obtain ⟨⟨here, kept⟩, covered, free⟩ := mem
  refine ⟨⟨here, covered⟩, kept.resolve_right ?_⟩
  simp [free]

theorem nodup_mine (l : Listing) : (b.mine l.entries).Nodup := l.unique.of_map.filter _

theorem within_left : b.Within now (b.left now l).entries where
  age days h e mem t here := by
    obtain ⟨inside, kept⟩ := mem_mine_left mem
    by_contra old
    apply kept
    simp only [Budget.doomed, h, Option.elim_some, List.mem_append, List.mem_filter, here,
      Option.any_some, decide_eq_true_eq]
    exact .inl (.inl ⟨List.mem_filter.mp inside, by omega⟩)
  count keep h := by
    have sub : b.mine (b.left now l).entries ⊆
        (newestFirst (l.entries.filter b.covers)).take keep := by
      intro e mem
      obtain ⟨inside, kept⟩ := mem_mine_left mem
      have ordered := (newestFirst_perm _).symm.subset inside
      rw [← List.take_append_drop keep (newestFirst _), List.mem_append] at ordered
      refine ordered.resolve_right fun past => kept ?_
      simp [Budget.doomed, h, past]
    exact ((List.subperm_of_subset (nodup_mine _) sub).length_le).trans (List.length_take_le _ _)
  bytes limit h := by
    obtain ⟨k, rest, fits⟩ := spill_eq_drop Entry.size (Nat.zero_le limit)
      (newestFirst (l.entries.filter b.covers))
    have sub : b.mine (b.left now l).entries ⊆
        (newestFirst (l.entries.filter b.covers)).take k := by
      intro e mem
      obtain ⟨inside, kept⟩ := mem_mine_left mem
      have ordered := (newestFirst_perm _).symm.subset inside
      rw [← List.take_append_drop k (newestFirst _), List.mem_append] at ordered
      refine ordered.resolve_right fun past => kept ?_
      simp [Budget.doomed, h, rest, past]
    have bound := sum_le_of_subset Entry.size (nodup_mine (b.left now l)) sub
    omega

end One

section All

variable {now : Int} {stores : Stores}

/-- Other entries of the budget that are put before `e`: none is older, or one of the budget's
entries has no date and they stand as they come. -/
structure Budget.Precede (b : Budget) (entries : List Entry) (e : Entry) (front : List Entry) :
    Prop where
  nodup : front.Nodup
  others : e ∉ front
  inside : ∀ f ∈ front, f ∈ entries ∧ b.covers f = true
  newer : (∀ f ∈ front, Newer f e) ∨ ∃ f ∈ entries, b.covers f = true ∧ f.mtime = none

/-- An entry among those of its directory that a budget does not allow for: it is too old, or as
many as are kept are put before it, or with those put before it it passes the cap. -/
inductive Budget.Exceeds (b : Budget) (now : Int) (entries : List Entry) (e : Entry) : Prop
  | age {days : Nat} {t : Int} (limit : b.maxAgeDays = some days) (dated : e.mtime = some t)
    (old : t < now - days * day)
  | count {keep : Nat} {front : List Entry} (limit : b.keepNewest = some keep)
    (before : b.Precede entries e front) (many : keep ≤ front.length)
  | bytes {cap : Nat} {front : List Entry} (limit : b.maxBytes = some cap)
    (before : b.Precede entries e front) (large : cap < (front.map Entry.size).sum + e.size)

/-- A budget of its directory takes the entry. -/
structure Budget.Takes (b : Budget) (now : Int) (p : String) (entries : List Entry) (e : Entry) :
    Prop where
  path : b.relpath = p
  covers : b.covers e = true
  free : e.stuck = none
  beyond : b.Exceeds now entries e

theorem Budget.Precede.mono {b : Budget} {entries entries' : List Entry} {e : Entry}
    {front : List Entry} (before : b.Precede entries e front) (sub : entries ⊆ entries') :
    b.Precede entries' e front where
  nodup := before.nodup
  others := before.others
  inside f mem := (before.inside f mem).imp_left (sub ·)
  newer := before.newer.imp_right fun ⟨f, mem, rest⟩ => ⟨f, sub mem, rest⟩

theorem Budget.Takes.mono {b : Budget} {p : String} {entries entries' : List Entry} {e : Entry}
    (takes : b.Takes now p entries e) (sub : entries ⊆ entries') : b.Takes now p entries' e where
  path := takes.path
  covers := takes.covers
  free := takes.free
  beyond := by
    cases takes.beyond with
    | age limit dated old => exact .age limit dated old
    | count limit before many => exact .count limit (before.mono sub) many
    | bytes limit before large => exact .bytes limit (before.mono sub) large

/-- What is taken from the directories is what one of the budgets takes. -/
def Shrinks (now : Int) (bs : List Budget) (stores stores' : Stores) : Prop :=
  ∀ p, (stores.get p = none → stores'.get p = none) ∧
    ∀ l, stores.get p = some l → ∃ l', stores'.get p = some l' ∧
      l'.entries.Sublist l.entries ∧
      ∀ e ∈ l.entries, e ∉ l'.entries → ∃ b ∈ bs, b.Takes now p l.entries e

instance : Std.Total Newer := ⟨fun e f => Int.le_total (f.mtime.getD 0) (e.mtime.getD 0)⟩

instance : IsTrans Entry Newer := ⟨fun _ _ _ ef fg => Int.le_trans fg ef⟩

theorem precede_of_split {b : Budget} {l : Listing} {us vs : List Entry} {e : Entry}
    (split : newestFirst (l.entries.filter b.covers) = us ++ e :: vs) :
    b.Precede l.entries e us := by
  have perm := newestFirst_perm (l.entries.filter b.covers)
  have nodup := perm.nodup_iff.mpr (l.unique.of_map.filter _)
  rw [split] at perm nodup
  obtain ⟨front, -, apart⟩ := List.nodup_append.mp nodup
  refine ⟨front, fun mem => apart e mem e List.mem_cons_self rfl, fun f mem => ?_, ?_⟩
  · exact List.mem_filter.mp (perm.subset (List.mem_append_left _ mem))
  · by_cases dated : (l.entries.filter b.covers).all (·.mtime.isSome) = true
    · rw [newestFirst, if_pos dated] at split
      have sorted := List.pairwise_insertionSort Newer (l.entries.filter b.covers)
      rw [split, List.pairwise_append] at sorted
      exact Or.inl fun f mem => sorted.2.2 f mem e List.mem_cons_self
    · exact Or.inr (by simpa using dated)

theorem exceeds_of_doomed {b : Budget} {l : Listing} {e : Entry}
    (doomed : e ∈ b.doomed now (l.entries.filter b.covers)) : b.Exceeds now l.entries e := by
  simp only [Budget.doomed, List.mem_append] at doomed
  obtain (old | past) | beyond := doomed
  · cases h : b.maxAgeDays with
    | none => simp [h] at old
    | some days =>
      simp only [h, Option.elim_some, List.mem_filter, Option.any_eq_true, decide_eq_true_eq] at old
      obtain ⟨t, dated, early⟩ := old.2
      exact .age h dated early
  · cases h : b.keepNewest with
    | none => simp [h] at past
    | some keep =>
      rw [h, Option.elim_some] at past
      obtain ⟨us, vs, split⟩ := List.append_of_mem past
      have whole := (List.take_append_drop keep (newestFirst (l.entries.filter b.covers))).symm
      rw [split, ← List.append_assoc] at whole
      refine .count h (precede_of_split whole) ?_
      have some : keep < (newestFirst (l.entries.filter b.covers)).length := by
        by_contra short
        rw [List.drop_eq_nil_of_le (Nat.le_of_not_lt short)] at past
        cases past
      rw [List.length_append, List.length_take]
      omega
  · cases h : b.maxBytes with
    | none => simp [h] at beyond
    | some cap =>
      rw [h, Option.elim_some] at beyond
      obtain ⟨us, vs, split, large⟩ := of_mem_spill beyond
      rw [Nat.zero_add] at large
      exact .bytes h (precede_of_split split) large

theorem shrinks_sweepOne (now : Int) (stores : Stores) (b : Budget) :
    Shrinks now [b] stores (sweepOne false now b stores).1 := by
  intro p
  rw [sweepOne_fst]
  cases held : stores.get b.relpath with
  | none => exact ⟨id, fun l here => ⟨l, here, .refl _, fun e mem gone => absurd mem gone⟩⟩
  | some l =>
    simp only [Dict.get_set]
    by_cases same : p = b.relpath
    · subst same
      rw [if_pos rfl, held]
      refine ⟨fun absent => (by cases absent), fun l' here => ?_⟩
      cases here
      refine ⟨_, rfl, List.filter_sublist, fun e mem gone => ⟨b, List.mem_cons_self, ?_⟩⟩
      simp only [Budget.left, Listing.keep, List.mem_filter, mem, true_and, Bool.not_eq_true,
        Bool.not_eq_false', Bool.and_eq_true, decide_eq_true_eq, Option.isNone_iff_eq_none] at gone
      exact ⟨rfl, (List.mem_filter.mp (doomed_subset gone.1)).2, gone.2,
        exceeds_of_doomed gone.1⟩
    · rw [if_neg same]
      exact ⟨id, fun l here => ⟨l, here, .refl _, fun e mem gone => absurd mem gone⟩⟩

theorem Shrinks.trans {bs cs : List Budget} {stores' stores'' : Stores}
    (h : Shrinks now bs stores stores') (h' : Shrinks now cs stores' stores'') :
    Shrinks now (bs ++ cs) stores stores'' := by
  intro p
  refine ⟨fun absent => (h' p).1 ((h p).1 absent), fun l here => ?_⟩
  obtain ⟨l', here', sub, why⟩ := (h p).2 l here
  obtain ⟨l'', here'', sub', why'⟩ := (h' p).2 l' here'
  refine ⟨l'', here'', sub'.trans sub, fun e mem gone => ?_⟩
  by_cases stays : e ∈ l'.entries
  · obtain ⟨b, among, takes⟩ := why' e stays gone
    exact ⟨b, List.mem_append_right _ among, takes.mono sub.subset⟩
  · obtain ⟨b, among, rest⟩ := why e mem stays
    exact ⟨b, List.mem_append_left _ among, rest⟩

def sweptBy (now : Int) (bs : List Budget) (stores : Stores) : Stores :=
  bs.foldl (fun stores b => (sweepOne false now b stores).1) stores

theorem sweep_fst : (sweep false now stores).1 = sweptBy now budgets stores :=
  (List.foldl_hom Prod.fst fun _ _ => rfl).symm

theorem sweptBy_concat (bs : List Budget) (b : Budget) :
    sweptBy now (bs ++ [b]) stores = (sweepOne false now b (sweptBy now bs stores)).1 := by
  simp [sweptBy]

theorem shrinks_sweptBy (bs : List Budget) : Shrinks now bs stores (sweptBy now bs stores) := by
  induction bs using List.reverseRecOn with
  | nil => exact fun p => ⟨id, fun l here => ⟨l, here, .refl _, fun e mem gone => absurd mem gone⟩⟩
  | append_singleton bs b ih =>
    rw [sweptBy_concat]
    exact ih.trans (shrinks_sweepOne now _ b)

theorem within_sweepOne {b : Budget} {l : Listing}
    (here : (sweepOne false now b stores).1.get b.relpath = some l) : b.Within now l.entries := by
  rw [sweepOne_fst] at here
  cases held : stores.get b.relpath with
  | none => simp [held] at here
  | some l =>
    simp only [held, Dict.get_set_self, Option.some.injEq] at here
    exact here ▸ within_left

theorem within_sweptBy {bs : List Budget} {b : Budget} (mem : b ∈ bs) {l : Listing}
    (here : (sweptBy now bs stores).get b.relpath = some l) : b.Within now l.entries := by
  induction bs using List.reverseRecOn generalizing l with
  | nil => cases mem
  | append_singleton bs c ih =>
    rw [sweptBy_concat] at here
    cases List.mem_append.mp mem with
    | inr last =>
      cases List.mem_singleton.mp last
      exact within_sweepOne here
    | inl before =>
      obtain ⟨gone, kept⟩ := shrinks_sweepOne now (sweptBy now bs stores) c
        b.relpath
      cases held : (sweptBy now bs stores).get b.relpath with
      | none => rw [gone held] at here; cases here
      | some l' =>
        obtain ⟨l'', here', sub, -⟩ := kept l' held
        cases here.symm.trans here'
        exact (ih before held).sublist sub

end All

section Settled

variable {now : Int} {stores : Stores} {b c : Budget}

/-- The system lets go of every entry. -/
def Free (stores : Stores) : Prop :=
  ∀ p l, stores.get p = some l → ∀ e ∈ l.entries, e.stuck = none

/-- What a budget says of its directory: the result of its sweep, where nothing is stuck. -/
def Budget.verdict (b : Budget) (now : Int) (entries : Option (List Entry)) : StoreResult :=
  match entries with
  | none => { name := b.name }
  | some entries =>
    let swept := (b.doomed now entries).foldl (Sweeping.visit true) { result := { name := b.name } }
    { swept.result with kept := entries.length - swept.result.removed }

/-- The entries of its directory that a budget covers. -/
def Budget.view (b : Budget) (stores : Stores) : Option (List Entry) :=
  (stores.get b.relpath).map (·.entries.filter b.covers)

theorem visit_dry {ds : List Entry} (free : ∀ e ∈ ds, e.stuck = none) (s : Sweeping) (dry : Bool)
    (gone : List String) :
    (ds.foldl (Sweeping.visit dry) { s with gone := gone }).seen =
        (ds.foldl (Sweeping.visit true) s).seen ∧
      (ds.foldl (Sweeping.visit dry) { s with gone := gone }).result =
        (ds.foldl (Sweeping.visit true) s).result := by
  induction ds generalizing s gone with
  | nil => exact ⟨rfl, rfl⟩
  | cons e ds ih =>
    have rest := ih fun f mem => free f (List.mem_cons_of_mem e mem)
    have loose := free e List.mem_cons_self
    simp only [List.foldl_cons]
    by_cases old : e.name ∈ s.seen
    · rw [Sweeping.visit, if_pos old, Sweeping.visit, if_pos old]
      exact rest s gone
    · rw [Sweeping.visit, if_neg old, Sweeping.visit, if_neg old]
      simp only [loose, Option.isSome_none, Bool.and_false, Bool.false_and, Bool.false_eq_true,
        if_false, Bool.or_false, if_true]
      exact rest { s with
        seen := s.seen ++ [e.name]
        result := { s.result with
          removed := s.result.removed + 1
          bytesFreed := s.result.bytesFreed + e.size } } _

theorem sweepOne_snd (free : Free stores) (dry : Bool) :
    (sweepOne dry now b stores).2 = b.verdict now (b.view stores) := by
  unfold sweepOne Budget.view
  cases held : stores.get b.relpath with
  | none => rfl
  | some l =>
    have loose : ∀ e ∈ b.doomed now (l.entries.filter b.covers), e.stuck = none :=
      fun e mem => free _ l held e (List.mem_of_mem_filter (doomed_subset mem))
    have same := (visit_dry loose { result := { name := b.name } } dry []).2
    simp only [Option.map_some, Budget.verdict, same]

theorem free_sweepOne (free : Free stores) (b : Budget) : Free (sweepOne false now b stores).1 := by
  intro p l here e mem
  obtain ⟨gone, kept⟩ := shrinks_sweepOne now stores b p
  cases held : stores.get p with
  | none => rw [gone held] at here; cases here
  | some l' =>
    obtain ⟨l'', here', sub, -⟩ := kept l' held
    cases here.symm.trans here'
    exact free p l' held e (sub.subset mem)

/-- No entry of one directory is covered by both. -/
def Apart (b c : Budget) : Prop := b.relpath = c.relpath → ∀ e, ¬(b.covers e ∧ c.covers e)

theorem view_sweepOne (apart : Apart b c) :
    c.view (sweepOne false now b stores).1 = c.view stores := by
  unfold Budget.view
  rw [sweepOne_fst]
  cases held : stores.get b.relpath with
  | none => rfl
  | some l =>
    simp only [Dict.get_set]
    by_cases same : c.relpath = b.relpath
    · rw [if_pos same, same, held]
      simp only [Option.map_some, Option.some.injEq, Budget.left, Listing.keep, List.filter_filter]
      apply List.filter_congr
      intro e mem
      cases covered : c.covers e with
      | false => rfl
      | true =>
        have other : e ∉ b.doomed now (l.entries.filter b.covers) := fun doomed =>
          apart same.symm e ⟨(List.mem_filter.mp (doomed_subset doomed)).2, covered⟩
        simp [other]
    · rw [if_neg same]

theorem gone_dry (ds : List Entry) (s : Sweeping) :
    (ds.foldl (Sweeping.visit true) s).gone = s.gone := by
  induction ds generalizing s with
  | nil => rfl
  | cons e ds ih =>
    rw [List.foldl_cons, ih]
    unfold Sweeping.visit
    split
    · rfl
    · rfl

theorem get_sweepOne_dry (b : Budget) (p : String) :
    (sweepOne true now b stores).1.get p = stores.get p := by
  unfold sweepOne
  cases held : stores.get b.relpath with
  | none => rfl
  | some l =>
    have whole : l.keep (fun _ => true) = l := by simp [Listing.keep]
    simp only [gone_dry, List.not_mem_nil, not_false_eq_true, decide_true, whole, Dict.get_set]
    split
    next same => rw [same, held]
    next => rfl

theorem view_sweep (dry : Bool) (apart : Apart b c) :
    c.view (sweepOne dry now b stores).1 = c.view stores := by
  cases dry with
  | false => exact view_sweepOne apart
  | true => rw [Budget.view, get_sweepOne_dry, Budget.view]

theorem free_sweep (dry : Bool) (free : Free stores) (b : Budget) :
    Free (sweepOne dry now b stores).1 := by
  cases dry with
  | false => exact free_sweepOne free b
  | true => exact fun p l here => free p l ((get_sweepOne_dry b p).symm.trans here)

theorem foldl_results (dry : Bool) (free : Free stores) {bs : List Budget}
    (apart : bs.Pairwise Apart) (results : List StoreResult) :
    (bs.foldl (fun found b =>
      let r := sweepOne dry now b found.1
      (r.1, found.2 ++ [r.2])) (stores, results)).2 =
      results ++ bs.map fun b => b.verdict now (b.view stores) := by
  induction bs generalizing stores results with
  | nil => simp
  | cons b bs ih =>
    obtain ⟨here, apart⟩ := List.pairwise_cons.mp apart
    simp only [List.foldl_cons]
    rw [ih (free_sweep dry free b) apart, sweepOne_snd free, List.map_cons, List.append_assoc,
      List.singleton_append]
    congr 2
    exact List.map_congr_left fun c mem => by rw [view_sweep dry (here c mem)]

theorem sentinel_starts {name : List Char} (h : fnmatch ".*-*".toList name = true) :
    name.head? = some '.' := by
  simp only [String.reduceToList, fnmatch] at h
  cases name with
  | nil => simp at h
  | cons c cs =>
    simp at h
    rw [List.head?_cons, h.1]

theorem orphan_starts {name : List Char} (h : fnmatch "hookq.*.jsonl".toList name = true) :
    name.head? = some 'h' := by
  simp only [String.reduceToList, fnmatch] at h
  cases name with
  | nil => simp at h
  | cons c cs =>
    simp at h
    rw [List.head?_cons, h.1]

theorem budgets_apart : budgets.Pairwise Apart := by
  have paths : budgets.Pairwise fun b c => b.relpath ≠ c.relpath ∨
      b.glob = ".*-*" ∧ c.glob = "hookq.*.jsonl" := by
    simp [budgets]
  apply paths.imp
  intro b c kinds same e covered
  cases kinds with
  | inl other => exact other same
  | inr globs =>
    simp only [Budget.covers, globs.1, globs.2, Bool.and_eq_true, Bool.or_eq_true,
      decide_eq_true_eq, String.reduceEq, false_or] at covered
    have first := sentinel_starts covered.1.2
    rw [orphan_starts covered.2.2] at first
    cases first

theorem sweep_snd (dry : Bool) (free : Free stores) :
    (sweep dry now stores).2 = budgets.map fun b => b.verdict now (b.view stores) :=
  (foldl_results dry free budgets_apart []).trans (List.nil_append _)

theorem free_sweptBy (free : Free stores) (bs : List Budget) : Free (sweptBy now bs stores) := by
  induction bs using List.reverseRecOn with
  | nil => exact free
  | append_singleton bs b ih =>
    rw [sweptBy_concat]
    exact free_sweepOne ih b

theorem doomed_eq_nil {entries : List Entry} (within : b.Within now entries)
    (free : ∀ e ∈ entries, e.stuck = none) : b.doomed now (entries.filter b.covers) = [] := by
  have mine : b.mine entries = entries.filter b.covers := by
    apply List.filter_congr
    intro e mem
    simp [free e mem]
  have perm := newestFirst_perm (entries.filter b.covers)
  simp only [Budget.doomed, List.append_eq_nil_iff]
  refine ⟨⟨?_, ?_⟩, ?_⟩
  · cases h : b.maxAgeDays with
    | none => rfl
    | some days =>
      rw [Option.elim_some, List.filter_eq_nil_iff]
      intro e mem
      cases at_ : e.mtime with
      | none => simp
      | some t =>
        have young := within.age days h e (mine ▸ mem) t at_
        simp only [Option.any_some, decide_eq_true_eq]
        omega
  · cases h : b.keepNewest with
    | none => rfl
    | some keep =>
      have few := within.count keep h
      rw [Option.elim_some, List.drop_eq_nil_iff, perm.length_eq, ← mine]
      exact few
  · cases h : b.maxBytes with
    | none => rfl
    | some limit =>
      have light := within.bytes limit h
      rw [Option.elim_some]
      apply spill_eq_nil
      rw [(perm.map Entry.size).sum_eq, ← mine]
      omega

theorem sweep_settles (now : Int) (free : Free stores) :
    (sweep true now stores).2 = (sweep false now stores).2 ∧
      ∀ dry, ∀ r ∈ (sweep dry now (sweep false now stores).1).2,
        r.removed = 0 ∧ r.bytesFreed = 0 ∧ r.error = none := by
  refine ⟨(sweep_snd true free).trans (sweep_snd false free).symm, fun dry r mem => ?_⟩
  have free' : Free (sweep false now stores).1 := sweep_fst ▸ free_sweptBy free budgets
  rw [sweep_snd dry free'] at mem
  obtain ⟨b, among, rfl⟩ := List.mem_map.mp mem
  unfold Budget.view
  cases held : (sweep false now stores).1.get b.relpath with
  | none => exact ⟨rfl, rfl, rfl⟩
  | some l =>
    have within := within_sweptBy among (sweep_fst ▸ held)
    have nothing := doomed_eq_nil within (free' _ l held)
    simp [Budget.verdict, nothing]

def Surveyed (bs : List Budget) (p : String) : Prop :=
  ∀ b ∈ bs, b.relpath = p → b.entryIsDir = false

theorem childrenOf_sweepOne {p : String} (files : b.relpath = p → b.entryIsDir = false) :
    childrenOf (sweepOne false now b stores).1 p = childrenOf stores p := by
  unfold childrenOf
  rw [sweepOne_fst]
  cases held : stores.get b.relpath with
  | none => rfl
  | some l =>
    simp only [Dict.get_set]
    by_cases same : p = b.relpath
    · rw [if_pos same, same, held]
      simp only [Option.elim_some, Budget.left, Listing.keep, List.filter_filter]
      apply congrArg
      apply List.filter_congr
      intro e mem
      cases dir : e.isDir with
      | false => rfl
      | true =>
        have stays : e ∉ b.doomed now (l.entries.filter b.covers) := fun doomed => by
          have covered := (List.mem_filter.mp (doomed_subset doomed)).2
          simp [Budget.covers, dir, files same.symm] at covered
        simp [stays]
    · rw [if_neg same]

theorem childrenOf_sweptBy {bs : List Budget} {p : String} (files : Surveyed bs p) :
    childrenOf (sweptBy now bs stores) p = childrenOf stores p := by
  induction bs using List.reverseRecOn with
  | nil => rfl
  | append_singleton bs b ih =>
    rw [sweptBy_concat, childrenOf_sweepOne (files b (by simp))]
    exact ih fun c mem => files c (List.mem_append_left _ mem)

theorem parents_surveyed : ∀ p ∈ "" :: delegating, Surveyed budgets p := by
  simp [Surveyed, delegating, budgets]

theorem unbudgetedDirs_sweep :
    unbudgetedDirs (sweep false now stores).1 = unbudgetedDirs stores := by
  have root : ((sweep false now stores).1.get "").isNone = (stores.get "").isNone := by
    rw [sweep_fst]
    have shrinks : Shrinks now budgets stores (sweptBy now budgets stores) :=
      shrinks_sweptBy budgets
    cases held : stores.get "" with
    | none => rw [(shrinks "").1 held]
    | some l =>
      obtain ⟨l', here, -⟩ := (shrinks "").2 l held
      rw [here]
      rfl
  have children : ∀ p ∈ "" :: delegating,
      childrenOf (sweep false now stores).1 p = childrenOf stores p := fun p mem => by
    rw [sweep_fst]
    exact childrenOf_sweptBy (parents_surveyed p mem)
  unfold unbudgetedDirs
  rw [root]
  simp only [delegating, List.forall_mem_cons] at children ⊢
  simp only [List.flatMap_cons, children.1, children.2.1, children.2.2.1, List.flatMap_nil]

/-- What an audit says of the budgets is what a sweep then takes; behind a sweep it has only the
directories to name that no budget covers, which are those of before, and the worktrees; and
another sweep takes nothing. -/
theorem audit_sweep (stale : List (String × Nat)) (now : Int) (free : Free stores) :
    audit stale now stores = unbudgetedLines stores ++
        overBudgetLines (sweep false now stores).2 ++ worktreeLines stale ∧
      audit stale now (sweep false now stores).1 =
        unbudgetedLines stores ++ worktreeLines stale ∧
      ∀ r ∈ (sweep false now (sweep false now stores).1).2,
        r.removed = 0 ∧ r.bytesFreed = 0 ∧ r.error = none := by
  obtain ⟨told, settled⟩ := sweep_settles now free
  have quiet : overBudgetLines (sweep true now (sweep false now stores).1).2 = [] := by
    rw [overBudgetLines, List.map_eq_nil_iff, List.filter_eq_nil_iff]
    intro r mem
    simp [(settled true r mem).1]
  refine ⟨by rw [audit, told], ?_, settled false⟩
  rw [audit, quiet, List.append_nil, unbudgetedLines, unbudgetedDirs_sweep]
  rfl

def dusty : Stores :=
  [("diagnostics", ⟨[{ name := "2026-09-01", isDir := true, mtime := some 0, size := 7 },
    { name := "2026-09-21", isDir := true, mtime := some 1728000, size := 9 }], by decide⟩)]

theorem free_dusty : Free dusty := by
  intro p l here e mem
  simp only [dusty, Dict.get_cons, Dict.get_nil] at here
  by_cases same : "diagnostics" = p
  · rw [if_pos same] at here
    cases here
    simp only [List.mem_cons, List.not_mem_nil, or_false] at mem
    cases mem with
    | inl first => rw [first]
    | inr second => rw [second]
  · rw [if_neg same] at here
    cases here

theorem audit_sweep_dusty :
    audit [] 1728000 dusty = unbudgetedLines dusty ++
        overBudgetLines (sweep false 1728000 dusty).2 ++ worktreeLines [] ∧
      audit [] 1728000 (sweep false 1728000 dusty).1 =
        unbudgetedLines dusty ++ worktreeLines [] ∧
      ∀ r ∈ (sweep false 1728000 (sweep false 1728000 dusty).1).2,
        r.removed = 0 ∧ r.bytesFreed = 0 ∧ r.error = none :=
  audit_sweep [] 1728000 free_dusty

end Settled

section Daily

structure Clocked where
  stores : Stores
  clock : Int

inductive Upkeep
  | daily (now : Int) (writable : Bool)
  | others (stores : Stores)

/-- `sweep_daily` is called as time goes on, and the writers change the stores in between. -/
def upkeep (dateOf : Int → String) : Machine Clocked Upkeep where
  step s
    | .daily now writable =>
      if s.clock ≤ now then some ⟨(sweepDaily (dateOf now) now writable s.stores).1, now⟩ else none
    | .others stores => some { s with stores := stores }

def sweepsOn (dateOf : Int → String) (date : String)
    (x : Machine.Transition Clocked Upkeep) : Bool :=
  match x.label with
  | .daily now writable =>
    dateOf now = date && (sweepDaily (dateOf now) now writable x.before.stores).2.isSome
  | .others _ => false

/-- The writers let the sentinel of the date be. -/
def Spares (date : String) (s : Clocked) : Upkeep → Prop
  | .daily _ _ => True
  | .others stores => ∀ e ∈ (stateDir s.stores).entries, e.name = stampOf date →
    e ∈ (stateDir stores).entries

variable {dateOf : Int → String} {date : String} {now : Int} {s t : Clocked}

def Swept (dateOf : Int → String) (date : String) (s : Clocked) : Prop :=
  ∃ t, dateOf t = date ∧ t ≤ s.clock ∧ (t + 7 * day ≤ s.clock ∨
    ∃ e ∈ (stateDir s.stores).entries, e.name = stampOf date ∧ e.isDir = false ∧ e.mtime = some t)

theorem stateDir_eq {stores : Stores} {e : Entry} (mem : e ∈ (stateDir stores).entries) :
    stores.get "state" = some (stateDir stores) := by
  unfold stateDir at mem ⊢
  cases held : stores.get "state" with
  | none => simp [held, Listing.empty] at mem
  | some l => rfl

theorem stampOf_sentinel (date : String) (e : Entry) (named : e.name = stampOf date) :
    fnmatch "hookq.*.jsonl".toList e.name.toList = false := by
  cases orphan : fnmatch "hookq.*.jsonl".toList e.name.toList with
  | false => rfl
  | true =>
    have first := orphan_starts orphan
    rw [named, stampOf, String.toList_append,
      show ".swept-".toList = ['.', 's', 'w', 'e', 'p', 't', '-'] from rfl] at first
    cases first

theorem state_budgets : ∀ b ∈ budgets, b.relpath = "state" →
    b.glob = "hookq.*.jsonl" ∨
      b.maxAgeDays = some 7 ∧ b.keepNewest = none ∧ b.maxBytes = none := by
  simp [budgets]

theorem mem_stateDir_sweep {stores : Stores} {e : Entry} (mem : e ∈ (stateDir stores).entries)
    (named : e.name = stampOf date) {t : Int} (written : e.mtime = some t)
    (young : now < t + 7 * day) : e ∈ (stateDir (sweep false now stores).1).entries := by
  have shrinks : Shrinks now budgets stores (sweptBy now budgets stores) := shrinks_sweptBy budgets
  obtain ⟨l', here, -, why⟩ := (shrinks "state").2 _ (stateDir_eq mem)
  rw [sweep_fst, stateDir, here, Option.getD_some]
  by_contra gone
  obtain ⟨b, among, takes⟩ := why e mem gone
  have orphan := stampOf_sentinel date e named
  cases state_budgets b among takes.path with
  | inl orphans =>
    have covers := takes.covers
    rw [Budget.covers, orphans, orphan] at covers
    simp at covers
  | inr sentinels =>
    obtain ⟨age, keep, bytes⟩ := sentinels
    cases takes.beyond with
    | age limit dated old =>
      obtain rfl := Option.some.inj (age.symm.trans limit)
      obtain rfl := Option.some.inj (written.symm.trans dated)
      omega
    | count limit => exact absurd (keep.symm.trans limit) (by simp)
    | bytes limit => exact absurd (bytes.symm.trans limit) (by simp)

theorem sweepDaily_cases (date : String) (now : Int) (writable : Bool) (stores : Stores) :
    sweepDaily date now writable stores = (stores, none) ∨
      (stateDir stores).has (stampOf date) = false ∧
        (sweepDaily date now writable stores).1 =
          (sweep false now (stamped date now stores)).1 := by
  unfold sweepDaily
  cases there : (stateDir stores).has (stampOf date) with
  | true => exact .inl (if_pos rfl)
  | false =>
    rw [if_neg Bool.false_ne_true]
    cases writable with
    | false => exact .inl (if_neg Bool.false_ne_true)
    | true =>
      simp only [reduceIte]
      exact .inr ⟨trivial, trivial⟩

theorem stateDir_stamped (date : String) (now : Int) (stores : Stores) :
    stateDir (stamped date now stores) = (stateDir stores).write
      { name := stampOf date, isDir := false, mtime := some now, size := 0 } := by
  simp [stateDir, stamped]

theorem name_ne_of_has {l : Listing} {name : String} (absent : l.has name = false) {e : Entry}
    (mem : e ∈ l.entries) : e.name ≠ name := by
  simp only [Listing.has, List.any_eq_false, decide_eq_true_eq] at absent
  exact absent e mem

theorem mem_write {l : Listing} {e f : Entry} :
    f ∈ (l.write e).entries ↔ f ∈ l.entries ∧ f.name ≠ e.name ∨ f = e := by
  simp [Listing.write]

theorem mem_stateDir_sweepDaily {stores : Stores} {d : String} {writable : Bool} {e : Entry}
    (mem : e ∈ (stateDir stores).entries) (named : e.name = stampOf date) {a : Int}
    (written : e.mtime = some a) (young : now < a + 7 * day) :
    e ∈ (stateDir (sweepDaily d now writable stores).1).entries := by
  cases sweepDaily_cases d now writable stores with
  | inl idle => rw [idle]; exact mem
  | inr swept =>
    obtain ⟨absent, swept⟩ := swept
    have there : e ∈ (stateDir (stamped d now stores)).entries := by
      rw [stateDir_stamped, mem_write]
      exact .inl ⟨mem, name_ne_of_has absent mem⟩
    rw [swept]
    exact mem_stateDir_sweep there named written young

theorem mem_stamp {stores : Stores} {d : String} {writable : Bool}
    (sweeps : (sweepDaily d now writable stores).2.isSome = true) :
    (stateDir stores).has (stampOf d) = false ∧
      { name := stampOf d, isDir := false, mtime := some now, size := 0 } ∈
        (stateDir (sweepDaily d now writable stores).1).entries := by
  cases sweepDaily_cases d now writable stores with
  | inl idle => rw [idle] at sweeps; cases sweeps
  | inr swept =>
    obtain ⟨absent, swept⟩ := swept
    have there : { name := stampOf d, isDir := false, mtime := some now, size := 0 } ∈
        (stateDir (stamped d now stores)).entries := by
      rw [stateDir_stamped, mem_write]
      exact .inr rfl
    rw [swept]
    exact ⟨absent, mem_stateDir_sweep there rfl rfl (by simp [day])⟩

theorem daily_eq_some {writable : Bool}
    (h : (upkeep dateOf).step s (.daily now writable) = some t) :
    s.clock ≤ now ∧ t.clock = now ∧
      t.stores = (sweepDaily (dateOf now) now writable s.stores).1 := by
  simp only [upkeep] at h
  split at h
  next later => cases h; exact ⟨later, rfl, rfl⟩
  next => cases h

theorem daily_step {writable : Bool} (later : s.clock ≤ now) :
    (upkeep dateOf).step s (.daily now writable) =
      some ⟨(sweepDaily (dateOf now) now writable s.stores).1, now⟩ := if_pos later

theorem swept_of_sweepsOn (calendar : ∀ a b, dateOf a = dateOf b → b < a + 7 * day) {l : Upkeep}
    (h : (upkeep dateOf).step s l = some t) (sweeps : sweepsOn dateOf date ⟨s, l, t⟩ = true) :
    ¬Swept dateOf date s ∧ Swept dateOf date t := by
  cases l with
  | others stores => cases sweeps
  | daily now writable =>
    simp only [sweepsOn, Bool.and_eq_true, decide_eq_true_eq] at sweeps
    obtain ⟨rfl, sweeps⟩ := sweeps
    obtain ⟨later, clock, stores⟩ := daily_eq_some h
    obtain ⟨absent, stamp⟩ := mem_stamp sweeps
    constructor
    · rintro ⟨a, same, before, old | ⟨e, mem, named, -, -⟩⟩
      · have := calendar a now same
        omega
      · exact name_ne_of_has absent mem named
    · exact ⟨now, rfl, clock.ge, .inr ⟨_, stores ▸ stamp, rfl, rfl, rfl⟩⟩

theorem swept_step {l : Upkeep} (swept : Swept dateOf date s)
    (spares : Spares date s l) (h : (upkeep dateOf).step s l = some t) : Swept dateOf date t := by
  obtain ⟨a, same, before, kept⟩ := swept
  cases l with
  | others stores =>
    cases h
    refine ⟨a, same, before, kept.imp_right fun there => ?_⟩
    obtain ⟨e, mem, rest⟩ := there
    exact ⟨e, spares e mem rest.1, rest⟩
  | daily now writable =>
    obtain ⟨later, clock, stores⟩ := daily_eq_some h
    refine ⟨a, same, clock ▸ before.trans later, ?_⟩
    by_cases young : now < a + 7 * day
    · cases kept with
      | inl old => omega
      | inr there =>
        obtain ⟨e, mem, named, file, written⟩ := there
        exact .inr ⟨e, stores ▸ mem_stateDir_sweepDaily mem named written young, named, file,
          written⟩
    · exact .inl (by omega)

/-- However often the daily path is called while time goes on, and although a sweep takes old
sentinels with it, each date is swept once at most. -/
theorem swept_once (calendar : ∀ a b, dateOf a = dateOf b → b < a + 7 * day) {ls : List Upkeep}
    (spares : ∀ x ∈ (upkeep dateOf).transitions s ls, Spares date x.before x.label)
    (reach : (upkeep dateOf).run s ls = some t) :
    (upkeep dateOf).tally (sweepsOn dateOf date) s ls ≤ 1 :=
  (upkeep dateOf).tally_le_one (P := Swept dateOf date)
    (fun _ _ _ h sweeps => swept_of_sweepsOn calendar h sweeps)
    (fun _ _ _ swept spares h => swept_step swept spares h) spares reach

theorem repr_inj {m n : Nat} (same : m.repr = n.repr) : m = n := by
  have digits : Nat.toDigits 10 m = Nat.toDigits 10 n := by
    rw [← Nat.toList_repr, ← Nat.toList_repr, same]
  rw [← Nat.ofDigitChars_ten_toDigits (n := m), digits, Nat.ofDigitChars_ten_toDigits]

/-- The days of January 1970 as they are written, and on beyond its end; the days before have all
one name to a week. -/
def january (now : Int) : String :=
  if 0 ≤ now then "1970-01-" ++ ((now / day).toNat + 1).repr
  else "before " ++ (-now / (7 * day)).toNat.repr

theorem january_calendar (a b : Int) (same : january a = january b) : b < a + 7 * day := by
  simp only [january] at same
  split at same <;> split at same
  · have days := repr_inj (String.append_right_inj _ |>.mp same)
    simp only [day] at days ⊢
    omega
  · simp only [day]
    omega
  · replace same := congrArg String.toList same
    simp only [String.toList_append] at same
    cases same
  · have weeks := repr_inj (String.append_right_inj _ |>.mp same)
    simp only [day] at weeks ⊢
    omega

theorem swept_once_january :
    (upkeep january).tally (sweepsOn january "1970-01-21") ⟨[], 0⟩
      [.others dusty, .daily 1728000 true, .daily 1731600 true] ≤ 1 := by
  have start : (upkeep january).step ⟨[], 0⟩ (.others dusty) = some ⟨dusty, 0⟩ := rfl
  have first : (upkeep january).step ⟨dusty, 0⟩ (.daily 1728000 true) =
      some ⟨(sweepDaily (january 1728000) 1728000 true dusty).1, 1728000⟩ :=
    daily_step (by decide)
  generalize (sweepDaily (january 1728000) 1728000 true dusty).1 = stores at first
  have second : (upkeep january).step ⟨stores, 1728000⟩ (.daily 1731600 true) =
      some ⟨(sweepDaily (january 1731600) 1731600 true stores).1, 1731600⟩ :=
    daily_step (by simp)
  generalize (sweepDaily (january 1731600) 1731600 true stores).1 = after at second
  apply swept_once (t := ⟨after, 1731600⟩) january_calendar
  · simp only [Machine.transitions_cons_of_step _ start, Machine.transitions_cons_of_step _ first,
      Machine.transitions_cons_of_step _ second, List.forall_mem_cons]
    refine ⟨fun e mem => ?_, trivial, trivial, List.forall_mem_nil _⟩
    cases mem
  · simp [Machine.run_cons, start, first, second]

end Daily

end DreamStudio.Config
